import OpenALE.App.Controller
import OpenALE.Control.Reaction

/-!
# Refused call requests

The controller writes the settings of a call into the state machine and only then asks it to place
the call. What the state machine refuses has been configured all the same.

Results:
* `refused_unchanged_iff`: a refused request leaves the call in progress as it was exactly when it
  failed one of the controller's own checks or wrote nothing new.
* `refused_changed`: a second call request moves a running call back to its first channel.
-/

namespace OpenALE

/-- What the state machine keeps of the call in progress and of the next one. -/
structure CallInProgress where
  callingChannels : List Channel
  callingChannelIndex : Nat
  targetScanChannels : UInt32
  lbtShared : Bool
  pend : Pending
  seqs : CallSequences
  deriving DecidableEq

/-- The call in progress. -/
def SM.callInProgress (s : SM) : CallInProgress where
  callingChannels := s.calling.callingChannels
  callingChannelIndex := s.calling.callingChannelIndex
  targetScanChannels := s.targetScanChannels
  lbtShared := s.lbtShared
  pend := s.pend
  seqs := s.seqs

namespace Controller

/-- Everything the setup writes is there already, a list of channels with the call still on its
first one. -/
structure CallSetup.Matches (u : CallSetup) (s : SM) : Prop where
  channels : ∀ chs ∈ u.channels,
    s.calling.callingChannels = chs ∧ s.calling.callingChannelIndex = 0
  scanChannels : s.targetScanChannels = u.scanChannels
  lqaRaw : ∀ raw ∈ u.lqaRaw, s.pend.pendingLqaCmdRaw = raw ∧ s.pend.pendingLqaCmdSet = true
  lbtShared : ∀ shared ∈ u.lbtShared, s.lbtShared = shared

section Refused

variable {c : Controller} {o : Outlook} {r : Request} {u : CallSetup} {s : SM}

theorem CallSetup.write_callInProgress :
    (u.write s).callInProgress = s.callInProgress ↔ u.Matches s := by
  obtain ⟨channels, n, lqaRaw, shared⟩ := u
  constructor
  · intro h
    have hchs := congrArg CallInProgress.callingChannels h
    have hidx := congrArg CallInProgress.callingChannelIndex h
    have hn := congrArg CallInProgress.targetScanChannels h
    have hraw := congrArg (fun p => (p.pend.pendingLqaCmdRaw, p.pend.pendingLqaCmdSet)) h
    have hlbt := congrArg CallInProgress.lbtShared h
    refine ⟨?_, hn.symm, ?_, ?_⟩
    · rintro chs rfl
      exact ⟨hchs.symm, hidx.symm⟩
    · rintro raw rfl
      obtain ⟨h1, h2⟩ := Prod.mk.inj hraw
      exact ⟨h1.symm, h2.symm⟩
    · rintro b rfl
      exact hlbt.symm
  · rintro ⟨hchs, hn, hraw, hlbt⟩
    dsimp only at hn
    subst hn
    have hcalling : (CallSetup.write ⟨channels, s.targetScanChannels, lqaRaw, shared⟩ s).calling =
        s.calling := by
      cases channels with
      | none => rfl
      | some chs =>
        obtain ⟨h1, h2⟩ := hchs chs rfl
        show { s.calling with callingChannels := chs, callingChannelIndex := 0 } = s.calling
        rw [← h1, ← h2]
    have hpend : (CallSetup.write ⟨channels, s.targetScanChannels, lqaRaw, shared⟩ s).pend =
        s.pend := by
      cases lqaRaw with
      | none => rfl
      | some raw =>
        obtain ⟨h1, h2⟩ := hraw raw rfl
        show { s.pend with pendingLqaCmdRaw := raw, pendingLqaCmdSet := true } = s.pend
        rw [← h1, ← h2]
    have hshared : (CallSetup.write ⟨channels, s.targetScanChannels, lqaRaw, shared⟩ s).lbtShared =
        s.lbtShared := by
      cases shared with
      | none => rfl
      | some b => exact (hlbt b rfl).symm
    unfold SM.callInProgress
    rw [hcalling, hpend, hshared]
    rfl

/-- Out of `IDLE` and `SCANNING` the state machine refuses and changes nothing. -/
theorem initiate_refused (h : s.available = false) : r.initiate s = (s, false) := by
  cases r with
  | call target => simp [Request.initiate, SM.initiateCall, h]
  | singleChannelCall target => simp [Request.initiate, SM.initiateCall, h]
  | groupCall members => simp [Request.initiate, SM.initiateGroupCall, h]

theorem callRequest_accepted (h : s.available = true) : s.callRequest.2 = true := by
  unfold SM.callRequest SM.processEvent
  rcases (SM.available_iff s).mp h with hc | hc <;> rw [hc] <;> simp [SM.transitionTo, hc]

/-- In `IDLE` and `SCANNING` it takes every request the controller passes on. -/
theorem initiate_accepted (h : s.available = true) (hr : r ≠ .groupCall []) :
    (r.initiate s).2 = true := by
  cases r with
  | call target =>
    simp only [Request.initiate, SM.initiateCall, h, not_true_eq_false, if_false]
    exact callRequest_accepted h
  | singleChannelCall target =>
    simp only [Request.initiate, SM.initiateCall, h, not_true_eq_false, if_false]
    exact callRequest_accepted h
  | groupCall members =>
    have hm : members ≠ [] := by
      rintro rfl
      exact hr rfl
    simp only [Request.initiate, SM.initiateGroupCall, h, not_true_eq_false, if_false, hm]
    exact callRequest_accepted h

theorem setup_group_ne_nil (h : c.setup o r = some u) : r ≠ .groupCall [] := by
  rintro rfl
  simp [setup] at h

/-- **A refused request leaves the call in progress as it was** exactly when it failed one of the
controller's own checks or everything it wrote was there already. -/
theorem refused_unchanged_iff (c : Controller) (o : Outlook) (r : Request)
    (h : (c.request o r).2 = false) :
    (c.request o r).1.sm.callInProgress = c.sm.callInProgress ↔
      ∀ u, c.setup o r = some u → u.Matches c.sm := by
  rw [request_eq] at h ⊢
  cases hu : c.setup o r with
  | none => simp
  | some u =>
    rw [hu] at h
    have hav : (u.write c.sm).available = false := by
      by_contra hav
      have hacc : (r.initiate (u.write c.sm)).2 = true :=
        initiate_accepted (by simpa using hav) (setup_group_ne_nil hu)
      exact absurd (hacc.symm.trans h) (by simp)
    have hsm : (c.place (r.initiate (u.write c.sm))).1.sm = u.write c.sm := by
      rw [initiate_refused hav]
      rfl
    show (c.place (r.initiate (u.write c.sm))).1.sm.callInProgress = _ ↔ _
    rw [hsm, CallSetup.write_callInProgress]
    constructor
    · rintro hm u' ⟨⟩
      exact hm
    · intro hm
      exact hm u rfl

end Refused

/-- An analyzer without data and a radio on no channel. -/
def quietOutlook : Outlook where
  rank := fun _ chs => chs
  rank_perm := fun _ chs => List.Perm.refl chs
  lqaRaw := fun _ _ => 0
  radio := {}

/-- A call to `ABC` over two channels, the first of them busy. -/
def callingOnSecond : Controller :=
  let c : Controller := ({} : Controller).addChannel ['1'] { rxFrequencyHz := 3500000 }
  let c := c.addChannel ['2'] { rxFrequencyHz := 7100000 }
  let c := (c.initiateCall quietOutlook ['A', 'B', 'C']).1
  { c with sm := c.sm.step (.update 0 { channelBusy := true }) }

/-- The refused call moves the running one back to its first channel. -/
theorem refused_changed :
    (callingOnSecond.request quietOutlook (.call ['X', 'Y', 'Z'])).2 = false ∧
      callingOnSecond.sm.callInProgress.callingChannelIndex = 1 ∧
      (callingOnSecond.request quietOutlook (.call ['X', 'Y', 'Z'])).1.sm.callInProgress
        ≠ callingOnSecond.sm.callInProgress := by
  decide +kernel

/-- A request without an address changes nothing. -/
theorem refused_unchanged_iff_unaddressed :
    (callingOnSecond.request quietOutlook (.call [])).1.sm.callInProgress =
        callingOnSecond.sm.callInProgress ↔
      ∀ u, callingOnSecond.setup quietOutlook (.call []) = some u →
        u.Matches callingOnSecond.sm :=
  refused_unchanged_iff callingOnSecond quietOutlook (.call []) (by decide +kernel)

end Controller

end OpenALE
