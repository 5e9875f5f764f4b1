import OpenALE.Control.Sounding
import OpenALE.Properties.Returns

/-!
# Sounding sweeps

A `Sweeper` is the machine with a log of its soundings: the channel the radio is on, the channels
the sounding under way is to cover, those it has covered, and the bursts of the present cycle.

Results:
* `sweep_clean_iff`: sweep mode stays inside `SOUNDING` and every requested sounding covers its
  channels once and in order, exactly in the runs that do not abort a sweep from outside.
* `sweep_clean_fail`: an emergency stop during a sweep leaves sweep mode on for the next sounding.
-/

namespace OpenALE

namespace SM

/-! ## Outside `SOUNDING` -/

section Outside

variable {s p s' : SM}

theorem transitionTo_sweepActive (s : SM) (t : ALEState) :
    (s.transitionTo t).1.snd.soundingSweepActive = s.snd.soundingSweepActive := by
  by_cases h : s.currentState = t
  · rw [transitionTo_self h]
  · exact congrArg Radio.sweepActive (transitionTo_radio h).1

theorem processEvent_sweepActive (hc : p.currentState ≠ .sounding) (e : ALEEvent) :
    (p.processEvent e).1.snd.soundingSweepActive = p.snd.soundingSweepActive := by
  unfold processEvent
  cases hs : p.currentState <;> cases e <;>
    first
      | exact transitionTo_sweepActive p _
      | rfl
      | exact absurd hs hc

theorem Tunes.sweepActive (hc : s.currentState ≠ .sounding) (h : s.Tunes s') :
    s'.snd.soundingSweepActive = s.snd.soundingSweepActive := by
  rcases h with h | ⟨p, e, hp, -, rfl⟩
  · exact congrArg Radio.sweepActive h.radio
  · have hst : p.currentState = s.currentState := congrArg Control.state hp.control
    rw [processEvent_sweepActive (by rw [hst]; exact hc)]
    exact congrArg Radio.sweepActive hp.radio

/-- **Outside `SOUNDING` only `send_sounding_sweep` enters sweep mode.** -/
theorem exec_sweepActive (hc : s.currentState ≠ .sounding) {op : Op}
    (hop : ∀ chs, op ≠ .sendSoundingSweep chs) :
    (s.exec op).snd.soundingSweepActive = s.snd.soundingSweepActive := by
  cases hr : retunes op with
  | false => exact (exec_tunes s hr).sweepActive hc
  | true =>
    cases op with
    | processEvent e => exact processEvent_sweepActive hc e
    | update now env =>
      cases update_tunes s now env with
      | tunes h => exact h.sweepActive hc
      | retries _ ch h => exact congrArg Radio.sweepActive h.radio
      | scans _ _ _ r h _ _ => exact congrArg Radio.sweepActive h
    | sendSoundingSweep chs => exact absurd rfl (hop chs)
    | emergencyManualControl =>
      show s.emergencyManualControl.snd.soundingSweepActive = _
      unfold emergencyManualControl
      rw [transitionTo_sweepActive]
      split
      · rw [transmitWords_eq]
        rfl
      · rfl
    | set x => cases x <;> first | rfl | exact absurd hr Bool.false_ne_true
    | _ => exact absurd hr Bool.false_ne_true

end Outside

/-- The channels of the sweep after the present one. -/
def sweepRest (s : SM) : List Channel :=
  if s.snd.soundingSweepActive then s.snd.soundingSweepChs.drop (s.snd.soundingSweepIdx + 1) else []

theorem nextSweepChannel_eq (s : SM) : s.nextSweepChannel = s.sweepRest.head? := by
  unfold nextSweepChannel sweepRest
  split
  · rw [List.head?_drop]
  · rfl

theorem sweepRest_of_next {p : SM} {ch : Channel} (h : p.nextSweepChannel = some ch) :
    p.snd.soundingSweepActive = true ∧
      p.snd.soundingSweepIdx + 1 < p.snd.soundingSweepChs.length ∧
      p.sweepRest = ch :: p.snd.soundingSweepChs.drop (p.snd.soundingSweepIdx + 1 + 1) := by
  unfold nextSweepChannel at h
  split at h
  · rename_i ha
    obtain ⟨hlt, hch⟩ := List.getElem?_eq_some_iff.mp h
    refine ⟨ha, hlt, ?_⟩
    unfold sweepRest
    rw [if_pos ha, List.drop_eq_getElem_cons hlt, hch]
  · exact absurd h (by simp)

/-- Back in `IDLE` or `SCANNING` the override is off. -/
theorem arrive_override {t : ALEState} (ht : t.Available) (m : ChannelManager) (now : UInt32)
    (hop : Option Channel) : (arrive m t now hop).1.overrideActive = false := by
  have hstart : ∀ m : ChannelManager, (m.start now).1.overrideActive = m.overrideActive := by
    intro m
    unfold ChannelManager.start ChannelManager.hopNext ChannelManager.apply
    dsimp only
    repeat' split
    all_goals rfl
  rcases ht with rfl | rfl
  · rfl
  · exact (hstart _).trans rfl

/-- The entry to `SOUNDING`: a cycle starts, with no drain watchdog. -/
theorem enters_sounding_lbt {s : SM} {op : Op} (hc : s.currentState ≠ .sounding)
    (ht : (s.step op).currentState = .sounding) :
    (s.step op).snd.soundingPhase = .lbt ∧ (s.step op).tx.txDrainStartMs = 0 := by
  obtain ⟨q, hq, -, he⟩ := (step_fires s op).transition (s := s.clearOut) (by rw [ht]; exact Ne.symm hc)
  have hne : q.currentState ≠ .sounding := by rw [hq]; exact hc
  rw [ht] at he
  rw [he, transitionTo_tx hne, transitionTo_of_ne hne]
  exact ⟨rfl, rfl⟩

/-- A sounding that starts from an available state. -/
theorem transitionTo_sounding {p : SM} (hp : p.currentState ≠ .sounding) :
    (p.transitionTo .sounding).1.previousState = p.currentState ∧
      (p.transitionTo .sounding).1.sweepRest = p.sweepRest ∧
      hops (p.transitionTo .sounding).1.out = hops p.out := by
  obtain ⟨hr, hh⟩ := transitionTo_radio hp
  have hc := transitionTo_control p .sounding
  rw [Control.goTo_of_ne hp] at hc
  refine ⟨congrArg Control.previous hc, ?_, hh.trans (List.append_nil _)⟩
  have h1 : (p.transitionTo .sounding).1.snd.soundingSweepChs = p.snd.soundingSweepChs :=
    congrArg Radio.sweepChs hr
  have h2 : (p.transitionTo .sounding).1.snd.soundingSweepIdx = p.snd.soundingSweepIdx :=
    congrArg Radio.sweepIdx hr
  unfold sweepRest
  rw [transitionTo_sweepActive, h1, h2]

theorem soundingRequest_eq {p : SM} (h : p.currentState.Available) :
    (p.processEvent .soundingRequest).1 = (p.transitionTo .sounding).1 := by
  unfold processEvent
  rcases h with h | h <;> rw [h]

/-- Elsewhere a sounding request is ignored. -/
theorem soundingRequest_state {p : SM} (h : ¬ p.currentState.Available)
    (hs : p.currentState ≠ .sounding) : (p.processEvent .soundingRequest).1.currentState ≠ .sounding := by
  unfold processEvent
  cases hc : p.currentState with
  | idle => exact absurd (Or.inl hc) h
  | scanning => exact absurd (Or.inr hc) h
  | sounding => exact absurd hc hs
  | error =>
    dsimp only
    rw [transitionTo_state]
    decide
  | _ =>
    dsimp only
    rw [hc]
    decide

/-! ## The conditions -/

/-- Sweep mode is on inside `SOUNDING` only, at a channel of its list. -/
def SweepClean (s : SM) : Prop :=
  s.snd.soundingSweepActive = true →
    s.currentState = .sounding ∧ s.snd.soundingSweepIdx < s.snd.soundingSweepChs.length

/-- An emergency stop or an error event hits a sweep. -/
def AbortsSweep (s : SM) (op : Op) : Prop :=
  s.currentState = .sounding ∧ s.snd.soundingSweepActive = true ∧
    (op = .emergencyManualControl ∨ op = .processEvent .errorOccurred)

/-- The tick at `now` is taken by a sounding in phase `p`. -/
def Sounds (s : SM) (now : UInt32) (p : SoundingPhase) : Prop :=
  s.currentState = .sounding ∧ now - s.currentTimeMs < 0x80000000 ∧ s.snd.soundingPhase = p

/-- A clear channel is left without a burst: the station has no callsign. -/
def SoundsMute (s : SM) : Op → Prop
  | .update now env => s.Sounds now .lbt ∧ s.lbtChannelBusy env = false ∧
      s.effectiveTwtMs ≤ now - s.snd.soundingLbtStartMs ∧ s.selfAddress = []
  | _ => False

/-- A tick after the limit of the sounding's phase. -/
def SoundsOverdue (s : SM) : Op → Prop
  | .update now _ =>
    s.Sounds now .lbt ∧ s.effectiveTwtMs ≤ now - s.snd.soundingLbtStartMs ∨
    s.Sounds now .transmitting ∧ s.tx.wordsPending = 0 ∨
    s.Sounds now .listening ∧ trwMs < now - s.snd.soundingListeningStartMs
  | _ => False

/-- The operation ends a cycle of the sounding. -/
def EndsCycle (s : SM) (op : Op) : Prop :=
  s.currentState = .sounding ∧ s.trigger op = .event .soundingComplete

instance (s : SM) (op : Op) : Decidable (s.EndsCycle op) := by unfold EndsCycle; infer_instance

/-- The cycle that the operation ends found its channel busy: by the carrier or by a word heard
before the burst. `SOUNDING_COMPLETE` from outside says so itself. -/
def FoundBusy (s : SM) (op : Op) : Prop :=
  s.snd.soundingPhase = .lbt ∧
    ∀ now env, op = .update now env → s.lbtChannelBusy env = true

end SM

/-- The machine with a log of its soundings. -/
structure Sweeper where
  sm : SM
  /-- The channel last passed to the channel-change callback. -/
  dial : Option Channel := none
  /-- The channels a requested sounding is to cover. -/
  plan : Option (List (Option Channel)) := none
  /-- The channels of the cycles completed. -/
  covered : List (Option Channel) := []
  /-- The bursts of the present cycle. -/
  bursts : Nat := 0

namespace Sweeper

open SM

/-- A machine as its constructor leaves it. -/
def init : Sweeper := { sm := SM.init }

/-- The channels a request asks to sound. -/
def requested (dial : Option Channel) : Op → Option (List (Option Channel))
  | .sendSounding | .processEvent .soundingRequest => some [dial]
  | .sendSoundingSweep chs => some (chs.map some)
  | _ => none

/-- The channel the radio is on after the callbacks `out`. -/
def tuned (dial : Option Channel) (out : List Output) : Option Channel :=
  (hops out).getLast?.or dial

/-- One operation and the log of it. -/
def step (x : Sweeper) (op : Op) : Sweeper :=
  let s := x.sm.step op
  let dial := tuned x.dial s.out
  if x.sm.currentState ≠ .sounding then
    if s.currentState = .sounding then { sm := s, dial := dial, plan := requested x.dial op }
    else { x with sm := s, dial := dial }
  else if x.sm.EndsCycle op then { x with sm := s, dial := dial, covered := x.covered ++ [x.dial], bursts := 0 }
  else { x with
    sm := s, dial := dial, bursts := x.bursts + if 0 < sends (signals s.out) then 1 else 0 }

/-- A cycle that ends has had one burst or has found its channel busy, and a requested sounding goes
on with its next channel or is over: the station is back, the override off and each channel has had
its cycle. -/
def Covers (x : Sweeper) (op : Op) : Prop :=
  x.sm.EndsCycle op →
    (x.bursts = 1 ∨ x.bursts = 0 ∧ x.sm.FoundBusy op) ∧
    ∀ plan, x.plan = some plan →
      (∃ rest, plan = (x.step op).covered ++ (x.step op).dial :: rest ∧
        (x.step op).sm.currentState = .sounding ∧ (x.step op).sm.snd.soundingPhase = .lbt) ∨
      plan = (x.step op).covered ∧ (x.step op).sm.currentState.Available ∧
        (x.step op).sm.channelManager.overrideActive = false

/-- No phase of a sounding outlasts its limit. -/
def Advances (x : Sweeper) (op : Op) : Prop :=
  x.sm.SoundsOverdue op →
    x.sm.EndsCycle op ∨ (x.step op).sm.snd.soundingPhase ≠ x.sm.snd.soundingPhase

/-- The log fits the machine. -/
structure Tracks (x : Sweeper) (plan : List (Option Channel)) : Prop where
  home : x.sm.previousState.Available
  cover : plan = x.covered ++ x.dial :: x.sm.sweepRest.map some

/-- **The invariant.** -/
structure Hygienic (x : Sweeper) : Prop where
  clean : x.sm.SweepClean
  outside : x.sm.control.Outside
  drain : x.sm.currentState = .sounding → x.sm.tx.txDrainStartMs = 0
  bursts : x.sm.currentState = .sounding →
    x.bursts = if x.sm.snd.soundingPhase = .lbt then 0 else 1
  tracks : x.sm.currentState = .sounding → ∀ plan, x.plan = some plan → x.Tracks plan

theorem available_ne {t : ALEState} (h : t.Available) : t ≠ .sounding := by
  rcases h with rfl | rfl <;> decide

theorem tuned_nil {dial : Option Channel} {out : List Output} (h : hops out = []) :
    tuned dial out = dial := by
  unfold tuned
  rw [h]
  rfl

theorem tuned_singleton {dial : Option Channel} {out : List Output} {ch : Channel}
    (h : hops out = [ch]) : tuned dial out = some ch := by
  unfold tuned
  rw [h]
  rfl

section Step

variable {x : Sweeper} {op : Op}

@[simp] theorem step_sm (x : Sweeper) (op : Op) : (x.step op).sm = x.sm.step op := by
  unfold step
  dsimp only
  repeat' split
  all_goals rfl

@[simp] theorem step_dial (x : Sweeper) (op : Op) :
    (x.step op).dial = tuned x.dial (x.sm.step op).out := by
  unfold step
  dsimp only
  repeat' split
  all_goals rfl

/-- The log at the entry to `SOUNDING`. -/
theorem step_enters (hc : x.sm.currentState ≠ .sounding)
    (ht : (x.sm.step op).currentState = .sounding) :
    x.step op =
      { sm := x.sm.step op
        dial := tuned x.dial (x.sm.step op).out
        plan := requested x.dial op } := by
  unfold step
  dsimp only
  rw [if_pos hc, if_pos ht]

/-- The log at the end of a cycle. -/
theorem step_ends (h : x.sm.EndsCycle op) :
    x.step op = { x with
      sm := x.sm.step op, dial := tuned x.dial (x.sm.step op).out,
      covered := x.covered ++ [x.dial], bursts := 0 } := by
  unfold step
  dsimp only
  rw [if_neg (not_not.mpr h.1), if_pos h]

/-- The log within a cycle. -/
theorem step_within (hc : x.sm.currentState = .sounding) (h : ¬ x.sm.EndsCycle op) :
    x.step op = { x with
      sm := x.sm.step op, dial := tuned x.dial (x.sm.step op).out,
      bursts := x.bursts + if 0 < sends (signals (x.sm.step op).out) then 1 else 0 } := by
  unfold step
  dsimp only
  rw [if_neg (not_not.mpr hc), if_neg h]

/-- A request tracks what it asks for. -/
theorem tracks_enters (h : x.Hygienic) (hc : x.sm.currentState ≠ .sounding)
    (ht : (x.sm.step op).currentState = .sounding) {plan : List (Option Channel)}
    (hp : requested x.dial op = some plan) : (x.step op).Tracks plan := by
  have hact : x.sm.snd.soundingSweepActive = false := by
    cases ha : x.sm.snd.soundingSweepActive with
    | false => rfl
    | true => exact absurd (h.clean ha).1 hc
  have hrest : x.sm.clearOut.sweepRest = [] := by
    unfold sweepRest
    rw [show x.sm.clearOut.snd.soundingSweepActive = false from hact]
    rfl
  -- a request without a sweep: one cycle on the channel the radio is on
  have hplain : x.sm.step op = (x.sm.clearOut.processEvent .soundingRequest).1 →
      plan = [x.dial] → (x.step op).Tracks plan := by
    intro he hplan
    have hav : x.sm.currentState.Available := by
      by_contra hn
      refine soundingRequest_state (p := x.sm.clearOut) hn hc ?_
      rw [← he]
      exact ht
    obtain ⟨h1, h2, h3⟩ := transitionTo_sounding (p := x.sm.clearOut) hc
    rw [soundingRequest_eq (p := x.sm.clearOut) hav] at he
    refine ⟨?_, ?_⟩
    · rw [step_sm, he, h1]
      exact hav
    · rw [step_enters hc ht, he, h2, hrest, tuned_nil h3, hplan]
      rfl
  cases op with
  | processEvent e =>
    cases e with
    | soundingRequest => exact hplain rfl (Option.some.inj hp).symm
    | _ => exact absurd hp (by simp [requested])
  | sendSounding =>
    by_cases hav : x.sm.clearOut.available = true
    · refine hplain ?_ (Option.some.inj hp).symm
      show x.sm.clearOut.sendSounding.1 = _
      unfold sendSounding
      rw [if_neg (not_not.mpr hav)]
    · have he : x.sm.step .sendSounding = x.sm.clearOut := by
        show x.sm.clearOut.sendSounding.1 = _
        unfold sendSounding
        rw [if_pos hav]
      rw [he] at ht
      exact absurd ht hc
  | sendSoundingSweep chs =>
    have he : x.sm.step (.sendSoundingSweep chs) = (x.sm.clearOut.sendSoundingSweep chs).1 := rfl
    unfold sendSoundingSweep at he
    by_cases hav : x.sm.clearOut.available = true
    · rw [if_neg (not_not.mpr hav)] at he
      by_cases hb : x.sm.clearOut.allcallBroadcasting = true
      · rw [if_pos hb] at he
        rw [he] at ht
        exact absurd ht hc
      rw [if_neg hb] at he
      cases chs with
      | nil =>
        rw [he] at ht
        exact absurd ht hc
      | cons ch chs =>
        have hav' : x.sm.currentState.Available := (available_iff _).mp hav
        obtain ⟨h1, h2, h3⟩ :=
          transitionTo_sounding (p := x.sm.clearOut.armSweep (ch :: chs) ch) hc
        dsimp only at he
        rw [soundingRequest_eq (p := x.sm.clearOut.armSweep (ch :: chs) ch) hav'] at he
        refine ⟨?_, ?_⟩
        · rw [step_sm, he, h1]
          exact hav'
        · rw [step_enters hc ht, he, h2, tuned_singleton (h3.trans rfl)]
          exact (Option.some.inj hp).symm
    · rw [if_pos hav] at he
      rw [he] at ht
      exact absurd ht hc
  | _ => exact absurd hp (by simp [requested])

/-! ### Outside `SOUNDING` -/

/-- Sweep mode is entered with `SOUNDING`. -/
theorem clean_outside (h : x.sm.SweepClean) (hc : x.sm.currentState ≠ .sounding) :
    (x.sm.step op).SweepClean := by
  have hact : x.sm.clearOut.snd.soundingSweepActive = false := by
    cases ha : x.sm.clearOut.snd.soundingSweepActive with
    | false => rfl
    | true => exact absurd (h ha).1 hc
  by_cases hop : ∃ chs, op = .sendSoundingSweep chs
  · obtain ⟨chs, rfl⟩ := hop
    have he : x.sm.step (.sendSoundingSweep chs) = (x.sm.clearOut.sendSoundingSweep chs).1 := rfl
    unfold sendSoundingSweep at he
    by_cases hav : x.sm.clearOut.available = true
    · rw [if_neg (not_not.mpr hav)] at he
      split at he
      · rw [he]
        exact h
      cases chs with
      | nil =>
        rw [he]
        exact h
      | cons ch chs =>
        have hav' : x.sm.currentState.Available := (available_iff _).mp hav
        dsimp only at he
        rw [soundingRequest_eq (p := x.sm.clearOut.armSweep (ch :: chs) ch) hav'] at he
        have hr := (transitionTo_radio (s := x.sm.clearOut.armSweep (ch :: chs) ch)
          (t := .sounding) hc).1
        rw [he]
        intro _
        refine ⟨transitionTo_state _ _, ?_⟩
        have h1 : ((x.sm.clearOut.armSweep (ch :: chs) ch).transitionTo
            .sounding).1.snd.soundingSweepChs = ch :: chs := congrArg Radio.sweepChs hr
        have h2 : ((x.sm.clearOut.armSweep (ch :: chs) ch).transitionTo
            .sounding).1.snd.soundingSweepIdx = 0 := congrArg Radio.sweepIdx hr
        rw [h1, h2]
        exact Nat.succ_pos _
    · rw [if_pos hav] at he
      rw [he]
      exact h
  · intro ha
    rw [show (x.sm.step op).snd.soundingSweepActive = false from
      (exec_sweepActive (s := x.sm.clearOut) hc (fun chs e => hop ⟨chs, e⟩)).trans hact] at ha
    exact absurd ha Bool.false_ne_true

/-- The invariant outside `SOUNDING`. -/
theorem hygienic_outside (h : x.Hygienic) (hc : x.sm.currentState ≠ .sounding) :
    (x.step op).Hygienic := by
  have hb : (x.sm.step op).currentState = .sounding →
      (x.step op).bursts = if (x.sm.step op).snd.soundingPhase = .lbt then 0 else 1 := by
    intro ht
    rw [step_enters hc ht, (enters_sounding_lbt hc ht).1]
    rfl
  refine ⟨?_, ?_, ?_, ?_, ?_⟩
  · rw [step_sm]
    exact clean_outside h.clean hc
  · rw [step_sm]
    exact outside_step h.outside op
  · rw [step_sm]
    exact fun ht => (enters_sounding_lbt hc ht).2
  · rw [step_sm]
    exact hb
  · intro ht plan hp
    rw [step_sm] at ht
    rw [step_enters hc ht] at hp
    exact tracks_enters h hc ht hp

/-! ### In `SOUNDING` -/

/-- A step within a cycle that leaves sweep and channel alone. -/
theorem hygienic_within (h : x.Hygienic) (hc : x.sm.currentState = .sounding)
    (he : ¬ x.sm.EndsCycle op) {ph : SoundingPhase} {n : Nat}
    (hv : (x.sm.step op).soundView = { x.sm.clearOut.soundView with phase := ph, sends := n })
    (hb : (x.bursts + if 0 < n then 1 else 0) = if ph = .lbt then 0 else 1) :
    (x.step op).Hygienic := by
  have hctl : (x.sm.step op).control = x.sm.control := congrArg SoundView.control hv
  have hchs : (x.sm.step op).snd.soundingSweepChs = x.sm.snd.soundingSweepChs :=
    congrArg SoundView.chs hv
  have hidx : (x.sm.step op).snd.soundingSweepIdx = x.sm.snd.soundingSweepIdx :=
    congrArg SoundView.idx hv
  have hact : (x.sm.step op).snd.soundingSweepActive = x.sm.snd.soundingSweepActive :=
    congrArg SoundView.active hv
  have hphase : (x.sm.step op).snd.soundingPhase = ph := congrArg SoundView.phase hv
  have hdrain : (x.sm.step op).tx.txDrainStartMs = x.sm.tx.txDrainStartMs :=
    congrArg SoundView.drainStart hv
  have hhops : hops (x.sm.step op).out = [] := congrArg SoundView.hops hv
  have hsends : sends (signals (x.sm.step op).out) = n := congrArg SoundView.sends hv
  have hst : (x.sm.step op).currentState = .sounding := (congrArg Control.state hctl).trans hc
  have hrest : (x.sm.step op).sweepRest = x.sm.sweepRest := by
    unfold sweepRest
    rw [hact, hchs, hidx]
  rw [step_within hc he, tuned_nil hhops, hsends]
  refine ⟨?_, ?_, fun _ => hdrain.trans (h.drain hc), ?_, ?_⟩
  · intro ha
    rw [hchs, hidx]
    exact ⟨hst, (h.clean (hact.symm.trans ha)).2⟩
  · rw [hctl]
    exact h.outside
  · intro _
    rw [hphase]
    exact hb
  · intro _ plan hp
    have ht := h.tracks hc plan hp
    refine ⟨?_, ?_⟩
    · have hprev : (x.sm.step op).previousState = x.sm.previousState :=
        congrArg Control.previous hctl
      rw [hprev]
      exact ht.home
    · rw [hrest]
      exact ht.cover

/-- `SOUNDING` is left with sweep mode off. -/
theorem hygienic_leaves (h : x.Hygienic) (hst : (x.sm.step op).currentState ≠ .sounding)
    (hact : (x.sm.step op).snd.soundingSweepActive = false) : (x.step op).Hygienic := by
  have hst' : (x.step op).sm.currentState ≠ .sounding := by
    rw [step_sm]
    exact hst
  refine ⟨?_, ?_, fun hs => absurd hs hst', fun hs => absurd hs hst', fun hs => absurd hs hst'⟩
  · rw [step_sm]
    intro ha
    rw [hact] at ha
    exact absurd ha Bool.false_ne_true
  · rw [step_sm]
    exact outside_step h.outside op

/-- The fields of the sounding at the end of a cycle. -/
theorem complete_fields {s p : SM} {ph : SoundingPhase}
    (hv : { p.soundView with phase := ph } = s.clearOut.soundView) :
    p.control = s.control ∧ p.snd.soundingSweepChs = s.snd.soundingSweepChs ∧
      p.snd.soundingSweepIdx = s.snd.soundingSweepIdx ∧
      p.snd.soundingSweepActive = s.snd.soundingSweepActive ∧
      p.tx.txDrainStartMs = s.tx.txDrainStartMs ∧ hops p.out = [] ∧ p.sweepRest = s.sweepRest := by
  have h1 : p.snd.soundingSweepChs = s.snd.soundingSweepChs := congrArg SoundView.chs hv
  have h2 : p.snd.soundingSweepIdx = s.snd.soundingSweepIdx := congrArg SoundView.idx hv
  have h3 : p.snd.soundingSweepActive = s.snd.soundingSweepActive := congrArg SoundView.active hv
  refine ⟨congrArg SoundView.control hv, h1, h2, h3, congrArg SoundView.drainStart hv,
    congrArg SoundView.hops hv, ?_⟩
  unfold sweepRest
  rw [h1, h2, h3]

/-- **A cycle ends and the sweep goes on.** -/
theorem hygienic_next (h : x.Hygienic) (he : x.sm.EndsCycle op) {p : SM} {ph : SoundingPhase}
    (hv : { p.soundView with phase := ph } = x.sm.clearOut.soundView)
    (hs : x.sm.step op = p.soundingComplete.1) {ch : Channel}
    (hn : p.nextSweepChannel = some ch) :
    (x.step op).Hygienic ∧ ∀ plan, x.plan = some plan →
      ∃ rest, plan = (x.step op).covered ++ (x.step op).dial :: rest ∧
        (x.step op).sm.currentState = .sounding ∧ (x.step op).sm.snd.soundingPhase = .lbt := by
  obtain ⟨hctl, hchs, hidx, hact, hdrain, hh, hrest⟩ := complete_fields hv
  obtain ⟨hon, hlt, hcons⟩ := sweepRest_of_next hn
  have hv' := soundingComplete_next hn
  rw [← hs] at hv'
  have hctl' : (x.sm.step op).control = x.sm.control :=
    (congrArg SoundView.control hv').trans hctl
  have hchs' : (x.sm.step op).snd.soundingSweepChs = p.snd.soundingSweepChs :=
    congrArg SoundView.chs hv'
  have hidx' : (x.sm.step op).snd.soundingSweepIdx = p.snd.soundingSweepIdx + 1 :=
    congrArg SoundView.idx hv'
  have hact' : (x.sm.step op).snd.soundingSweepActive = true :=
    (congrArg SoundView.active hv').trans hon
  have hphase : (x.sm.step op).snd.soundingPhase = .lbt := congrArg SoundView.phase hv'
  have hdrain' : (x.sm.step op).tx.txDrainStartMs = x.sm.tx.txDrainStartMs :=
    (congrArg SoundView.drainStart hv').trans hdrain
  have hhops : hops (x.sm.step op).out = [ch] := by
    have h' : hops (x.sm.step op).out = hops p.out ++ [ch] := congrArg SoundView.hops hv'
    rw [h', hh]
    rfl
  have hst : (x.sm.step op).currentState = .sounding := (congrArg Control.state hctl').trans he.1
  have hrest' : (x.sm.step op).sweepRest =
      p.snd.soundingSweepChs.drop (p.snd.soundingSweepIdx + 1 + 1) := by
    unfold sweepRest
    rw [if_pos hact', hchs', hidx']
  have hcover : ∀ plan, x.plan = some plan → plan = (x.covered ++ [x.dial]) ++ some ch ::
      (x.sm.step op).sweepRest.map some := by
    intro plan hp
    rw [(h.tracks he.1 plan hp).cover, ← hrest, hcons, hrest', List.append_assoc]
    rfl
  rw [step_ends he, tuned_singleton hhops]
  refine ⟨⟨?_, ?_, fun _ => hdrain'.trans (h.drain he.1), ?_, ?_⟩, ?_⟩
  · intro _
    rw [hchs', hidx']
    exact ⟨hst, hlt⟩
  · rw [hctl']
    exact h.outside
  · intro _
    rw [hphase]
    rfl
  · intro _ plan hp
    refine ⟨?_, hcover plan hp⟩
    have hprev : (x.sm.step op).previousState = x.sm.previousState :=
      congrArg Control.previous hctl'
    rw [hprev]
    exact (h.tracks he.1 plan hp).home
  · intro plan hp
    exact ⟨_, hcover plan hp, hst, hphase⟩

/-- **The last cycle ends and the station goes back.** -/
theorem hygienic_last (h : x.Hygienic) (he : x.sm.EndsCycle op) {p : SM} {ph : SoundingPhase}
    (hv : { p.soundView with phase := ph } = x.sm.clearOut.soundView)
    (hs : x.sm.step op = p.soundingComplete.1) (hn : p.nextSweepChannel = none) :
    (x.step op).Hygienic ∧ ∀ plan, x.plan = some plan →
      plan = (x.step op).covered ∧ (x.step op).sm.currentState.Available ∧
        (x.step op).sm.channelManager.overrideActive = false := by
  obtain ⟨hctl, -, -, -, -, -, hrest⟩ := complete_fields hv
  obtain ⟨q, hq, hoff, hlast⟩ := soundingComplete_last hn
  have hprev : p.previousState = x.sm.previousState := congrArg Control.previous hctl
  have hqst : q.currentState = .sounding := by
    have hp : p.currentState = .sounding := (congrArg Control.state hctl).trans he.1
    rcases hq with rfl | rfl <;> exact hp
  rw [hlast, hprev] at hs
  have hne : x.sm.previousState ≠ .sounding := h.outside.sounding he.1
  refine ⟨hygienic_leaves h ?_ ?_, ?_⟩
  · rw [hs, transitionTo_state]
    exact hne
  · rw [hs, transitionTo_sweepActive]
    exact hoff
  · intro plan hp
    have ht := h.tracks he.1 plan hp
    refine ⟨?_, ?_, ?_⟩
    · have hnil : x.sm.sweepRest = [] := by
        rw [← hrest]
        exact List.head?_eq_none_iff.mp ((nextSweepChannel_eq p).symm.trans hn)
      rw [step_ends he, ht.cover, hnil]
      rfl
    · rw [step_sm, hs, transitionTo_state]
      exact ht.home
    · rw [step_sm, hs]
      have hr := (transitionTo_radio (s := q) (t := x.sm.previousState)
        (by rw [hqst]; exact Ne.symm hne)).1
      have hm := congrArg (ChannelManager.overrideActive ∘ Radio.manager) hr
      exact hm.trans (arrive_override ht.home _ _ _)

/-! ### The two conditions -/

/-- In `SOUNDING` a tick raises what its phase raises. -/
theorem trigger_update {s : SM} (hc : s.currentState = .sounding) (hd : s.tx.txDrainStartMs = 0)
    (now : UInt32) (env : Env) : s.trigger (.update now env) =
      if 0x80000000 ≤ now - s.currentTimeMs then .none
      else (s.clocked now).soundingTrigger env := by
  unfold trigger
  dsimp only
  rw [(tick_sounding (s := { s with currentTimeMs := now }) env hc hd).2]
  rfl

/-- A cycle that ends without a burst on a station with a callsign found its channel busy. -/
theorem foundBusy (h : x.Hygienic) (hm : ¬ x.sm.SoundsMute op) (he : x.sm.EndsCycle op)
    (hp : x.sm.snd.soundingPhase = .lbt) : x.sm.FoundBusy op := by
  refine ⟨hp, ?_⟩
  rintro now env rfl
  have ht := he.2
  rw [trigger_update he.1 (h.drain he.1)] at ht
  split at ht
  · exact absurd ht (none_ne _)
  rename_i hb
  cases hbusy : x.sm.lbtChannelBusy env with
  | true => rfl
  | false =>
    exfalso
    have hph : (x.sm.clocked now).snd.soundingPhase = .lbt := hp
    have hbz : (x.sm.clocked now).lbtChannelBusy env = false := hbusy
    unfold soundingTrigger at ht
    rw [hph, hbz] at ht
    dsimp only at ht
    rw [if_neg Bool.false_ne_true] at ht
    unfold raiseIf at ht
    split at ht
    · rename_i hq
      exact hm ⟨⟨he.1, by rwa [← UInt32.not_le], hp⟩, hbusy, hq.1, hq.2⟩
    · exact absurd ht (none_ne _)

/-- A station without a callsign leaves a clear channel mute. -/
theorem not_covers_of_mute (h : x.Hygienic) (hm : x.sm.SoundsMute op) : ¬ x.Covers op := by
  intro hcov
  cases op with
  | update now env =>
    obtain ⟨⟨hc, hnow, hp⟩, hbusy, htwt, hself⟩ := hm
    have he : x.sm.EndsCycle (.update now env) := by
      refine ⟨hc, ?_⟩
      rw [trigger_update hc (h.drain hc), if_neg (UInt32.not_le.mpr hnow)]
      have hph : (x.sm.clocked now).snd.soundingPhase = .lbt := hp
      have hbz : (x.sm.clocked now).lbtChannelBusy env = false := hbusy
      unfold soundingTrigger
      rw [hph, hbz]
      dsimp only
      rw [if_neg Bool.false_ne_true]
      exact raiseIf_pos ⟨htwt, hself⟩ _
    have hb := h.bursts hc
    rw [hp, if_pos rfl] at hb
    rcases (hcov he).1 with h1 | ⟨-, -, h2⟩
    · rw [hb] at h1
      exact absurd h1 (by decide)
    · have := h2 now env rfl
      rw [hbusy] at this
      exact absurd this Bool.false_ne_true
  | _ => exact hm

/-- An aborted sweep stays in sweep mode. -/
theorem not_clean_of_aborts (h : x.Hygienic) (ha : x.sm.AbortsSweep op) :
    ¬ (x.sm.step op).SweepClean := by
  obtain ⟨hc, hon, hop⟩ := ha
  have hst : (x.sm.step op).currentState ≠ .sounding := by
    have hctl := congrArg Control.state (step_control x.sm op)
    have hs : x.sm.control.state = .sounding := hc
    intro hn
    have hn' : (x.sm.step op).control.state = .sounding := hn
    rw [hctl] at hn'
    rcases hop with rfl | rfl
    · simp [trigger, Control.fire] at hn'
    · simp [trigger, Control.fire, Control.event, hs] at hn'
  intro hcl
  refine hst (hcl ?_).1
  have hsame : ∀ v : SoundView, (x.sm.step op).soundView = v → v.control = x.sm.control → False := by
    intro v hv hctl
    refine hst ?_
    have h1 : (x.sm.step op).control = x.sm.control := (congrArg SoundView.control hv).trans hctl
    exact (congrArg Control.state h1).trans hc
  have hg : x.sm.trigger op ≠ .event .soundingComplete ∧
      x.sm.trigger op ≠ .event .callDetected := by
    rcases hop with rfl | rfl <;> exact ⟨by simp [trigger], by simp [trigger]⟩
  cases step_sounds hc (h.drain hc) op with
  | stay hv _ => exact (hsame _ hv rfl).elim
  | sounds n _ _ hv _ => exact (hsame _ hv rfl).elim
  | window _ hv _ => exact (hsame _ hv rfl).elim
  | completes _ _ _ hgc => exact absurd hgc hg.1
  | calls _ _ _ hgc => exact absurd hgc hg.2
  | aborts p hv t hne hs _ =>
    rw [hs, transitionTo_sweepActive]
    exact (congrArg SoundView.active hv).trans hon

/-- **The invariant is kept in `SOUNDING`, and each cycle is one of the plan's.** -/
theorem hygienic_sounding (h : x.Hygienic) (hc : x.sm.currentState = .sounding)
    (ha : ¬ x.sm.AbortsSweep op) (hm : ¬ x.sm.SoundsMute op) :
    (x.step op).Hygienic ∧ x.Covers op := by
  have hquiet : x.sm.trigger op ≠ .event .soundingComplete → ¬ x.sm.EndsCycle op :=
    fun hg he => hg he.2
  have hb := h.bursts hc
  cases step_sounds hc (h.drain hc) op with
  | stay hv hg =>
    refine ⟨hygienic_within h hc (hquiet hg) (n := 0) hv ?_, fun he => absurd he (hquiet hg)⟩
    exact hb
  | sounds n hn hp hv hg =>
    have hp' : x.sm.snd.soundingPhase = .lbt := hp
    rw [hp', if_pos rfl] at hb
    have hv' : (x.sm.step op).soundView =
        { x.sm.clearOut.soundView with phase := .transmitting, sends := n } :=
      hv.trans (congrArg (SoundView.mk _ _ _ _ _ _ _) (Nat.zero_add n))
    refine ⟨hygienic_within h hc (hquiet hg) hv' ?_, fun he => absurd he (hquiet hg)⟩
    rw [hb, if_pos hn]
    rfl
  | window hp hv hg =>
    have hp' : x.sm.snd.soundingPhase = .transmitting := hp
    rw [hp', if_neg (by decide)] at hb
    refine ⟨hygienic_within h hc (hquiet hg) (n := 0) hv ?_, fun he => absurd he (hquiet hg)⟩
    rw [hb]
    rfl
  | completes p hv hs hg =>
    have he : x.sm.EndsCycle op := ⟨hc, hg⟩
    have hburst : x.bursts = 1 ∨ x.bursts = 0 ∧ x.sm.FoundBusy op := by
      by_cases hp : x.sm.snd.soundingPhase = .lbt
      · rw [if_pos hp] at hb
        exact Or.inr ⟨hb, foundBusy h hm he hp⟩
      · rw [if_neg hp] at hb
        exact Or.inl hb
    cases hn : p.nextSweepChannel with
    | some ch =>
      obtain ⟨h1, h2⟩ := hygienic_next h he hv hs hn
      exact ⟨h1, fun _ => ⟨hburst, fun plan hp => Or.inl (h2 plan hp)⟩⟩
    | none =>
      obtain ⟨h1, h2⟩ := hygienic_last h he hv hs hn
      exact ⟨h1, fun _ => ⟨hburst, fun plan hp => Or.inr (h2 plan hp)⟩⟩
  | calls p hv hs hg =>
    have hn : ¬ x.sm.EndsCycle op := by
      intro he
      rw [he.2] at hg
      exact absurd hg (by decide)
    refine ⟨hygienic_leaves h ?_ ?_, fun he => absurd he hn⟩
    · rw [hs, transitionTo_state]
      decide
    · rw [hs, transitionTo_sweepActive]
      rfl
  | aborts p hv t hne hs hg =>
    have hn : ¬ x.sm.EndsCycle op := by
      intro he
      rw [he.2] at hg
      simp at hg
    refine ⟨hygienic_leaves h ?_ ?_, fun he => absurd he hn⟩
    · rw [hs, transitionTo_state]
      exact hne
    · rw [hs, transitionTo_sweepActive]
      have hact : p.snd.soundingSweepActive = x.sm.snd.soundingSweepActive :=
        congrArg SoundView.active hv
      rw [hact]
      cases hon : x.sm.snd.soundingSweepActive with
      | false => rfl
      | true => exact absurd ⟨hc, hon, trigger_aborts hc hg⟩ ha

/-- A tick taken in `SOUNDING` runs `handle_sounding`. -/
theorem step_update {s : SM} {now : UInt32} (hc : s.currentState = .sounding)
    (hd : s.tx.txDrainStartMs = 0) (hnow : now - s.currentTimeMs < 0x80000000) (env : Env) :
    s.step (.update now env) = (s.clearOut.clocked now).handleSounding env := by
  have hn : ¬ 0x80000000 ≤ now - s.clearOut.currentTimeMs := UInt32.not_le.mpr hnow
  show s.clearOut.update now env = _
  unfold update
  rw [if_neg hn]
  exact (tick_sounding (s := s.clearOut.clocked now) env hc hd).1

/-- **No phase outlasts its limit.** -/
theorem advances (h : x.Hygienic) (op : Op) : x.Advances op := by
  intro ho
  cases op with
  | update now env =>
    rw [step_sm]
    rcases ho with ⟨⟨hc, hnow, hp⟩, hw⟩ | ⟨⟨hc, hnow, hp⟩, hw⟩ | ⟨⟨hc, hnow, hp⟩, hw⟩
    all_goals
      have hstep := step_update hc (h.drain hc) hnow env
      have htrig := trigger_update hc (h.drain hc) now env
      rw [if_neg (UInt32.not_le.mpr hnow)] at htrig
    · have hph : (x.sm.clocked now).snd.soundingPhase = .lbt := hp
      by_cases hbusy : x.sm.lbtChannelBusy env = true
      · left
        refine ⟨hc, htrig.trans ?_⟩
        unfold soundingTrigger
        rw [hph]
        exact if_pos hbusy
      by_cases hself : x.sm.selfAddress = []
      · left
        refine ⟨hc, htrig.trans ?_⟩
        unfold soundingTrigger
        rw [hph]
        exact (if_neg hbusy).trans (raiseIf_pos ⟨hw, hself⟩ _)
      · right
        have hh : (x.sm.clearOut.clocked now).handleSounding env =
            (x.sm.clearOut.clocked now).startSounding := by
          unfold handleSounding handleSoundingLbt
          rw [if_pos (by exact hp), if_neg (by exact hbusy), if_pos (by exact hw)]
        have hv : (x.sm.clearOut.clocked now).startSounding.snd.soundingPhase = .transmitting :=
          congrArg SoundView.phase (startSounding_view (s := x.sm.clearOut.clocked now) hself)
        rw [hstep, hh, hp, hv]
        decide
    · right
      rw [hstep, handleSounding_drained (s := x.sm.clearOut.clocked now) env hp hw, hp]
      exact fun hn => SoundingPhase.noConfusion hn
    · left
      refine ⟨hc, htrig.trans ?_⟩
      have hph : (x.sm.clocked now).snd.soundingPhase = .listening := hp
      unfold soundingTrigger
      rw [hph]
      exact raiseIf_pos hw _
  | _ => exact absurd ho not_false

/-! ### Runs -/

theorem hygienic_init : init.Hygienic where
  clean := fun h => absurd h (by decide)
  outside := outside_init
  drain := fun h => absurd h (by decide)
  bursts := fun h => absurd h (by decide)
  tracks := fun h => absurd h (by decide)

theorem hygienic_step (h : x.Hygienic) (ha : ¬ x.sm.AbortsSweep op) (hm : ¬ x.sm.SoundsMute op) :
    (x.step op).Hygienic := by
  by_cases hc : x.sm.currentState = .sounding
  · exact (hygienic_sounding h hc ha hm).1
  · exact hygienic_outside h hc

theorem covers (h : x.Hygienic) (ha : ¬ x.sm.AbortsSweep op) (hm : ¬ x.sm.SoundsMute op) :
    x.Covers op := by
  intro he
  exact (hygienic_sounding h he.1 ha hm).2 he

end Step

/-- **Sweep mode never leaks out of `SOUNDING`, and each requested sounding covers its channels once
and in order before the station goes back with the override off, exactly in the runs in which no
emergency stop and no error hits a sweep and no clear channel is left mute for want of a
callsign.** -/
theorem sweep_clean_iff (as : List Op) :
    Machine.AllStates step (fun x => x.sm.SweepClean) init as ∧
      Machine.AllSteps step (fun x op => x.Covers op ∧ x.Advances op) init as ↔
    Machine.AllSteps step (fun x op => ¬ x.sm.AbortsSweep op ∧ ¬ x.sm.SoundsMute op) init as := by
  refine Machine.allStates_and_allSteps_iff ?_ ?_ ?_ ?_ hygienic_init
  · intro x op h hp
    exact hygienic_step h hp.1 hp.2
  · intro x h
    exact h.clean
  · intro x op h hp
    exact ⟨covers h hp.1 hp.2, advances h op⟩
  · intro x op h hp hcl hcov
    rw [not_and_or, not_not, not_not] at hp
    rcases hp with ha | hm
    · refine not_clean_of_aborts h ha ?_
      rw [← step_sm]
      exact hcl
    · exact not_covers_of_mute h hm hcov.1

/-- A sweep over two channels and the emergency stop. -/
def abortedSweep : List Op :=
  [.sendSoundingSweep [{ id := ['A'] }, { id := ['B'] }], .emergencyManualControl]

/-- **An emergency stop leaves sweep mode on.** -/
theorem sweep_clean_fail : ¬ ∀ as : List Op,
    Machine.AllStates step (fun x => x.sm.SweepClean) init as ∧
      Machine.AllSteps step (fun x op => x.Covers op ∧ x.Advances op) init as := by
  intro h
  have hend := (h abortedSweep).1.last
  have hidle : (Machine.run step init abortedSweep).sm.currentState = .idle := by decide +kernel
  have hon : (Machine.run step init abortedSweep).sm.snd.soundingSweepActive = true := by
    decide +kernel
  have hs := (hend hon).1
  rw [hidle] at hs
  exact absurd hs (by decide)

/-- The next plain sounding then goes on with the old sweep. -/
example : (Machine.run step init (abortedSweep ++ [.sendSounding,
    .processEvent .soundingComplete])).sm.snd.soundingSweepIdx = 1 := by decide +kernel

end Sweeper

end OpenALE
