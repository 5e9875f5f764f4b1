import OpenALE.Control.Retune

/-!
# The current channel and the channel the radio is on

A `Tuner` is the machine with the channel last passed to the channel-change callback and a note,
`astray`, of what put the two apart: a calling hop to a channel that `current()` does not name, an
override dropped over another channel, another scan list.

Results:
* `tuned_iff`: in `HANDSHAKE`, `CALLING`/`LISTENING` and `LINKED` the current channel is the one the
  radio is on, and so is the channel of each LQA sample, exactly in the runs that do not enter these
  states astray.
* `tuned_fail`: a call that hops off the scan channel files its samples under the scan channel.
-/

namespace OpenALE

/-- The frequencies of a channel. -/
def Channel.freqs (ch : Channel) : Nat × Nat := (ch.rxFrequencyHz, ch.txFrequencyHz)

namespace ChannelManager

/-- `current()` has the frequencies of `ch`. -/
def Names (m : ChannelManager) (ch : Channel) : Prop := m.current.map Channel.freqs = some ch.freqs

instance (m : ChannelManager) (ch : Channel) : Decidable (m.Names ch) := by
  unfold Names
  infer_instance

variable {m : ChannelManager} {ch : Channel} (now : UInt32)

/-- The last channel hopped to is the current one, and the override stays as it was. -/
structure Lands (m : ChannelManager) (r : ChannelManager × List Channel) : Prop where
  override : r.1.overrideActive = m.overrideActive
  names : ∀ ch, r.2.getLast? = some ch → r.1.Names ch

theorem lands_refl (m : ChannelManager) : m.Lands (m, []) :=
  ⟨rfl, fun _ h => absurd h (by simp)⟩

theorem names_setOverride (m : ChannelManager) (ch : Channel) : (m.setOverride ch).1.Names ch := rfl

theorem lands_apply (h : m.overrideActive = false) (i : Nat) : m.Lands (m.apply i now) := by
  unfold apply
  cases hi : m.scan.scanList[i]? with
  | none => exact lands_refl m
  | some c =>
    refine ⟨rfl, ?_⟩
    intro ch hl
    rw [← Option.some.inj hl]
    unfold Names current
    dsimp only
    rw [h, if_neg Bool.false_ne_true, List.getElem?_set_self (List.getElem?_eq_some_iff.mp hi).1]
    rfl

theorem lands_hopNext (h : m.overrideActive = false) : m.Lands (m.hopNext now) := by
  unfold hopNext
  split
  · exact lands_refl m
  · have hl := lands_apply now (m := m) h
      ((m.scan.channelIndex + 1) % m.scan.scanList.length)
    exact ⟨hl.override, fun ch hc => hl.names ch hc⟩

theorem lands_start (h : m.overrideActive = false) : m.Lands (m.start now) := by
  unfold start
  split
  · exact ⟨rfl, fun _ h => absurd h (by simp)⟩
  · split
    · have hl := lands_apply now (m := { m with scanStarted := true, lastHopMs := now }) h 0
      exact ⟨hl.override, hl.names⟩
    · exact lands_hopNext now h

end ChannelManager

namespace SM

/-- The states in which the current channel matters. -/
def Watched (s : SM) : Prop :=
  s.currentState = .handshake ∨ s.currentState = .linked ∨
    s.currentState = .calling ∧ s.calling.callingPhase = .listening

instance (s : SM) : Decidable s.Watched := by unfold Watched; infer_instance

end SM

/-- The machine with a log of the radio's channel. -/
structure Tuner where
  sm : SM
  /-- The channel last passed to the channel-change callback. -/
  dial : Option Channel := none
  /-- `current()` has other frequencies than the radio. -/
  astray : Bool := false

namespace Tuner

open SM

/-- A machine as its constructor leaves it. -/
def init : Tuner := { sm := SM.init }

/-- The log after a step to `s` that has not retuned the radio: another current channel decides
anew. -/
def drift (x : Tuner) (s : SM) : Bool :=
  if s.channelManager.current.map Channel.freqs = x.sm.channelManager.current.map Channel.freqs then
    x.astray
  else match x.dial with
    | some ch => !decide (s.channelManager.Names ch)
    | none => false

/-- One operation and the log of it. Of the hops only a call's can go astray. -/
def step (x : Tuner) (op : Op) : Tuner :=
  let s := x.sm.step op
  match (hops s.out).getLast? with
  | some ch =>
    { sm := s, dial := some ch
      astray := s.currentState == .calling && !decide (s.channelManager.Names ch) }
  | none => { sm := s, dial := x.dial, astray := x.drift s }

/-- A sample that `update_lqa` files names the frequency of `ch`. -/
def Files (s : SM) (ch : Channel) : Prop :=
  ∀ lq, s.updateLqa lq = s ∨ ∃ q : LqaSample,
    s.updateLqa lq = s.emit (.lqaSample q) ∧ q.frequencyHz = ch.rxFrequencyHz

/-- In a watched state the current channel has the frequencies of the radio's, and a sample filed
there names its frequency. -/
def Tuned (x : Tuner) : Prop :=
  x.sm.Watched → ∀ ch, x.dial = some ch → x.sm.channelManager.Names ch ∧ Files x.sm ch

/-- The step enters a watched state astray, or gives the machine another scan list in one that does
not name the radio's channel at its index. -/
def Lost (x : Tuner) (op : Op) : Prop :=
  ¬ x.sm.Watched ∧ (x.sm.step op).Watched ∧ x.astray = true ∨
  x.sm.Watched ∧ reconfigures op = true ∧
    ∃ ch, x.dial = some ch ∧ ¬ (x.sm.step op).channelManager.Names ch

/-- **The invariant.** -/
structure Sound (x : Tuner) : Prop where
  homing : x.sm.control.Homing
  override : x.sm.currentState = .idle ∨ x.sm.currentState = .scanning ∨
    x.sm.currentState = .calling → x.sm.channelManager.overrideActive = false
  astray : x.astray = true ↔ ∃ ch, x.dial = some ch ∧ ¬ x.sm.channelManager.Names ch
  tuned : x.Tuned

theorem files_of_names {s : SM} {ch : Channel} (h : s.channelManager.Names ch) : Files s ch := by
  intro lq
  unfold updateLqa
  split
  · right
    refine ⟨_, rfl, ?_⟩
    dsimp only
    unfold ChannelManager.Names at h
    obtain ⟨c, hc, hf⟩ := Option.map_eq_some_iff.mp h
    rw [hc]
    exact congrArg Prod.fst hf
  · exact Or.inl rfl

section Step

variable {x : Tuner} {op : Op}

@[simp] theorem step_sm (x : Tuner) (op : Op) : (x.step op).sm = x.sm.step op := by
  unfold step
  dsimp only
  split <;> rfl

theorem step_quiet (h : hops (x.sm.step op).out = []) :
    x.step op = { sm := x.sm.step op, dial := x.dial, astray := x.drift (x.sm.step op) } := by
  unfold step
  dsimp only
  rw [h]
  rfl

/-- Without a hop the note stays right. -/
theorem astray_quiet (hs : x.Sound) (h : hops (x.sm.step op).out = []) :
    (x.step op).astray = true ↔
      ∃ ch, (x.step op).dial = some ch ∧ ¬ (x.sm.step op).channelManager.Names ch := by
  rw [step_quiet h]
  dsimp only
  unfold drift
  split
  · rename_i hsame
    have hn : ∀ ch, (x.sm.step op).channelManager.Names ch ↔ x.sm.channelManager.Names ch := by
      intro ch
      unfold ChannelManager.Names
      rw [hsame]
    simp only [hn]
    exact hs.astray
  · cases x.dial with
    | none => simp
    | some ch => simp

/-- With a hop that lands, or that a call makes, it is set anew. -/
theorem astray_hop {ch : Channel} (h : (hops (x.sm.step op).out).getLast? = some ch)
    (hl : (x.sm.step op).currentState ≠ .calling → (x.sm.step op).channelManager.Names ch) :
    (x.step op).astray = true ↔
      ∃ ch, (x.step op).dial = some ch ∧ ¬ (x.sm.step op).channelManager.Names ch := by
  have he : x.step op =
      { sm := x.sm.step op
        dial := some ch
        astray := (x.sm.step op).currentState == .calling &&
          !decide ((x.sm.step op).channelManager.Names ch) } := by
    unfold step
    dsimp only
    rw [h]
  rw [he]
  by_cases hc : (x.sm.step op).currentState = .calling
  · simp [hc]
  · simp [hl hc]

/-- What a step does that the log relies on. -/
structure Steers (x : Tuner) (op : Op) : Prop where
  override : (x.sm.step op).currentState = .idle ∨ (x.sm.step op).currentState = .scanning ∨
    (x.sm.step op).currentState = .calling →
      (x.sm.step op).channelManager.overrideActive = false
  lands : ∀ ch, (hops (x.sm.step op).out).getLast? = some ch →
    (x.sm.step op).currentState ≠ .calling → (x.sm.step op).channelManager.Names ch
  quiet : (x.sm.step op).Watched → hops (x.sm.step op).out = [] ∧
    (reconfigures op = false → (x.sm.step op).channelManager = x.sm.channelManager)

theorem not_watched_of {s : SM} {t : ALEState} (hc : s.currentState = t)
    (ht : t = .idle ∨ t = .scanning ∨ t = .sounding ∨ t = .error) : ¬ s.Watched := by
  unfold Watched
  rw [hc]
  rcases ht with rfl | rfl | rfl | rfl <;> simp

/-- What the scan does lands. -/
theorem lands_scan {m : ChannelManager} {r : ChannelManager × List Channel} {now : UInt32}
    (ho : m.overrideActive = false)
    (h : r = (m, []) ∨ r = (m.anchorDwell now, []) ∨ r = m.hopNext now ∨
      r = (m.anchorDwell now).hopNext now) : m.Lands r := by
  rcases h with rfl | rfl | rfl | rfl
  · exact ChannelManager.lands_refl m
  · exact ⟨rfl, fun _ h => absurd h (by simp)⟩
  · exact ChannelManager.lands_hopNext now ho
  · have hl := ChannelManager.lands_hopNext now (m := m.anchorDwell now) ho
    exact ⟨hl.override, hl.names⟩

/-- So does an arrival, but for a call. -/
theorem lands_arrive {m : ChannelManager} {t : ALEState} {now : UInt32} {hop : Option Channel}
    (ht : t ≠ .calling) : ∀ ch, (arrive m t now hop).2.getLast? = some ch →
      (arrive m t now hop).1.Names ch := by
  cases t with
  | scanning => exact (ChannelManager.lands_start now (m := m.clearOverride) rfl).names
  | calling => exact absurd rfl ht
  | _ => exact fun _ h => absurd h (by simp [arrive])

theorem arrive_override_of {m : ChannelManager} {t : ALEState} {now : UInt32} {hop : Option Channel}
    (ht : t = .idle ∨ t = .scanning) : (arrive m t now hop).1.overrideActive = false := by
  rcases ht with rfl | rfl
  · rfl
  · exact (ChannelManager.lands_start now (m := m.clearOverride) rfl).override

/-- **Each step steers as the log expects.** -/
theorem steers (hs : x.Sound) (op : Op) : x.Steers op := by
  cases step_retunes hs.homing op with
  | stays hc hm hh =>
    refine ⟨?_, ?_, fun _ => ⟨hh, fun _ => hm⟩⟩
    · rw [hc, hm]
      exact hs.override
    · intro ch h
      rw [hh] at h
      exact absurd h (by simp)
  | moves t now hop hc hcall hr =>
    have hm : (x.sm.step op).channelManager = (arrive x.sm.channelManager t now hop).1 :=
      congrArg Prod.fst hr
    have hh : hops (x.sm.step op).out = (arrive x.sm.channelManager t now hop).2 :=
      congrArg Prod.snd hr
    refine ⟨?_, ?_, ?_⟩
    · rw [hc, hm]
      rintro (rfl | rfl | rfl)
      · exact arrive_override_of (Or.inl rfl)
      · exact arrive_override_of (Or.inr rfl)
      · refine hs.override ?_
        rcases (hcall rfl).1 with h | h
        · exact Or.inl h
        · exact Or.inr (Or.inl h)
    · rw [hc, hm, hh]
      exact fun ch h ht => lands_arrive ht ch h
    · intro hw
      have ht : t = .handshake ∨ t = .linked := by
        rcases hw with h | h | ⟨h, hp⟩
        · exact Or.inl (hc.symm.trans h)
        · exact Or.inr (hc.symm.trans h)
        · have hl := (hcall (hc.symm.trans h)).2
          rw [hl] at hp
          exact CallingPhase.noConfusion hp
      rw [hm, hh]
      rcases ht with rfl | rfl <;> exact ⟨rfl, fun _ => rfl⟩
  | pins ch hc hr =>
    have hm : (x.sm.step op).channelManager = (x.sm.channelManager.setOverride ch).1 :=
      congrArg Prod.fst hr
    have hh : hops (x.sm.step op).out = [ch] := congrArg Prod.snd hr
    refine ⟨?_, ?_, ?_⟩
    · rw [hc]
      rintro (h | h | h) <;> exact ALEState.noConfusion h
    · rw [hm, hh]
      intro ch' h _
      rw [← Option.some.inj h]
      exact ChannelManager.names_setOverride _ _
    · exact fun hw => absurd hw (not_watched_of hc (by simp))
  | scans now hst hc hr =>
    have hl := lands_scan (hs.override (Or.inr (Or.inl hst))) hr
    refine ⟨fun _ => hl.override.trans (hs.override (Or.inr (Or.inl hst))), ?_, ?_⟩
    · exact fun ch h _ => hl.names ch h
    · exact fun hw => absurd hw (not_watched_of hc (by simp))
  | retries ch hst hc hm hh hp =>
    refine ⟨?_, fun _ _ hne => absurd hc hne, ?_⟩
    · rw [hm]
      exact fun _ => hs.override (Or.inr (Or.inr hst))
    · rintro (h | h | ⟨-, h⟩)
      · rw [hc] at h
        exact ALEState.noConfusion h
      · rw [hc] at h
        exact ALEState.noConfusion h
      · rw [hp] at h
        exact CallingPhase.noConfusion h
  | configures hop hc hh ho =>
    refine ⟨?_, ?_, fun _ => ⟨hh, fun hn => ?_⟩⟩
    · rw [hc, ho]
      exact hs.override
    · intro ch h
      rw [hh] at h
      exact absurd h (by simp)
    · rw [hop] at hn
      exact Bool.noConfusion hn

/-- Another scan list leaves the state alone. -/
theorem watched_reconfigures (h : reconfigures op = true) :
    (x.sm.step op).Watched ↔ x.sm.Watched := by
  cases op with
  | set y => cases y <;> first | exact Iff.rfl | exact absurd h Bool.false_ne_true
  | _ => exact absurd h Bool.false_ne_true

/-- Into a watched state the radio's channel is carried over. -/
theorem dial_watched (hs : x.Sound) (hw : (x.sm.step op).Watched) : (x.step op).dial = x.dial := by
  rw [step_quiet ((steers hs op).quiet hw).1]

/-- A step that is not lost is tuned where it is watched. -/
theorem names_step (hs : x.Sound) (hl : ¬ x.Lost op) (hw : (x.sm.step op).Watched) {ch : Channel}
    (hd : x.dial = some ch) : (x.sm.step op).channelManager.Names ch := by
  have hq := (steers hs op).quiet hw
  cases hr : reconfigures op with
  | true =>
    by_contra hn
    exact hl (Or.inr ⟨(watched_reconfigures hr).mp hw, hr, ch, hd, hn⟩)
  | false =>
    rw [hq.2 hr]
    by_cases hx : x.sm.Watched
    · exact (hs.tuned hx ch hd).1
    · by_contra hn
      exact hl (Or.inl ⟨hx, hw, hs.astray.mpr ⟨ch, hd, hn⟩⟩)

theorem sound_step (hs : x.Sound) (hl : ¬ x.Lost op) : (x.step op).Sound := by
  have hst := steers hs op
  refine ⟨?_, ?_, ?_, ?_⟩
  · rw [step_sm]
    exact homing_step hs.homing op
  · rw [step_sm]
    exact hst.override
  · rw [step_sm]
    cases hh : (hops (x.sm.step op).out).getLast? with
    | none => exact astray_quiet hs (List.getLast?_eq_none_iff.mp hh)
    | some ch => exact astray_hop hh (hst.lands ch hh)
  · intro hw ch hd
    rw [step_sm] at hw ⊢
    rw [dial_watched hs hw] at hd
    have hn := names_step hs hl hw hd
    exact ⟨hn, files_of_names hn⟩

/-- A lost step is off the radio's channel at once. -/
theorem not_tuned_of_lost (hs : x.Sound) (hl : x.Lost op) : ¬ (x.step op).Tuned := by
  intro ht
  have hbad : ∀ ch, (x.sm.step op).Watched → x.dial = some ch →
      (x.sm.step op).channelManager.Names ch := by
    intro ch hw hd
    rw [← step_sm] at hw
    have h := (ht hw ch (by rw [step_sm] at hw; rw [dial_watched hs hw]; exact hd)).1
    rwa [step_sm] at h
  rcases hl with ⟨hx, hw, ha⟩ | ⟨hx, hr, ch, hd, hn⟩
  · obtain ⟨ch, hd, hn⟩ := hs.astray.mp ha
    have h := hbad ch hw hd
    have hr : reconfigures op = false := by
      by_contra h'
      exact hx ((watched_reconfigures (Bool.not_eq_false _ |>.mp h')).mp hw)
    rw [((steers hs op).quiet hw).2 hr] at h
    exact hn h
  · exact hn (hbad ch ((watched_reconfigures hr).mpr hx) hd)

end Step

theorem sound_init : init.Sound where
  homing := homing_init
  override := fun _ => rfl
  astray := by
    constructor
    · exact fun h => absurd h Bool.false_ne_true
    · rintro ⟨ch, h, -⟩
      exact absurd h (by simp [init])
  tuned := fun h => absurd h (by decide)

/-- **In `HANDSHAKE`, `CALLING`/`LISTENING` and `LINKED` the current channel is the one the radio is
on, exactly in the runs that do not enter these states astray.** -/
theorem tuned_iff (as : List Op) :
    Machine.AllStates step Tuned init as ↔ Machine.AllSteps step (fun x op => ¬ x.Lost op) init as :=
  Machine.allStates_iff_allSteps (fun _ _ => sound_step) (fun _ h => h.tuned)
    (fun _ _ h hl => not_tuned_of_lost h (not_not.mp hl)) sound_init

/-- A station that scans one channel calls on another. -/
def callOffScan : List Op :=
  [.set (.selfAddress ['S', 'A', 'M']), .set (.configureScan { scanList := [{ rxFrequencyHz := 3 }] }),
    .processEvent .startScan, .processEvent .stopScan,
    .set (.callingChannels [{ rxFrequencyHz := 5 }]), .set (.targetScanChannels 0),
    .initiateCall ['A', 'B', 'C'],
    .update 3000 {}, .update 6000 {}, .onWordComplete, .onWordComplete, .onWordComplete]

/-- **In `LISTENING` for the answer the current channel is still the scan channel.** -/
theorem tuned_fail : ¬ ∀ as : List Op, Machine.AllStates step Tuned init as := by
  intro h
  have hend := (h callOffScan).last
  have hw : (Machine.run step init callOffScan).sm.Watched := by decide +kernel
  have hd : (Machine.run step init callOffScan).dial = some { rxFrequencyHz := 5 } := by
    decide +kernel
  have hn : ¬ (Machine.run step init callOffScan).sm.channelManager.Names { rxFrequencyHz := 5 } := by
    decide +kernel
  exact hn (hend hw _ hd).1

end Tuner

end OpenALE
