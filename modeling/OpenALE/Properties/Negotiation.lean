import OpenALE.App.FreqSelect

/-!
# Frequency selection comes to rest with its link

`FreqSelectManager` is told of neither the start nor the end of a link. Meant is that its phase
`EXECUTING` does not outlast the link that agreed, that a link starts with the manager at rest, and
that an evaluation whose conditions hold proposes.

Results:
* `rests_iff`: so it is along a run exactly when no link ends in which a proposal was accepted, no
  link starts before what the last one left behind is cleared, and no evaluation finds a better
  channel while its link is being signed off.
* `rests_fail`: an accepted proposal leaves the manager executing for good.
-/

namespace OpenALE

/-- A station with what its last link left in the manager. -/
structure Negotiation where
  station : EfsStation := {}
  leftover : Leftover := {}

namespace Negotiation

open EfsStation

variable {n : Negotiation} {d : Drive}

/-- One operation. What a link leaves behind is noted as it ends. -/
def step (n : Negotiation) (d : Drive) : Negotiation :=
  { station := n.station.exec d
    leftover :=
      if (n.station.exec d).Linked then {}
      else if n.station.Linked then (n.station.exec d).efs.leftover
      else n.leftover.clear n.station d }

/-- The link starts. -/
def Starts (n : Negotiation) (d : Drive) : Prop :=
  ¬ n.station.Linked ∧ (n.station.exec d).Linked

/-- The link ends. -/
def Ends (n : Negotiation) (d : Drive) : Prop :=
  n.station.Linked ∧ ¬ (n.station.exec d).Linked

/-- The tick finds `freqHz` better than the link's channel. -/
def Finds (s : EfsStation) (freqHz : Nat) : Drive → Prop
  | .negotiate berSettleMs ranked =>
    s.Renegotiates ∧ s.ctl.config.enhancedFreqSelect = true ∧
      s.wants berSettleMs ranked = some freqHz
  | _ => False

/-- The proposal of `freqHz` waits for its turn on the link. -/
structure Proposes (s : EfsStation) (freqHz : Nat) : Prop where
  isOpen : s.ctl.sm.orderwireOpen = true
  pending : s.ctl.sm.ow.orderwirePending = true
  words : s.ctl.sm.ow.pendingOrderwireWords = buildFreqSelectSequence freqHz

/-! ## The property -/

/-- `EXECUTING` does not outlast its link. -/
def Over (n : Negotiation) : Prop := n.station.efs.phase = .executing → n.station.Linked

/-- A link starts with the manager at rest, and an evaluation that finds a better channel proposes
it. -/
structure Serves (n : Negotiation) (d : Drive) : Prop where
  fresh : n.Starts d → (n.station.exec d).efs.phase = .idle ∧
    (n.station.exec d).efs.pendingCmdRx = false
  proposes : ∀ freqHz, Finds n.station freqHz d → Proposes (n.station.exec d) freqHz

/-- The step does none of the three things that keep the manager from rest. -/
structure Settles (n : Negotiation) (d : Drive) : Prop where
  /-- No link ends in which a proposal of this station was accepted. -/
  agreed : n.Ends d → ¬ (n.station.efs.phase = .executing ∨ n.station.Agrees d)
  /-- No link starts on what the last one left behind. -/
  cleared : n.Starts d → n.leftover.clear n.station d = {}
  /-- No evaluation finds a better channel while the link is being signed off. -/
  inTime : ∀ freqHz, Finds n.station freqHz d → n.station.ctl.sm.link.linkedTerminating = false

/-! ## One step -/

/-- The note is what the manager holds of a link that is over. -/
structure Inv (n : Negotiation) : Prop where
  ended : n.Over
  linked : n.station.Linked → n.leftover = {}
  outside : ¬ n.station.Linked → n.leftover = n.station.efs.leftover

theorem leftover_eq_empty {m : FreqSelectManager} (hm : m.phase ≠ .executing) :
    m.leftover = {} ↔ m.phase = .idle ∧ m.pendingCmdRx = false := by
  unfold FreqSelectManager.leftover
  cases hp : m.phase with
  | idle => simp
  | proposed => simp
  | executing => exact absurd hp hm

theorem finds_exec {freqHz : Nat} (h : Finds n.station freqHz d) :
    (n.station.exec d).ctl = n.station.ctl.sendFreqSelect freqHz := by
  cases d with
  | negotiate t ranked =>
    obtain ⟨hr, hc, hw⟩ := h
    unfold exec negotiate
    dsimp only
    rw [if_pos hr, if_pos hc]
    unfold evaluate
    rw [hw]
  | sm op => exact h.elim
  | edit c => exact h.elim
  | callAgain o => exact h.elim
  | receive w ranked => exact h.elim

theorem finds_linked {freqHz : Nat} (h : Finds n.station freqHz d) : n.station.Linked := by
  cases d with
  | negotiate t ranked => exact h.1.2.2.1
  | sm op => exact h.elim
  | edit c => exact h.elim
  | callAgain o => exact h.elim
  | receive w ranked => exact h.elim

theorem orderwireOpen_iff {s : SM} (hc : s.currentState = .linked) :
    s.orderwireOpen = true ↔ s.link.linkedTerminating = false := by
  unfold SM.orderwireOpen
  simp [hc]

/-- A proposal is put on the link unless the link is being signed off. -/
theorem proposes_iff {freqHz : Nat} (h : Finds n.station freqHz d) :
    Proposes (n.station.exec d) freqHz ↔ n.station.ctl.sm.link.linkedTerminating = false := by
  have hl := finds_linked h
  have hopen := orderwireOpen_iff hl
  have hsm := congrArg Controller.sm (finds_exec h)
  unfold Controller.sendFreqSelect SM.triggerLinkedOrderwire at hsm
  dsimp only at hsm
  constructor
  · intro hp
    by_contra ht
    rw [if_pos fun ho => ht (hopen.mp ho)] at hsm
    exact ht (hopen.mp (hsm ▸ hp.isOpen))
  · intro ht
    rw [if_neg (not_not.mpr (hopen.mpr ht))] at hsm
    constructor
    · rw [hsm]
      exact hopen.mpr ht
    · rw [hsm]
      rfl
    · rw [hsm]
      rfl

/-- Outside a link a step does not make the manager execute. -/
theorem not_executing (h : n.Inv) (hl : ¬ n.station.Linked) :
    (n.station.exec d).efs.phase ≠ .executing := by
  intro he
  obtain he | he := (executing_exec d).mp he
  · exact hl (h.ended he)
  · cases d with
    | receive w ranked => exact hl he.2.1
    | sm op => exact he
    | edit c => exact he
    | negotiate t ranked => exact he
    | callAgain o => exact he

theorem inv_init : Inv {} := by
  constructor
  · intro h
    exact absurd h (by decide)
  · intro _
    rfl
  · intro _
    rfl

/-- The phase outlasts its link exactly when a link ends in which a proposal was accepted. -/
theorem over_step (h : n.Inv) :
    (n.step d).Over ↔ (n.Ends d → ¬ (n.station.efs.phase = .executing ∨ n.station.Agrees d)) := by
  unfold Over step Ends
  dsimp only
  constructor
  · rintro ho ⟨-, hend⟩ hx
    exact hend (ho ((executing_exec d).mpr hx))
  · intro hs hx
    by_contra hend
    have hl : n.station.Linked := by
      by_contra hl
      exact not_executing h hl hx
    exact hs ⟨hl, hend⟩ ((executing_exec d).mp hx)

/-- A link starts with the manager at rest exactly when nothing is left of the last one. -/
theorem fresh_iff (h : n.Inv) (hs : n.Starts d) :
    ((n.station.exec d).efs.phase = .idle ∧ (n.station.exec d).efs.pendingCmdRx = false) ↔
      n.leftover.clear n.station d = {} := by
  rw [← leftover_eq_empty (not_executing h hs.1), leftover_exec hs.1, h.outside hs.1]

theorem serves_iff (h : n.Inv) : n.Serves d ↔
    (n.Starts d → n.leftover.clear n.station d = {}) ∧
      ∀ freqHz, Finds n.station freqHz d → n.station.ctl.sm.link.linkedTerminating = false := by
  constructor
  · intro hv
    refine ⟨fun hs => (fresh_iff h hs).mp (hv.fresh hs), ?_⟩
    intro freqHz hf
    exact (proposes_iff hf).mp (hv.proposes freqHz hf)
  · rintro ⟨hc, ht⟩
    refine ⟨fun hs => (fresh_iff h hs).mpr (hc hs), ?_⟩
    intro freqHz hf
    exact (proposes_iff hf).mpr (ht freqHz hf)

theorem inv_step (h : n.Inv) (hs : n.Settles d) : (n.step d).Inv := by
  refine ⟨(over_step h).mpr hs.agreed, ?_, ?_⟩
  · intro hl
    exact if_pos hl
  · intro hl
    have hl' : ¬ (n.station.exec d).Linked := hl
    unfold step
    dsimp only
    rw [if_neg hl']
    split
    · rfl
    · rename_i hn
      rw [h.outside hn, leftover_exec hn]

/-! ## Along a run -/

/-- **Frequency selection comes to rest with every link of a run in exactly the runs where no link
ends in which a proposal was accepted, no link starts on what the last one left behind, and no
evaluation finds a better channel in a link that is being signed off.** -/
theorem rests_iff (ds : List Drive) :
    Machine.AllStates step Over {} ds ∧ Machine.AllSteps step Serves {} ds ↔
      Machine.AllSteps step Settles {} ds := by
  refine Machine.allStates_and_allSteps_iff (fun _ _ h hs => inv_step h hs) (fun _ h => h.ended)
    (fun _ _ h hs => (serves_iff h).mpr ⟨hs.cleared, hs.inTime⟩) ?_ inv_init
  intro n d h hs ho hv
  obtain ⟨hc, ht⟩ := (serves_iff h).mp hv
  exact hs ⟨(over_step h).mp ho, hc, ht⟩

/-- `ABC` is called by `XYZ`, proposes 7100 kHz on the link, and `XYZ` accepts; `ABC` signs off. -/
def proposesAndLeaves : List Drive :=
  let self : Str := ['A', 'B', 'C']
  let peer : Str := ['X', 'Y', 'Z']
  [.sm (.set (.selfAddress self)), .sm (.set (.targetScanChannels 0)),
    .sm (.set (.addScanChannel { rxFrequencyHz := 3500000, txFrequencyHz := 3500000 })),
    .sm (.update 1 {}), .receive (encodeFirst self .to) [], .receive (encodeFirst peer .tis) [],
    .sm (.update 785 {}), .sm (.update 785 {}), .sm (.update 785 {}), .sm (.update 1569 {}),
    .sm .onWordComplete, .sm .onWordComplete, .sm .onWordComplete,
    .receive (encodeFirst self .to) [], .receive (encodeFirst peer .tis) [], .sm (.update 2354 {}),
    .edit { config := { enhancedFreqSelect := true }, nowMs := 5000 },
    .negotiate 1000 [⟨7100000, 20.0⟩, ⟨3500000, 10.0⟩]] ++
  (buildFreqSelectSequence 7100000).map (.receive · []) ++
  [.sm .onWordComplete, .sm .onWordComplete, .sm .onWordComplete]

/-- **An accepted proposal leaves the manager executing after its link.** -/
theorem rests_fail : ¬ ∀ ds : List Drive,
    Machine.AllStates step Over {} ds ∧ Machine.AllSteps step Serves {} ds := by
  intro h
  have hover := (h proposesAndLeaves).1.last
  have hexec : (Machine.run step {} proposesAndLeaves).station.efs.phase = .executing := by
    decide +kernel
  have hidle : ¬ (Machine.run step {} proposesAndLeaves).station.Linked := by
    decide +kernel
  exact hidle (hover hexec)

end Negotiation

end OpenALE
