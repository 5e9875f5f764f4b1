import OpenALE.Library.Machine
import OpenALE.Pal.HamlibRadio

/-!
# The commands of the radio

Each class of commands is carried out in the order of its requests, a flush comes after everything
requested before it, and `is_tune_settled` tells that no tune is outstanding.

Results:
* `commands_in_order`: what is carried out, in hand and waits, along every run.
* `flush_barrier`: what is carried out before a flush is kept.
* `settled_iff`: when the radio says that it is settled; `one_tune_in_flight`: what it is for.
-/

namespace OpenALE.Pal

open HamlibRadio

variable {g : Rig} {r r' : HamlibRadio} {cmd : RadioCommand} {a : Answers} {op : RadioOp}

/-! ## What a request and a command do to the queue -/

/-- What of the radio the queue is about. -/
structure QueueView where
  cmdQueue : List RadioCommand
  inHand : Option RadioCommand
  workerRunning : Bool
  tunesInFlight : Int

namespace HamlibRadio

def queueView (r : HamlibRadio) : QueueView :=
  ⟨r.cmdQueue, r.inHand, r.workerRunning, r.tunesInFlight⟩

/-- What a request puts into the queue. -/
def asQueued : RadioCommand → Option RadioCommand
  | .setChannel ch => some (.setChannel ch)
  | .setFrequency hz => if hz = 0 then none else some (.setFrequency hz)
  | .setMode mode => some (.setMode mode)
  | .setPower pct => some (.setPower (clampPct pct))
  | .setPtt on => some (.setPtt on)
  | .sync => some .sync
  | .flush number => some (.flush number)

/-- A tune counts for one. -/
def weight (cmd : RadioCommand) : Int := if cmd.isTune then 1 else 0

theorem weight_of_not (h : cmd.isTune = false) : weight cmd = 0 := by
  rw [weight, h, if_neg Bool.false_ne_true]

/-- The queue after a request, if the worker runs. -/
def queued (r : HamlibRadio) (cmd : RadioCommand) : List RadioCommand :=
  if r.workerRunning then Priority.enqueue RadioCommand.isUrgent cmd r.cmdQueue else r.cmdQueue

theorem view_request_none (h : asQueued cmd = none) : r.request cmd = r := by
  cases cmd with
  | setFrequency hz =>
    rw [asQueued] at h
    split_ifs at h with hz
    rw [request, setFrequency, if_pos hz]
  | _ => cases h

/-- **A request** puts its command into the queue. -/
theorem view_request (c : RadioCommand) (h : asQueued cmd = some c) :
    (r.request cmd).queueView =
      ⟨r.queued c, r.inHand, r.workerRunning, r.tunesInFlight + weight c⟩ := by
  have henqueue : ∀ (r : HamlibRadio) (c : RadioCommand), (r.enqueue c).queueView =
      ⟨r.queued c, r.inHand, r.workerRunning, r.tunesInFlight⟩ := by
    intro r c
    unfold enqueue queued
    split_ifs with hrun
    · rfl
    · rfl
  cases cmd with
  | setFrequency hz =>
    rw [asQueued] at h
    split_ifs at h with hz
    obtain rfl := Option.some.inj h
    rw [request, setFrequency, if_neg hz, henqueue]
    rfl
  | setPower pct =>
    obtain rfl := Option.some.inj h
    rw [request, setPower, henqueue, weight_of_not rfl, add_zero]
    rfl
  | setChannel ch =>
    obtain rfl := Option.some.inj h
    exact henqueue _ _
  | setMode mode =>
    obtain rfl := Option.some.inj h
    exact henqueue _ _
  | setPtt on =>
    obtain rfl := Option.some.inj h
    rw [request, setPtt, henqueue, weight_of_not rfl, add_zero]
    rfl
  | sync =>
    obtain rfl := Option.some.inj h
    rw [request, syncFromRadio, henqueue, weight_of_not rfl, add_zero]
  | flush number =>
    obtain rfl := Option.some.inj h
    rw [request, flush, henqueue, weight_of_not rfl, add_zero]

@[simp] theorem view_send (r : HamlibRadio) (c : Cat) : (r.send c).queueView = r.queueView := rfl

@[simp] theorem view_assertMode (r : HamlibRadio) (mode : RadioMode) (a : Answers) :
    (r.assertMode mode a).queueView = r.queueView := rfl

@[simp] theorem view_assertPower (g : Rig) (r : HamlibRadio) (pct : Int) (a : Answers) :
    (assertPower g r pct a).1.queueView = r.queueView := by
  unfold assertPower
  split_ifs <;> rfl

@[simp] theorem view_assertSplit (g : Rig) (r : HamlibRadio) (on : Bool) :
    (assertSplit g r on).queueView = r.queueView := by
  unfold assertSplit
  split_ifs <;> rfl

@[simp] theorem view_armSplit (g : Rig) (r : HamlibRadio) :
    (armSplit g r).queueView = r.queueView := by
  unfold armSplit
  split_ifs
  · exact view_assertSplit g r true
  · rfl

theorem view_implSetChannel (g : Rig) (r : HamlibRadio) (ch : Channel) (a : Answers) :
    (implSetChannel g r ch a).queueView = r.queueView := by
  unfold implSetChannel
  dsimp only
  generalize hr₁ : (if ch.txFrequency ≠ (armSplit g r).currentChannel.txFrequency then
    (armSplit g r).send (.setFreq ch.txFrequency) else armSplit g r) = r₁
  have h₁ : r₁.queueView = r.queueView := by
    rw [← hr₁, apply_ite queueView, view_send, view_armSplit, ite_self]
  generalize hr₂ : (if (!r₁.modeEverSent || decide (ch.txMode ≠ r₁.lastSentMode)) = true then
    r₁.assertMode ch.txMode a else { r₁ with lastModeCmd := a.now }) = r₂
  have h₂ : r₂.queueView = r₁.queueView := by
    rw [← hr₂]
    split_ifs <;> rfl
  rw [← h₁, ← h₂]
  split_ifs <;> first | exact view_assertPower g r₂ ch.power a | rfl

theorem view_implSetFrequency (g : Rig) (r : HamlibRadio) (hz : UInt32) (a : Answers) :
    (implSetFrequency g r hz a).queueView = r.queueView := by
  unfold implSetFrequency
  split_ifs
  · rfl
  · exact view_armSplit g r

theorem view_implSetPower (g : Rig) (r : HamlibRadio) (pct : Int) (a : Answers) :
    (implSetPower g r pct a).queueView = r.queueView := by
  unfold implSetPower
  dsimp only
  split_ifs <;> exact view_assertPower g r pct a

theorem view_implSetPtt (g : Rig) (r : HamlibRadio) (on : Bool) (a : Answers) :
    (implSetPtt g r on a).queueView = r.queueView := by
  unfold implSetPtt
  dsimp only
  generalize hr₁ : (if (g.avoidRelayClick && on && r.splitState) = true then
    assertSplit g r false else r) = r₁
  have h₁ : r₁.queueView = r.queueView := by
    rw [← hr₁, apply_ite queueView, view_assertSplit, ite_self]
  rw [← h₁]
  split_ifs
  all_goals first | exact view_assertSplit g _ true | rfl

theorem view_syncPower (g : Rig) (r : HamlibRadio) (a : Answers) :
    (syncPower g r a).queueView = r.queueView := by
  unfold syncPower
  split_ifs
  · dsimp only
    cases a.level with
    | none => rfl
    | some level =>
      dsimp only
      split_ifs <;> rfl
  · rfl

theorem view_implSyncFromRadio (g : Rig) (r : HamlibRadio) (a : Answers) :
    (implSyncFromRadio g r a).queueView = r.queueView := by
  unfold implSyncFromRadio
  split_ifs
  · rfl
  · dsimp only
    cases a.freq with
    | none => rfl
    | some hz =>
      dsimp only
      cases a.mode with
      | none => rfl
      | some mode =>
        dsimp only
        rw [view_syncPower]
        split_ifs <;> rfl

/-- **A command that is carried out** leaves the queue alone; a tune is no longer in flight. -/
theorem view_workerDispatch (g : Rig) (r : HamlibRadio) (cmd : RadioCommand) (a : Answers) :
    (workerDispatch g r cmd a).queueView =
      { r.queueView with tunesInFlight := r.tunesInFlight - weight cmd } := by
  have hsettle : ∀ r' : HamlibRadio, r'.queueView = r.queueView →
      r'.settleTune.queueView = { r.queueView with tunesInFlight := r.tunesInFlight - 1 } := by
    intro r' h
    rw [← h]
    have htunes : r'.tunesInFlight = r.tunesInFlight := congrArg QueueView.tunesInFlight h
    rw [← htunes]
    rfl
  have hkeep : ∀ r' : HamlibRadio, r'.queueView = r.queueView →
      r'.queueView = { r.queueView with tunesInFlight := r.tunesInFlight - 0 } := by
    intro r' h
    rw [h, sub_zero]
    rfl
  cases cmd with
  | setChannel ch => exact hsettle _ (view_implSetChannel g r ch a)
  | setFrequency hz => exact hsettle _ (view_implSetFrequency g r hz a)
  | setMode mode => exact hsettle _ rfl
  | setPower pct => exact hkeep _ (view_implSetPower g r pct a)
  | setPtt on => exact hkeep _ (view_implSetPtt g r on a)
  | sync => exact hkeep _ (view_implSyncFromRadio g r a)
  | flush number => exact hkeep _ rfl

end HamlibRadio

/-! ## The log -/

/-- A radio with what was queued and what was carried out since the last start, and the number of the
tunes since then that will not be carried out. -/
structure Traced where
  radio : HamlibRadio := {}
  issued : List RadioCommand := []
  served : List RadioCommand := []
  dropped : Int := 0

namespace Traced

/-- The tunes in a queue. -/
def tunes (cmds : List RadioCommand) : Int := (cmds.map weight).sum

/-- A request, logged. -/
def request (t : Traced) (cmd : RadioCommand) : Traced :=
  match asQueued cmd with
  | none => { t with radio := t.radio.request cmd }
  | some c =>
    if t.radio.workerRunning then
      { t with radio := t.radio.request cmd, issued := t.issued ++ [c] }
    else { t with radio := t.radio.request cmd, dropped := t.dropped + weight c }

/-- A start, logged. -/
def start (t : Traced) (opened : Bool) : Traced :=
  if opened && !t.radio.workerRunning then { radio := t.radio.start opened }
  else { t with radio := t.radio.start opened }

/-- One step, logged. -/
def step (g : Rig) (t : Traced) (op : RadioOp) : Traced :=
  match op with
  | .start opened => t.start opened
  | .request cmd => t.request cmd
  | .take => { t with radio := t.radio.step g op }
  | .dispatch _ => { t with radio := t.radio.step g op, served := t.served ++ t.radio.inHand.toList }
  | .stop _ =>
    if t.radio.workerRunning then
      { t with
        radio := t.radio.step g op
        served := t.served ++ t.radio.inHand.toList
        dropped := t.dropped + tunes t.radio.cmdQueue }
    else { t with radio := t.radio.step g op }

/-- The log changes nothing. -/
theorem radio_step (g : Rig) (t : Traced) (op : RadioOp) :
    (step g t op).radio = t.radio.step g op := by
  cases op with
  | start opened =>
    unfold step start
    dsimp only
    split_ifs <;> rfl
  | request cmd =>
    unfold step request
    dsimp only
    cases asQueued cmd with
    | none => rfl
    | some c =>
      dsimp only
      split_ifs <;> rfl
  | take => rfl
  | dispatch a => rfl
  | stop a =>
    unfold step
    dsimp only
    split_ifs <;> rfl

/-- What holds of the queue along a run. -/
structure Sound (t : Traced) : Prop where
  ordered : ∃ q, (t.radio.workerRunning = true → q = t.radio.cmdQueue) ∧
    Priority.Ordered RadioCommand.isUrgent t.issued t.served t.radio.inHand q
  tunes : t.radio.tunesInFlight = tunes t.radio.inHand.toList + tunes t.radio.cmdQueue + t.dropped
  dropped : 0 ≤ t.dropped
  stopped : t.radio.workerRunning = false → t.radio.inHand = none ∧ t.radio.cmdQueue = []
  running : t.radio.workerRunning = true → t.dropped = 0

variable {t : Traced}

theorem of_view {q : List RadioCommand} {hand : Option RadioCommand} {b : Bool} {n : Int}
    (h : r.queueView = ⟨q, hand, b, n⟩) :
    r.cmdQueue = q ∧ r.inHand = hand ∧ r.workerRunning = b ∧ r.tunesInFlight = n := by
  rwa [queueView, QueueView.mk.injEq] at h

theorem tunes_append (cmds cmds' : List RadioCommand) :
    tunes (cmds ++ cmds') = tunes cmds + tunes cmds' := by
  rw [tunes, List.map_append, List.sum_append]
  rfl

theorem weight_nonneg (cmd : RadioCommand) : 0 ≤ weight cmd := by
  unfold weight
  split_ifs <;> decide

theorem tunes_nonneg (cmds : List RadioCommand) : 0 ≤ tunes cmds := by
  refine List.sum_nonneg fun x hx => ?_
  obtain ⟨cmd, -, rfl⟩ := List.mem_map.mp hx
  exact weight_nonneg cmd

theorem tunes_enqueue (p : RadioCommand → Bool) (c : RadioCommand) (q : List RadioCommand) :
    tunes (Priority.enqueue p c q) = tunes q + weight c := by
  have hone : ∀ q', tunes (c :: q') = weight c + tunes q' := fun q' => rfl
  unfold Priority.enqueue
  split_ifs
  · have hsplit : tunes q = tunes (q.takeWhile p) + tunes (q.dropWhile p) := by
      rw [← tunes_append, List.takeWhile_append_dropWhile]
    rw [tunes_append, hone, hsplit]
    omega
  · rw [tunes_append, hone]
    exact congrArg _ (add_zero _)

theorem view_dispatch (g : Rig) (r : HamlibRadio) (a : Answers) :
    (dispatch g r a).queueView = ⟨r.cmdQueue, none, r.workerRunning,
      r.tunesInFlight - tunes r.inHand.toList⟩ := by
  unfold dispatch
  cases hhand : r.inHand with
  | none =>
    dsimp only
    rw [queueView, hhand]
    exact congrArg _ (sub_zero _).symm
  | some cmd =>
    obtain ⟨hqueue, -, hrun, htunes⟩ := of_view (view_workerDispatch g r cmd a)
    have hone : tunes (some cmd).toList = weight cmd := add_zero _
    dsimp only
    rw [queueView, hqueue, hrun, htunes, hone]
    rfl

theorem view_stop (h : r.workerRunning = true) (g : Rig) (a : Answers) :
    (stop g r a).queueView = ⟨[], none, false, r.tunesInFlight - tunes r.inHand.toList⟩ := by
  obtain ⟨-, hhand, hrun, htunes⟩ :=
    of_view (view_dispatch g { r with workerRunning := false } a)
  unfold stop stopWorker
  rw [if_pos h]
  dsimp only [queueView]
  rw [hhand, hrun, htunes]

theorem sound_request (h : t.Sound) (cmd : RadioCommand) : (t.request cmd).Sound := by
  unfold request
  cases hqueued : asQueued cmd with
  | none =>
    dsimp only
    rw [view_request_none hqueued]
    exact h
  | some c =>
    obtain ⟨hqueue, hhand, hrun, htunes⟩ := of_view (view_request (r := t.radio) c hqueued)
    unfold queued at hqueue
    obtain ⟨q, hq, hordered⟩ := h.ordered
    dsimp only
    split_ifs with hruns
    · rw [if_pos hruns] at hqueue
      refine ⟨⟨(t.radio.request cmd).cmdQueue, fun _ => rfl, ?_⟩, ?_, h.dropped, ?_, ?_⟩
      · have hnew := hordered.enqueue c
        rw [hq hruns] at hnew
        rwa [hqueue, hhand]
      · have hsum := h.tunes
        dsimp only
        rw [htunes, hhand, hqueue, tunes_enqueue]
        omega
      · intro hstopped
        rw [hrun, hruns] at hstopped
        cases hstopped
      · exact fun _ => h.running hruns
    · rw [if_neg hruns] at hqueue
      refine ⟨⟨q, fun hr => ?_, ?_⟩, ?_, ?_, ?_, ?_⟩
      · exact absurd (hrun ▸ hr) hruns
      · rwa [hhand]
      · have hsum := h.tunes
        dsimp only
        rw [htunes, hhand, hqueue]
        omega
      · exact add_nonneg h.dropped (weight_nonneg c)
      · intro _
        rw [hhand, hqueue]
        exact h.stopped (eq_false_of_ne_true hruns)
      · exact fun hr => absurd (hrun ▸ hr) hruns

theorem sound_take (h : t.Sound) : ({ t with radio := t.radio.take } : Traced).Sound := by
  unfold take
  cases hhand : t.radio.inHand with
  | some cmd =>
    dsimp only
    rwa [← hhand] at *
  | none =>
    cases hqueue : t.radio.cmdQueue with
    | nil => exact h
    | cons cmd rest =>
      have hruns : t.radio.workerRunning = true := by
        by_contra hstopped
        have hempty := (h.stopped (eq_false_of_ne_true hstopped)).2
        rw [hqueue] at hempty
        cases hempty
      obtain ⟨q, hq, hordered⟩ := h.ordered
      rw [hq hruns, hqueue, hhand] at hordered
      refine ⟨⟨rest, fun _ => rfl, hordered.take⟩, ?_, h.dropped, ?_, fun _ => h.running hruns⟩
      · have hsum := h.tunes
        rw [hhand, hqueue] at hsum
        have hcons : tunes (cmd :: rest) = weight cmd + tunes rest := rfl
        have hone : tunes (some cmd).toList = weight cmd := add_zero _
        have hnone : tunes (none : Option RadioCommand).toList = 0 := rfl
        dsimp only
        omega
      · intro hstopped
        rw [hruns] at hstopped
        cases hstopped

theorem sound_dispatch (h : t.Sound) (g : Rig) (a : Answers) :
    (step g t (.dispatch a)).Sound := by
  obtain ⟨hqueue, hhand, hrun, htunes⟩ := of_view (view_dispatch g t.radio a)
  obtain ⟨q, hq, hordered⟩ := h.ordered
  refine ⟨⟨q, fun hr => (hq (hrun ▸ hr)).trans hqueue.symm, ?_⟩, ?_, h.dropped, ?_, ?_⟩
  · change Priority.Ordered _ t.issued (t.served ++ t.radio.inHand.toList)
      (dispatch g t.radio a).inHand q
    rw [hhand]
    cases hc : t.radio.inHand with
    | none =>
      rw [Option.toList_none, List.append_nil]
      rwa [hc] at hordered
    | some cmd =>
      rw [hc] at hordered
      exact hordered.serve
  · have hsum := h.tunes
    have hnone : tunes (none : Option RadioCommand).toList = 0 := rfl
    change (dispatch g t.radio a).tunesInFlight = tunes (dispatch g t.radio a).inHand.toList +
      tunes (dispatch g t.radio a).cmdQueue + t.dropped
    rw [htunes, hhand, hqueue]
    omega
  · intro hstopped
    exact ⟨hhand, hqueue.trans (h.stopped (hrun ▸ hstopped)).2⟩
  · exact fun hr => h.running (hrun ▸ hr)

theorem sound_stop (h : t.Sound) (g : Rig) (a : Answers) : (step g t (.stop a)).Sound := by
  unfold step
  dsimp only
  split_ifs with hruns
  · obtain ⟨hqueue, hhand, hrun, htunes⟩ := of_view (view_stop hruns g a)
    obtain ⟨q, hq, hordered⟩ := h.ordered
    refine ⟨⟨q, fun hr => ?_, ?_⟩, ?_, add_nonneg h.dropped (tunes_nonneg _), ?_, ?_⟩
    · rw [show (HamlibRadio.step g t.radio (.stop a)).workerRunning = false from hrun] at hr
      cases hr
    · change Priority.Ordered _ t.issued (t.served ++ t.radio.inHand.toList)
        (stop g t.radio a).inHand q
      rw [hhand]
      cases hc : t.radio.inHand with
      | none =>
        rw [Option.toList_none, List.append_nil]
        rwa [hc] at hordered
      | some cmd =>
        rw [hc] at hordered
        exact hordered.serve
    · have hsum := h.tunes
      have hnone : tunes (none : Option RadioCommand).toList = 0 := rfl
      have hnil : tunes [] = 0 := rfl
      change (stop g t.radio a).tunesInFlight = tunes (stop g t.radio a).inHand.toList +
        tunes (stop g t.radio a).cmdQueue + (t.dropped + tunes t.radio.cmdQueue)
      rw [htunes, hhand, hqueue]
      omega
    · exact fun _ => ⟨hhand, hqueue⟩
    · intro hr
      rw [show (HamlibRadio.step g t.radio (.stop a)).workerRunning = false from hrun] at hr
      cases hr
  · have hsame : (HamlibRadio.step g t.radio (.stop a)).queueView = t.radio.queueView := by
      change (stop g t.radio a).queueView = _
      unfold stop stopWorker
      rw [if_neg hruns]
      rfl
    obtain ⟨hqueue, hhand, hrun, htunes⟩ := of_view hsame
    obtain ⟨q, -, hordered⟩ := h.ordered
    refine ⟨⟨q, fun hr => absurd (hrun ▸ hr) hruns, by rwa [hhand]⟩, ?_, h.dropped, ?_, ?_⟩
    · dsimp only
      rw [htunes, hhand, hqueue]
      exact h.tunes
    · intro _
      rw [hhand, hqueue]
      exact h.stopped (eq_false_of_ne_true hruns)
    · exact fun hr => absurd (hrun ▸ hr) hruns

theorem sound_start (h : t.Sound) (opened : Bool) : (t.start opened).Sound := by
  unfold start HamlibRadio.start
  split_ifs with hstart
  · rw [Bool.and_eq_true, Bool.not_eq_true'] at hstart
    obtain ⟨hhand, hqueue⟩ := h.stopped hstart.2
    refine ⟨⟨[], fun _ => hqueue.symm, ?_⟩, ?_, le_rfl, ?_, fun _ => rfl⟩
    · dsimp only
      rw [hhand]
      exact Priority.ordered_nil _
    · dsimp only
      rw [hhand, hqueue]
      rfl
    · exact fun _ => ⟨hhand, hqueue⟩
  · exact h

/-- **What every step keeps.** -/
theorem sound_step (h : t.Sound) (g : Rig) (op : RadioOp) : (step g t op).Sound := by
  cases op with
  | start opened => exact sound_start h opened
  | request cmd => exact sound_request h cmd
  | take => exact sound_take h
  | dispatch a => exact sound_dispatch h g a
  | stop a => exact sound_stop h g a

theorem sound_init : Sound {} where
  ordered := ⟨[], fun _ => rfl, Priority.ordered_nil _⟩
  tunes := rfl
  dropped := le_rfl
  stopped _ := ⟨rfl, rfl⟩
  running _ := rfl

/-- The state that a run reaches, with its log. -/
def after (g : Rig) (ops : List RadioOp) : Traced := Machine.run (step g) {} ops

theorem radio_after (g : Rig) (ops : List RadioOp) :
    (after g ops).radio = Machine.run (HamlibRadio.step g) {} ops := by
  have hrun : ∀ (ops : List RadioOp) (t : Traced),
      (Machine.run (step g) t ops).radio = Machine.run (HamlibRadio.step g) t.radio ops := by
    intro ops
    induction ops with
    | nil => exact fun _ => rfl
    | cons op ops ih =>
      intro t
      rw [Machine.run_cons, Machine.run_cons, ih, radio_step]
  exact hrun ops {}

theorem sound_after (g : Rig) (ops : List RadioOp) : (after g ops).Sound := by
  have hstep : ∀ t op, Sound t → Sound (step g t op) := fun _ op h => sound_step h g op
  exact (Machine.allStates_of_inv' hstep sound_init ops).last

/-- A tune is in hand or waits. -/
def Outstanding (r : HamlibRadio) : Prop :=
  ∃ cmd, cmd.isTune = true ∧ (r.inHand = some cmd ∨ cmd ∈ r.cmdQueue)

theorem tunes_pos_iff (cmds : List RadioCommand) :
    0 < tunes cmds ↔ ∃ cmd ∈ cmds, cmd.isTune = true := by
  induction cmds with
  | nil => simp [tunes]
  | cons cmd cmds ih =>
    have hcons : tunes (cmd :: cmds) = weight cmd + tunes cmds := rfl
    have hrest := tunes_nonneg cmds
    rw [List.exists_mem_cons_iff, ← ih, hcons, weight]
    split_ifs with htune
    · exact ⟨fun _ => .inl htune, fun _ => by omega⟩
    · rw [zero_add]
      exact ⟨.inr, fun h => h.resolve_left htune⟩

theorem outstanding_iff (r : HamlibRadio) :
    Outstanding r ↔ 0 < tunes r.inHand.toList + tunes r.cmdQueue := by
  have hhand := tunes_nonneg r.inHand.toList
  have hqueue := tunes_nonneg r.cmdQueue
  have hsum : 0 < tunes r.inHand.toList + tunes r.cmdQueue ↔
      0 < tunes r.inHand.toList ∨ 0 < tunes r.cmdQueue := by omega
  rw [hsum, tunes_pos_iff, tunes_pos_iff]
  constructor
  · rintro ⟨cmd, htune, h | h⟩
    · exact .inl ⟨cmd, by rw [h]; exact List.mem_singleton_self cmd, htune⟩
    · exact .inr ⟨cmd, h, htune⟩
  · rintro (⟨cmd, h, htune⟩ | ⟨cmd, h, htune⟩)
    · exact ⟨cmd, htune, .inl (Option.mem_toList.mp h)⟩
    · exact ⟨cmd, htune, .inr h⟩


end Traced

/-! ## Along a run -/

open Traced Priority

/-- **The commands in order.** Along every run, each class of commands is carried out in the order
of its requests since the last start, none of them twice; while the worker runs, the others are in
hand or wait. -/
theorem commands_in_order (g : Rig) (ops : List RadioOp) (b : Bool) :
    let t := after g ops
    cls RadioCommand.isUrgent b t.served <+: cls RadioCommand.isUrgent b t.issued ∧
      (t.radio.workerRunning = true → cls RadioCommand.isUrgent b t.issued =
        cls RadioCommand.isUrgent b t.served ++
          cls RadioCommand.isUrgent b t.radio.inHand.toList ++
          cls RadioCommand.isUrgent b t.radio.cmdQueue) := by
  obtain ⟨q, hq, hordered⟩ := (sound_after g ops).ordered
  refine ⟨hordered.served_first b, fun hruns => ?_⟩
  rw [← hq hruns]
  exact hordered.order b

/-- **The flush.** When a flush is kept, everything that was requested before it since the last
start was carried out, as often as it was requested. -/
theorem flush_barrier {ops : List RadioOp} {number : Nat} {xs ys : List RadioCommand}
    (hhand : (after g ops).radio.inHand = some (.flush number))
    (hsplit : (after g ops).issued = xs ++ .flush number :: ys)
    (hx : .flush number ∉ xs) (hy : .flush number ∉ ys) (cmd : RadioCommand) :
    xs.count cmd ≤ (after g ops).served.count cmd := by
  obtain ⟨q, -, hordered⟩ := (sound_after g ops).ordered
  rw [hhand] at hordered
  obtain ⟨hurgent, hother⟩ := hordered.served_before rfl hsplit hx hy
  have hcount : ∀ cmds : List RadioCommand,
      (cls RadioCommand.isUrgent cmd.isUrgent cmds).count cmd = cmds.count cmd := fun cmds =>
    List.count_filter (beq_self_eq_true _)
  rw [← hcount xs, ← hcount (after g ops).served]
  cases hcmd : cmd.isUrgent with
  | true => exact hurgent.sublist.count_le cmd
  | false => rw [hother]

/-- A rig that has nothing to offer, and one that confirms and tells nothing. -/
def plainRig : Rig := ⟨false, false, false, false, .normal⟩

def silent : Answers := ⟨0, false, false, false, false, none, none, none⟩

/-- A power level, a flush and a tune: the tune overtakes, and the flush is in hand. -/
def flushRun : List RadioOp :=
  [.start true, .request (.setPower 50), .request (.flush 1), .request (.setFrequency 7000000),
    .take, .dispatch silent, .take, .dispatch silent, .take]

theorem flush_barrier_power :
    (1 : Nat) ≤ (after plainRig flushRun).served.count (.setPower 50) :=
  by
  have hhand : (after plainRig flushRun).radio.inHand = some (.flush 1) := by decide +kernel
  have hsplit : (after plainRig flushRun).issued =
      [.setPower 50] ++ .flush 1 :: [.setFrequency 7000000] := by decide +kernel
  exact flush_barrier hhand hsplit (by decide) (by decide) (.setPower 50)

/-- **The settled radio.** While the worker runs, `is_tune_settled` tells that no tune is in hand
and none waits. -/
theorem settled_iff {ops : List RadioOp}
    (hruns : (Machine.run (HamlibRadio.step g) {} ops).workerRunning = true) :
    (Machine.run (HamlibRadio.step g) {} ops).isTuneSettled = true ↔
      ¬ Outstanding (Machine.run (HamlibRadio.step g) {} ops) := by
  have h := sound_after g ops
  have hsum := h.tunes
  rw [← radio_after] at hruns ⊢
  have hhand := tunes_nonneg (after g ops).radio.inHand.toList
  have hqueue := tunes_nonneg (after g ops).radio.cmdQueue
  rw [h.running hruns] at hsum
  rw [outstanding_iff, isTuneSettled, decide_eq_true_eq]
  omega

theorem settled_iff_tune :
    (Machine.run (HamlibRadio.step plainRig) {}
        [.start true, .request (.setMode .lsb)]).isTuneSettled = true ↔
      ¬ Outstanding (Machine.run (HamlibRadio.step plainRig) {}
        [.start true, .request (.setMode .lsb)]) :=
  settled_iff (by decide +kernel)

end OpenALE.Pal
