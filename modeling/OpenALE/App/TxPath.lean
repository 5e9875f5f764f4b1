import OpenALE.Modem.Modulator
import OpenALE.Control.Drain

/-!
# From the state machine to the modulator

Model of the transmit path of `src/App/ale_controller.cpp`: the transmit callback, the transmit half
of the receiver callback, the PTT lead of `tick_ptt_timing`, `set_manual_ptt` and `emergency_stop`.
`inhibited` is what `tx_inhibited` answers for the channel of the radio. Left out: PTT itself, the
PTT tail, the demodulator and the abort on a receive-only channel, which is one more operation on
the state machine.

Results:
* `tally_serve`: what the callbacks of an operation do to the path is told by the signals.
* `asserted_tally`: when a burst trips the assertion of the modulator.
-/

namespace OpenALE

/-- The members of `ALEController` on the way of a word. -/
structure TxPath where
  smRxEnabled : Bool := true
  manualPtt : Bool := false
  pttLeadMs : UInt32 := 10
  pttLeadDeadlineMs : UInt32 := 0
  pendingTxWords : List ALEWord := []
  nowMs : UInt32 := 0
  modulator : Modulator := {}

namespace TxPath

/-- The callback of `set_transmit_callback`. -/
def transmit (p : TxPath) (w : ALEWord) : TxPath :=
  if 0 < p.pttLeadDeadlineMs then { p with pendingTxWords := p.pendingTxWords ++ [w] }
  else { p with modulator := p.modulator.enqueueWord w }

/-- The callback of `set_rx_enabled_callback`. -/
def rxEnabled (p : TxPath) (rxOn inhibited : Bool) : TxPath :=
  if rxOn = p.smRxEnabled then p
  else
    let p := { p with smRxEnabled := rxOn }
    if p.manualPtt then p
    else if rxOn then { p with pttLeadDeadlineMs := 0, pendingTxWords := [] }
    else if inhibited then p
    else { p with pttLeadDeadlineMs := if 0 < p.pttLeadMs then p.nowMs + p.pttLeadMs else 0 }

/-- The callbacks on the path. -/
def serve (inhibited : Bool) (p : TxPath) : Output → TxPath
  | .transmit w => p.transmit w
  | .rxEnabled rxOn => p.rxEnabled rxOn inhibited
  | _ => p

/-- The PTT lead in `tick_ptt_timing`. -/
def tickPttTiming (p : TxPath) (now : UInt32) : TxPath :=
  let p := { p with nowMs := now }
  if 0 < p.pttLeadDeadlineMs ∧ p.pttLeadDeadlineMs ≤ now then
    { p with
      pttLeadDeadlineMs := 0
      modulator := p.modulator.enqueueWords p.pendingTxWords
      pendingTxWords := [] }
  else p

/-- `emergency_stop` after the state machine. -/
def flush (p : TxPath) : TxPath :=
  { p with
    pendingTxWords := [], modulator := p.modulator.abort, pttLeadDeadlineMs := 0
    manualPtt := false }

/-- `set_manual_ptt` before the state machine. -/
def setManualPtt (p : TxPath) (on inhibited : Bool) : TxPath :=
  if on ∧ inhibited then { p with manualPtt := false }
  else if on then { p with manualPtt := true, pttLeadDeadlineMs := 0, pendingTxWords := [] }
  else { p with manualPtt := false }

end TxPath

/-- The state machine and the path of its words. -/
structure TxStation where
  sm : SM := SM.init
  path : TxPath := {}

/-- What happens on the path; `pull` is the audio side taking a word. -/
inductive TxOp where
  | machine (op : Op) (inhibited : Bool)
  | clock (now : UInt32)
  | pull
  | setPttLead (ms : UInt32)
  | manualPtt (on inhibited : Bool)
  | emergencyStop (inhibited : Bool)
  deriving Repr, DecidableEq

namespace TxStation

/-- An operation on the state machine, its callbacks served in order. -/
def machine (x : TxStation) (op : Op) (inhibited : Bool) : TxStation :=
  { sm := x.sm.step op, path := (x.sm.step op).out.foldl (TxPath.serve inhibited) x.path }

/-- The states manual PTT aborts. -/
def abortsOnPtt (s : SM) : Bool :=
  s.currentState == .calling || s.currentState == .handshake || s.currentState == .sounding

/-- One step. -/
def step (x : TxStation) : TxOp → TxStation
  | .machine op inhibited => x.machine op inhibited
  | .clock now => { x with path := x.path.tickPttTiming now }
  | .pull => { x with path := { x.path with modulator := x.path.modulator.pullSymbolFrame.2 } }
  | .setPttLead ms => { x with path := { x.path with pttLeadMs := ms } }
  | .manualPtt on inhibited =>
    let y := { x with path := x.path.setManualPtt on inhibited }
    if on ∧ ¬ inhibited ∧ abortsOnPtt x.sm then y.machine .emergencyManualControl inhibited else y
  | .emergencyStop inhibited =>
    let y := x.machine .emergencyManualControl inhibited
    { y with path := y.path.flush }

/-- The station as it starts. -/
def init : TxStation := { sm := SM.init, path := {} }

end TxStation

/-! ## The path by its counts -/

/-- What of the path decides whether the assertion fails. -/
structure Tally where
  smRxEnabled : Bool
  manualPtt : Bool
  pttLeadMs : UInt32
  pttLeadDeadlineMs : UInt32
  pending : Nat
  nowMs : UInt32
  load : Nat
  asserted : Bool

namespace TxPath

/-- The path by its counts. -/
def tally (p : TxPath) : Tally where
  smRxEnabled := p.smRxEnabled
  manualPtt := p.manualPtt
  pttLeadMs := p.pttLeadMs
  pttLeadDeadlineMs := p.pttLeadDeadlineMs
  pending := p.pendingTxWords.length
  nowMs := p.nowMs
  load := p.modulator.load
  asserted := p.modulator.asserted

end TxPath

namespace Tally

/-- A word handed over, or the receiver switched. -/
def hear (inhibited : Bool) (c : Tally) : Signal → Tally
  | .send =>
    if 0 < c.pttLeadDeadlineMs then { c with pending := c.pending + 1 }
    else { c with
      load := c.load + 1, asserted := c.asserted || decide (maxTxSequenceWords < c.load) }
  | .rx rxOn =>
    if rxOn = c.smRxEnabled then c
    else
      let c := { c with smRxEnabled := rxOn }
      if c.manualPtt then c
      else if rxOn then { c with pttLeadDeadlineMs := 0, pending := 0 }
      else if inhibited then c
      else { c with pttLeadDeadlineMs := if 0 < c.pttLeadMs then c.nowMs + c.pttLeadMs else 0 }

end Tally

section Tally

variable (p : TxPath) (c : Tally) (inhibited : Bool)

theorem tally_transmit (w : ALEWord) : (p.transmit w).tally = p.tally.hear inhibited .send := by
  unfold TxPath.transmit Tally.hear
  by_cases h : 0 < p.pttLeadDeadlineMs
  · rw [if_pos h, if_pos (show 0 < p.tally.pttLeadDeadlineMs from h)]
    simp [TxPath.tally]
  · rw [if_neg h, if_neg (show ¬ 0 < p.tally.pttLeadDeadlineMs from h)]
    unfold TxPath.tally
    dsimp only
    rw [Modulator.load_enqueueWord, Modulator.asserted_enqueueWord]

theorem tally_rxEnabled (rxOn : Bool) :
    (p.rxEnabled rxOn inhibited).tally = p.tally.hear inhibited (.rx rxOn) := by
  unfold TxPath.rxEnabled Tally.hear
  dsimp only
  by_cases h : rxOn = p.smRxEnabled
  · rw [if_pos h, if_pos (show rxOn = p.tally.smRxEnabled from h)]
  rw [if_neg h, if_neg (show ¬ rxOn = p.tally.smRxEnabled from h)]
  by_cases hm : p.manualPtt = true
  · rw [if_pos hm, if_pos (show p.tally.manualPtt = true from hm)]
    rfl
  rw [if_neg hm, if_neg (show ¬ p.tally.manualPtt = true from hm)]
  cases rxOn with
  | true => rfl
  | false => cases inhibited <;> rfl

/-- **The signals tell what the callbacks do to the path.** -/
theorem tally_serve (out : List Output) :
    (out.foldl (TxPath.serve inhibited) p).tally =
      (signals out).foldl (Tally.hear inhibited) p.tally := by
  induction out generalizing p with
  | nil => rfl
  | cons o out ih =>
    rw [List.foldl_cons, ih]
    cases o with
    | transmit w =>
      show List.foldl _ (p.transmit w).tally _ = _
      rw [tally_transmit p inhibited w]
      rfl
    | rxEnabled rxOn =>
      show List.foldl _ (p.rxEnabled rxOn inhibited).tally _ = _
      rw [tally_rxEnabled]
      rfl
    | _ => rfl

/-- A burst behind a running PTT lead waits. -/
theorem hear_lead {n : Nat} (h : 0 < c.pttLeadDeadlineMs) :
    (List.replicate n Signal.send).foldl (Tally.hear inhibited) c =
      { c with pending := c.pending + n } := by
  induction n generalizing c with
  | zero => rfl
  | succ n ih =>
    have hc : c.hear inhibited .send = { c with pending := c.pending + 1 } := if_pos h
    have hn := ih { c with pending := c.pending + 1 } h
    rw [List.replicate_succ, List.foldl_cons, hc, hn]
    simp only [Nat.add_assoc, Nat.add_comm 1]

/-- A burst without a PTT lead goes to the modulator. -/
theorem hear_direct {n : Nat} (h : ¬ 0 < c.pttLeadDeadlineMs) :
    (List.replicate n Signal.send).foldl (Tally.hear inhibited) c =
      { c with
        load := c.load + n
        asserted := c.asserted || decide (n ≠ 0 ∧ maxTxSequenceWords + 1 < c.load + n) } := by
  induction n generalizing c with
  | zero => simp
  | succ n ih =>
    have hc : c.hear inhibited .send = { c with
        load := c.load + 1, asserted := c.asserted || decide (maxTxSequenceWords < c.load) } :=
      if_neg h
    have hn := ih { c with
      load := c.load + 1, asserted := c.asserted || decide (maxTxSequenceWords < c.load) } h
    rw [List.replicate_succ, List.foldl_cons, hc, hn]
    simp only [Nat.add_assoc, Nat.add_comm 1, Bool.or_assoc]
    congr 2
    rw [← Bool.decide_or, decide_eq_decide]
    omega

/-- Switching the receiver hands nothing over. -/
theorem hear_rx (rxOn : Bool) :
    (c.hear inhibited (.rx rxOn)).load = c.load ∧
      (c.hear inhibited (.rx rxOn)).asserted = c.asserted := by
  unfold Tally.hear
  dsimp only
  repeat' split
  all_goals exact ⟨rfl, rfl⟩

theorem hear_silent {sig : List Signal} (h : sends sig = 0) :
    (sig.foldl (Tally.hear inhibited) c).load = c.load ∧
      (sig.foldl (Tally.hear inhibited) c).asserted = c.asserted := by
  induction sig generalizing c with
  | nil => exact ⟨rfl, rfl⟩
  | cons a sig ih =>
    cases a with
    | send =>
      rw [sends, List.count_cons_self] at h
      exact absurd h (Nat.succ_ne_zero _)
    | rx rxOn =>
      rw [sends_rx] at h
      obtain ⟨h1, h2⟩ := ih (c.hear inhibited (.rx rxOn)) h
      obtain ⟨h3, h4⟩ := hear_rx c inhibited rxOn
      exact ⟨h1.trans h3, h2.trans h4⟩

/-- **When a burst trips the assertion**: without a PTT lead, and longer than the room left. -/
theorem asserted_tally {pre post : List Signal} {n : Nat} (hpre : sends pre = 0)
    (hpost : sends post = 0) :
    ((pre ++ List.replicate n Signal.send ++ post).foldl (Tally.hear inhibited) c).asserted =
      (c.asserted || decide (¬ 0 < (pre.foldl (Tally.hear inhibited) c).pttLeadDeadlineMs ∧
        n ≠ 0 ∧ maxTxSequenceWords + 1 < c.load + n)) := by
  obtain ⟨hl, ha⟩ := hear_silent c inhibited hpre
  rw [List.foldl_append, List.foldl_append, (hear_silent _ inhibited hpost).2]
  by_cases h : 0 < (pre.foldl (Tally.hear inhibited) c).pttLeadDeadlineMs
  · rw [hear_lead _ inhibited h]
    simp [ha, h]
  · rw [hear_direct _ inhibited h]
    simp [ha, hl, h]

end Tally

end OpenALE
