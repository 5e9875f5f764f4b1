import OpenALE.Library.Machine
import OpenALE.App.TxPath

/-!
# Who keys the radio

Model of what of `src/App/ale_controller.cpp` keys the radio and silences the demodulator: the
receiver callback, `tick_ptt_timing`, `set_manual_ptt`, the end of `emergency_stop` and
`start_available`, over the way of the words (`TxPath`). `inhibited` is what `tx_inhibited` answers
for the channel of the radio, `deaf` what `rx_inhibited` does. The callbacks come from the state
machine, in any order. Left out: the events dispatched, and the voice path, which keys the radio on
its own while a link is up.
-/

namespace OpenALE

/-- The members of `ALEController` that keying is about. -/
structure Keying extends TxPath where
  /-- The last `set_ptt` of the radio. -/
  ptt : Bool := false
  /-- `demodulator_.enabled`. -/
  demodulator : Bool := true
  pttTailMs : UInt32 := 0
  outputLatencyMs : UInt32 := 0
  pttTailDeadlineMs : UInt32 := 0
  pttTailArmedDelayMs : UInt32 := 0
  abortTxPending : Bool := false
  /-- The last request for the transmitter was refused. -/
  refused : Bool := false

namespace Keying

/-- `effective_tail_ms`. -/
def effectiveTailMs (k : Keying) : UInt32 := k.pttTailMs + k.outputLatencyMs

/-- The callback of `set_rx_enabled_callback`. -/
def rxEnabled (k : Keying) (rxOn inhibited deaf : Bool) : Keying :=
  let path := k.toTxPath.rxEnabled rxOn inhibited
  if rxOn = k.smRxEnabled then k
  else if k.manualPtt then
    { k with
      toTxPath := path
      demodulator := if rxOn then k.demodulator else false
      refused := false }
  else if rxOn then
    if 0 < k.effectiveTailMs then
      { k with
        toTxPath := path
        pttTailDeadlineMs := k.nowMs + k.effectiveTailMs
        pttTailArmedDelayMs := k.effectiveTailMs
        refused := false }
    else
      { k with
        toTxPath := path
        ptt := false
        demodulator := if deaf then k.demodulator else true
        refused := false }
  else if inhibited then { k with toTxPath := path, abortTxPending := true, refused := true }
  else
    { k with
      toTxPath := path
      pttTailDeadlineMs := 0
      demodulator := false
      ptt := true
      refused := false }

/-- The PTT tail in `tick_ptt_timing`. -/
def releaseTail (k : Keying) (deaf : Bool) : Keying :=
  if 0 < k.pttTailDeadlineMs ∧ ¬ k.manualPtt ∧ k.pttTailDeadlineMs ≤ k.nowMs then
    { k with
      pttTailDeadlineMs := 0
      ptt := false
      demodulator := if deaf then k.demodulator else true
      pttTailArmedDelayMs := 0 }
  else k

/-- `update` up to the state machine: `tick_ptt_timing`, and the flag that `tick_sm` takes. -/
def tick (k : Keying) (now : UInt32) (deaf : Bool) : Keying :=
  { releaseTail { k with toTxPath := k.toTxPath.tickPttTiming now } deaf with abortTxPending := false }

/-- `set_manual_ptt` before the state machine. -/
def setManualPtt (k : Keying) (on inhibited : Bool) : Keying :=
  let path := k.toTxPath.setManualPtt on inhibited
  if on ∧ inhibited then { k with toTxPath := path }
  else if on then
    { k with toTxPath := path, pttTailDeadlineMs := 0, demodulator := false, ptt := true }
  else if k.smRxEnabled then { k with toTxPath := path, ptt := false, demodulator := true }
  else { k with toTxPath := path }

/-- `emergency_stop` after the state machine. -/
def flush (k : Keying) : Keying :=
  { k with
    toTxPath := k.toTxPath.flush
    pttTailDeadlineMs := 0
    ptt := false
    demodulator := true }

/-- The end of `start_available`. -/
def startAvailable (k : Keying) : Keying := { k with demodulator := true }

end Keying

/-- What happens to the keying; `pull` is the audio side taking a word. -/
inductive KeyOp where
  | rxEnabled (rxOn inhibited deaf : Bool)
  | transmit (w : ALEWord)
  | tick (now : UInt32) (deaf : Bool)
  | setManualPtt (on inhibited : Bool)
  | flush
  | startAvailable
  | pull
  | setPttLeadMs (ms : UInt32)
  | setPttTailMs (ms : UInt32)
  | setAudioDevice (latencyMs : UInt32)
  deriving Repr, DecidableEq

namespace Keying

/-- One operation. -/
def step (k : Keying) : KeyOp → Keying
  | .rxEnabled rxOn inhibited deaf => k.rxEnabled rxOn inhibited deaf
  | .transmit w => { k with toTxPath := k.toTxPath.transmit w }
  | .tick now deaf => k.tick now deaf
  | .setManualPtt on inhibited => k.setManualPtt on inhibited
  | .flush => k.flush
  | .startAvailable => k.startAvailable
  | .pull => { k with modulator := k.modulator.pullSymbolFrame.2 }
  | .setPttLeadMs ms => { k with pttLeadMs := ms }
  | .setPttTailMs ms => { k with pttTailMs := ms }
  | .setAudioDevice latencyMs => { k with outputLatencyMs := latencyMs }

/-- What the callbacks of the state machine do. -/
def callback (inhibited deaf : Bool) : Output → Option KeyOp
  | .transmit w => some (.transmit w)
  | .rxEnabled rxOn => some (.rxEnabled rxOn inhibited deaf)
  | _ => none

/-- The way of the words in the keying is the transmit path. -/
theorem toTxPath_rxEnabled (k : Keying) (rxOn inhibited deaf : Bool) :
    (k.rxEnabled rxOn inhibited deaf).toTxPath = k.toTxPath.rxEnabled rxOn inhibited := by
  unfold rxEnabled
  dsimp only
  by_cases hsame : rxOn = k.smRxEnabled
  · rw [if_pos hsame, TxPath.rxEnabled, if_pos hsame]
  rw [if_neg hsame]
  split
  · rfl
  split
  · split
    · rfl
    · rfl
  split
  · rfl
  · rfl

end Keying

end OpenALE
