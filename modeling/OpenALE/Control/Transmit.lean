import OpenALE.Control.Transition

/-!
# Transmit bursts and time-outs

Model of the sequence builders and time-out helpers of `ale_state_machine.cpp`:
`enqueue_call_sequence_`, `build_ack_words`, `build_response_words`, `try_next_calling_channel`,
`check_link_timeout`, `compute_calling_timeout_ms`.

Results:
* `transmitWords_eq`: a burst counts its words, hands them to the transmit callback in order and
  touches nothing else.
* `enqueueCallSequence_eq`: the calling frame is one burst, `CallSequences.callFrame`.
-/

namespace OpenALE

/-- A word as `transmit_word` sends it at time `now`. -/
def ALEWord.stamp (now : UInt32) (w : ALEWord) : ALEWord := { w with timestampMs := now }

namespace SM

/-- Arm the drain watchdog of the burst just queued, when anything was queued. -/
def armDrain (s : SM) (deadline : UInt32) : SM :=
  if 0 < s.tx.wordsPending then
    { s with tx := { s.tx with
      txDrainStartMs := s.currentTimeMs, txDrainDeadlineMs := deadline } }
  else s

/-- The drain watchdog is armed and its deadline has passed. -/
def drainExpired (s : SM) : Bool :=
  s.tx.txDrainStartMs != 0 &&
    decide (s.tx.txDrainDeadlineMs ≤ s.currentTimeMs - s.tx.txDrainStartMs)

/-- `enqueue_call_sequence_`. -/
def enqueueCallSequence (s : SM) : SM :=
  let q := s.seqs
  let s := s.transmitWords q.scanningSeq
  let s := s.transmitWords q.leadingSeq
  let s := s.transmitWords q.activeAmdFromSeq
  let s := s.transmitWords q.activeLqaCmdSeq
  let s := s.transmitWords q.activeLqaReportSeq
  let s := s.transmitWords q.activeAmdWords
  s.transmitWords q.conclusionSeq

/-- `no_link` of `build_ack_words` and `on_word_complete`. -/
def noLink (s : SM) : Bool := s.seqs.activeMessage.isAmd && !s.seqs.activeMessage.linkAfterSend

/-- `build_ack_words`. -/
def buildAckWords (s : SM) : SM :=
  (s.transmitWords (ack s.calling.toAddress s.selfAddress s.noLink)).armDrain txDrainTimeoutMs

/-- Insert `msg` before the first `TIS` or `TWAS` word. -/
def insertBeforeConclusion (base msg : List ALEWord) : List ALEWord :=
  let body := base.takeWhile fun w => w.type != .tis && w.type != .twas
  body ++ msg ++ base.drop body.length

/-- The words `build_response_words` sends. -/
def responseWords (s : SM) : List ALEWord :=
  let lqaSeq := if s.pend.pendingLqaCmdSet then lqaCmd s.pend.pendingLqaCmdRaw else []
  let reportSeq := if s.pend.pendingLqaReportSet then s.pend.pendingLqaReportSeq else []
  if s.hs.pendingReject ∨ (lqaSeq = [] ∧ reportSeq = []) then
    response s.hs.callerAddress s.selfAddress s.hs.pendingReject
  else
    insertBeforeConclusion (response s.hs.callerAddress s.selfAddress false) (lqaSeq ++ reportSeq)

/-- `build_response_words`. -/
def buildResponseWords (s : SM) : SM :=
  let words := s.responseWords
  let s := { s with pend := { s.pend with
    pendingLqaCmdSet := false, pendingLqaReportSet := false } }
  let s := s.transmitWords words
  s.armDrain s.scaledDrainMs

/-- Restart the call from LBT on channel `ch`. -/
def retryOn (s : SM) (ch : Channel) : SM :=
  let s := s.hopCalling [ch]
  { s with
    calling := { s.calling with
      callingPhase := .lbt, lbtStartMs := s.currentTimeMs, tuneStartMs := 0,
      firstCallTxMs := 0, callCycleCount := 0, callCyclesInPhase := 0, listeningStartMs := 0,
      responseToDetected := false, responseRxStartMs := 0, tlwwStartMs := 0, toAddress := [] }
    tx := { s.tx with wordsPending := 0 }
    stateEntryTimeMs := s.currentTimeMs }

/-- All channels are exhausted. -/
def noChannelsLeft (s : SM) : SM := ((s.operator .noChannelsLeft).processEvent .linkTimeout).1

/-- `++calling_channel_index`. -/
def nextChannelIndex (s : SM) : SM :=
  { s with calling := { s.calling with
    callingChannelIndex := s.calling.callingChannelIndex + 1 } }

/-- `try_next_calling_channel`. -/
def tryNextCallingChannel (s : SM) : SM :=
  match s.calling.callingChannels[s.calling.callingChannelIndex + 1]? with
  | some ch => s.nextChannelIndex.retryOn ch
  | none => s.nextChannelIndex.noChannelsLeft

/-- `compute_calling_timeout_ms`. -/
def computeCallingTimeoutMs (s : SM) : UInt32 :=
  calcCallingTimeoutMs {
    nChannels := if s.calling.callingChannels = [] then 1
      else UInt32.ofNat s.calling.callingChannels.length
    targetScanChannels := s.targetScanChannels
    leadingSeqWords := UInt32.ofNat s.seqs.leadingSeq.length
    conclusionWords := UInt32.ofNat s.seqs.conclusionSeq.length
    messageWords := UInt32.ofNat (s.seqs.activeAmdFromSeq.length + s.seqs.activeLqaCmdSeq.length
      + s.seqs.activeLqaReportSeq.length + s.seqs.activeAmdWords.length) }

/-- `check_link_timeout`. -/
def checkLinkTimeout (s : SM) : Bool :=
  match s.currentState with
  | .calling => s.computeCallingTimeoutMs < s.currentTimeMs - s.stateEntryTimeMs
  | .handshake => s.timing.twa < s.currentTimeMs - s.stateEntryTimeMs
  | .linked => max s.timing.twa linkTimeoutMs < s.currentTimeMs - s.lastWordTimeMs
  | _ => false

/-! ## Bursts -/

/-- **A burst counts its words, hands them over in order and touches nothing else.** -/
theorem transmitWords_eq (s : SM) (ws : List ALEWord) :
    s.transmitWords ws =
      { s with
        tx := { s.tx with wordsPending := s.tx.wordsPending + ws.length }
        out := s.out ++ ws.map fun w => .transmit (w.stamp s.currentTimeMs) } := by
  unfold transmitWords
  induction ws generalizing s with
  | nil => simp
  | cons w ws ih =>
    rw [List.foldl_cons, ih]
    simp only [transmitWord, emit, List.length_cons, List.map_cons, List.append_assoc,
      List.cons_append, List.nil_append, Nat.add_assoc, Nat.add_comm 1]
    rfl

end SM

/-- The words handed to the transmit callback among the callbacks fired. -/
def transmitted (out : List Output) : List ALEWord :=
  out.filterMap fun o => match o with
    | .transmit w => some w
    | _ => none

theorem transmitted_append (a b : List Output) :
    transmitted (a ++ b) = transmitted a ++ transmitted b := List.filterMap_append

theorem transmitted_map (ws : List ALEWord) (now : UInt32) :
    transmitted (ws.map fun w => .transmit (w.stamp now)) = ws.map (·.stamp now) := by
  unfold transmitted
  rw [List.filterMap_map]
  exact List.filterMap_eq_map_iff_forall_eq_some.mpr fun w _ => rfl

/-- The words of a calling frame in the order they are sent. -/
def CallSequences.callFrame (q : CallSequences) : List ALEWord :=
  q.scanningSeq ++ q.leadingSeq ++ q.activeAmdFromSeq ++ q.activeLqaCmdSeq ++
    q.activeLqaReportSeq ++ q.activeAmdWords ++ q.conclusionSeq

namespace SM

theorem transmitWords_append (s : SM) (ws vs : List ALEWord) :
    s.transmitWords (ws ++ vs) = (s.transmitWords ws).transmitWords vs :=
  List.foldl_append

/-- **The calling frame is one burst.** -/
theorem enqueueCallSequence_eq (s : SM) :
    s.enqueueCallSequence = s.transmitWords s.seqs.callFrame := by
  unfold enqueueCallSequence CallSequences.callFrame
  simp only [transmitWords_append]

end SM

end OpenALE
