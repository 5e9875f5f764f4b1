import OpenALE.Control.Receive

/-!
# `on_word_complete`

Model of `on_word_complete` in `ale_state_machine.cpp`: one rendered symbol frame. Each branch of
the source is a definition of its own, tried in the source's order.
-/

namespace OpenALE

namespace SM

/-- `if (words_pending > 0) --words_pending`. -/
def popWord (s : SM) : SM :=
  { s with tx := { s.tx with wordsPending := s.tx.wordsPending - 1 } }

/-- The termination frame in `LINKED`. -/
def completeTermination (s : SM) : SM :=
  let s := s.popWord
  if s.tx.wordsPending = 0 then
    let s := { s with
      link := { s.link with linkedTerminating := false }
      tx := { s.tx with txDrainStartMs := 0 } }
    s.linkTerminated
  else s

/-- The linked-AMD hand-off once a burst has drained. -/
def amdHandOff (s : SM) : SM :=
  match s.amd.linkedAmdPhase with
  | .listening =>
    { s with
      amd := { s.amd with
        linkedAmdListenStartMs := s.currentTimeMs, linkedAmdRespDetected := false,
        linkedAmdRespTlwwMs := 0 }
      lastWordTimeMs := s.currentTimeMs }
  | .responding =>
    { s with
      amd := { s.amd with
        linkedAmdPhase := .waitAck, linkedAmdAckStartMs := s.currentTimeMs,
        linkedAmdAckToDetected := false, linkedAmdAckTisRcvd := false, linkedAmdAckTlwwMs := 0 }
      lastWordTimeMs := s.currentTimeMs }
  | .sendingAck =>
    let s := { s with amd := { s.amd with linkedAmdPhase := .none } }
    s.operator .amdDelivered
  | _ => s

/-- The orderwire burst in `LINKED`. -/
def completeOrderwire (s : SM) : SM :=
  let s := s.popWord
  if s.tx.wordsPending = 0 then
    let s := { s with
      ow := { s.ow with orderwireTransmitting := false }
      tx := { s.tx with txDrainStartMs := 0 } }
    let s := s.rxEnabled true
    s.amdHandOff
  else s

/-- `SOUNDING`. -/
def completeSounding (s : SM) : SM :=
  let s := s.popWord
  if s.tx.wordsPending = 0 ∧ s.snd.soundingPhase = .transmitting then s.openSoundingWindow else s

/-- The AllCall broadcast. -/
def completeAllcall (s : SM) : SM :=
  let s := s.popWord
  if s.tx.wordsPending = 0 then
    let s := { s with allcallBroadcasting := false, tx := { s.tx with txDrainStartMs := 0 } }
    s.rxEnabled true
  else s

/-- `call_cycles_in_phase` has reached `slots`: go to `next`. -/
def advanceAfter (s : SM) (slots : Nat) (next : CallingPhase) : SM :=
  if slots ≤ s.calling.callCyclesInPhase then
    { s with calling := { s.calling with callingPhase := next, callCyclesInPhase := 0 } }
  else s

/-- `tlc_slots`. -/
def tlcSlots (s : SM) : Nat :=
  s.seqs.leadingSeq.length + s.seqs.activeAmdFromSeq.length + s.seqs.activeLqaCmdSeq.length +
    s.seqs.activeLqaReportSeq.length + s.seqs.activeAmdWords.length

/-- `CONCLUSION`: the last slot opens the receiver and starts `LISTENING`. -/
def completeConclusion (s : SM) : SM :=
  if s.seqs.conclusionSeq.length ≤ s.calling.callCyclesInPhase then
    let s := { s with calling := { s.calling with
      callingPhase := .listening, listeningStartMs := s.currentTimeMs, callCyclesInPhase := 0 } }
    s.rxEnabled true
  else s

/-- `SENDING_ACK`: the link decision when the frame has drained. -/
def completeAck (s : SM) : SM :=
  if s.tx.wordsPending = 0 then
    if s.noLink then s.amdDeclined .amdSentNoLink
    else s.linkEstablished
  else s

/-- One more slot completed. -/
def countCycle (s : SM) : SM :=
  { s with calling := { s.calling with
    callCycleCount := s.calling.callCycleCount + 1
    callCyclesInPhase := s.calling.callCyclesInPhase + 1 } }

/-- The `switch` over `calling_phase`. -/
def completeCallingPhase (s : SM) : SM :=
  match s.calling.callingPhase with
  | .scanningCall => s.advanceAfter (s.targetScanChannels * 2).toNat .leadingCall
  | .groupScanningCall => s.advanceAfter s.seqs.groupScanSeq.length .leadingCall
  | .leadingCall => s.advanceAfter s.tlcSlots .conclusion
  | .conclusion => s.completeConclusion
  | .sendingAck => s.completeAck
  | _ => s

/-- `CALLING`. -/
def completeCalling (s : SM) : SM :=
  if s.tx.wordsPending = 0 then s else s.popWord.countCycle.completeCallingPhase

/-- `++hs_words_in_phase`. -/
def countHsWord (s : SM) : SM :=
  { s with hs := { s.hs with hsWordsInPhase := s.hs.hsWordsInPhase + 1 } }

/-- The response frame has drained: a rejection is over, an acceptance waits for the ACK. -/
def responseDone (s : SM) : SM :=
  if s.hs.pendingReject then linkTimeout { s with hs := { s.hs with pendingReject := false } }
  else
    let s := { s with hs := { s.hs with
      handshakePhase := .waitAck, hsAckStartMs := s.currentTimeMs, hsAckToMs := 0,
      hsTlwwStartMs := 0, hsAckTisRcvd := false } }
    s.rxEnabled true

/-- `HANDSHAKE` in `SENDING_RESPONSE`. -/
def completeResponse (s : SM) : SM :=
  if s.tx.wordsPending = 0 then s
  else
    let s := s.popWord.countHsWord
    if s.tx.wordsPending = 0 then s.responseDone else s

/-- `on_word_complete`. -/
def onWordComplete (s : SM) : SM :=
  if s.currentState = .linked ∧ s.link.linkedTerminating then s.completeTermination
  else if s.currentState = .linked ∧ s.ow.orderwireTransmitting then s.completeOrderwire
  else if s.currentState = .sounding then s.completeSounding
  else if s.allcallBroadcasting then s.completeAllcall
  else if s.currentState = .calling then s.completeCalling
  else if s.currentState = .handshake ∧ s.hs.handshakePhase = .sendingResponse then
    s.completeResponse
  else s

end SM

end OpenALE
