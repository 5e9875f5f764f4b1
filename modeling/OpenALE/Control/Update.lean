import OpenALE.Control.Transmit

/-!
# `update`: the protocol-time half of the state machine

Model of `handle_scanning`, `handle_calling`, `handle_handshake`, `handle_linked`,
`handle_sounding` and `update`. Each phase of a `switch` is a definition of its own, so that a
change to one window touches one definition.
-/

namespace OpenALE

namespace SM

/-- `process_event(LINK_TIMEOUT)` where the source drops the result. -/
def linkTimeout (s : SM) : SM := (s.processEvent .linkTimeout).1

/-- `process_event(LINK_TERMINATED)`. -/
def linkTerminated (s : SM) : SM := (s.processEvent .linkTerminated).1

/-- `process_event(HANDSHAKE_COMPLETE)` with the operator notified first. -/
def linkEstablished (s : SM) : SM :=
  ((s.operator .linkEstablished).processEvent .handshakeComplete).1

/-! ## `handle_scanning` -/

/-- `handle_scanning`. -/
def handleScanning (s : SM) (env : Env) : SM :=
  if s.scan.scanningPhase = .scanPause then
    if tdrwMs ≤ s.currentTimeMs - s.scan.scanPauseSettleMs then
      let s := s.setChannels (s.channelManager.hopNext s.currentTimeMs)
      { s with scan := { s.scan with scanningPhase := .hopping } }
    else s
  else
    let ready := env.hopReady
    let s := if ready ∧ ¬ s.scan.prevHopReady then
        s.setManager (s.channelManager.anchorDwell s.currentTimeMs)
      else s
    let s := { s with scan := { s.scan with prevHopReady := ready } }
    if s.channelManager.checkDwellTimeout s.currentTimeMs ∧ ready then
      s.setChannels (s.channelManager.hopNext s.currentTimeMs)
    else s

/-! ## `handle_calling` -/

/-- `LBT`. -/
def handleCallingLbt (s : SM) (env : Env) : SM :=
  if s.lbtChannelBusy env then s.tryNextCallingChannel
  else if s.effectiveTwtMs ≤ s.currentTimeMs - s.calling.lbtStartMs then
    let s := { s with calling := { s.calling with
      callingPhase := .tuning, tuneStartMs := s.currentTimeMs } }
    s.rxEnabled false
  else s

/-- The phase `TUNING` ends in. -/
def firstTxPhase (s : SM) : CallingPhase :=
  if s.calling.activeCallIsGroup ∧ 0 < s.targetScanChannels then .groupScanningCall
  else if 0 < s.targetScanChannels then .scanningCall
  else .leadingCall

/-- `TUNING`. -/
def handleTuning (s : SM) : SM :=
  if s.timing.tt ≤ s.currentTimeMs - s.calling.tuneStartMs then
    let s := { s with calling := { s.calling with
      firstCallTxMs := s.currentTimeMs, callCyclesInPhase := 0, callingPhase := s.firstTxPhase } }
    s.enqueueCallSequence
  else s

/-- `LISTENING`. -/
def handleListening (s : SM) : SM :=
  if ¬ s.calling.responseToDetected then
    if listeningResponseWaitMs ≤ s.currentTimeMs - s.calling.listeningStartMs then
      s.tryNextCallingChannel
    else s
  else if s.calling.tlwwStartMs = 0 then
    if 5 * trwMs ≤ s.currentTimeMs - s.lastWordTimeMs then s.tryNextCallingChannel
    else s
  else if tdrwMs ≤ s.currentTimeMs - s.calling.tlwwStartMs then
    let s := { s with calling := { s.calling with
      callingPhase := .sendingAck, callCyclesInPhase := 0, collectingRemoteConclusion := false } }
    s.rxEnabled false
  else s

/-- `SENDING_ACK`. -/
def handleSendingAck (s : SM) : SM :=
  if 0 < s.tx.wordsPending then
    if s.drainExpired then
      let s := { s with tx := { s.tx with txDrainStartMs := 0 } }
      s.linkTimeout
    else s
  else if s.calling.callCyclesInPhase = 0 then s.buildAckWords
  else s

/-- `handle_calling`. -/
def handleCalling (s : SM) (env : Env) : SM :=
  match s.calling.callingPhase with
  | .lbt => s.handleCallingLbt env
  | .tuning => s.handleTuning
  | .scanningCall | .groupScanningCall | .leadingCall | .conclusion => s
  | .listening => s.handleListening
  | .sendingAck => s.handleSendingAck

/-! ## `handle_handshake` -/

/-- `WAIT_CYCLE_END`. -/
def handleWaitCycleEnd (s : SM) : SM :=
  if ¬ s.hs.hsConclusionRcvd ∧ s.hs.twceMs ≤ s.currentTimeMs - s.lastWordTimeMs then
    s.linkTimeout
  else if ¬ s.hs.hsConclusionRcvd ∧ 0 < s.hs.hsMessageStartMs ∧
      tmMaxMs ≤ s.currentTimeMs - s.hs.hsMessageStartMs then
    s.linkTimeout
  else if s.hs.hsConclusionRcvd ∧ 0 < s.hs.hsTlwwStartMs ∧
      tdrwMs ≤ s.currentTimeMs - s.hs.hsTlwwStartMs then
    if s.hs.hsConclusionIsTwas then s.linkTimeout
    else if s.hs.allcallSilent then
      let s := { s with link := { s.link with activeCallTo := s.hs.callerAddress } }
      s.linkEstablished
    else
      { s with hs := { s.hs with
        handshakePhase := .slotWait, slotWaitStartMs := s.currentTimeMs } }
  else s

/-- `AWAIT_ACCEPT`, no longer entered. -/
def handleAwaitAccept (s : SM) : SM :=
  { s with hs := { s.hs with handshakePhase := .slotWait, slotWaitStartMs := s.currentTimeMs } }

/-- `SLOT_WAIT`. -/
def handleSlotWait (s : SM) : SM :=
  if s.hs.tswtMs ≤ s.currentTimeMs - s.hs.slotWaitStartMs then
    { s with hs := { s.hs with
      handshakePhase := .channelCheck, hsLbtStartMs := s.currentTimeMs } }
  else s

/-- `CHANNEL_CHECK`. -/
def handleChannelCheck (s : SM) (env : Env) : SM :=
  if s.lbtChannelBusy env then s.linkTimeout
  else if tdrwMs ≤ s.currentTimeMs - s.hs.hsLbtStartMs then
    let s := s.rxEnabled false
    let s := { s with hs := { s.hs with handshakePhase := .sendingResponse, hsWordsInPhase := 0 } }
    s.buildResponseWords
  else s

/-- `SENDING_RESPONSE`. -/
def handleSendingResponse (s : SM) : SM :=
  if s.drainExpired then
    let s := { s with tx := { s.tx with txDrainStartMs := 0 } }
    s.linkTimeout
  else s

/-- `WAIT_ACK`. -/
def handleWaitAck (s : SM) : SM :=
  if s.hs.hsAckToMs = 0 ∧ waitAckStartWaitMs ≤ s.currentTimeMs - s.hs.hsAckStartMs then
    s.linkTimeout
  else if s.hs.hsAckToMs ≠ 0 ∧ ¬ s.hs.hsAckTisRcvd ∧
      5 * trwMs ≤ s.currentTimeMs - s.lastWordTimeMs then
    s.linkTimeout
  else if s.hs.hsAckTisRcvd ∧ 0 < s.hs.hsTlwwStartMs ∧
      tdrwMs ≤ s.currentTimeMs - s.hs.hsTlwwStartMs then
    s.linkEstablished
  else s

/-- `handle_handshake`. -/
def handleHandshake (s : SM) (env : Env) : SM :=
  match s.hs.handshakePhase with
  | .waitCycleEnd => s.handleWaitCycleEnd
  | .awaitAccept => s.handleAwaitAccept
  | .slotWait => s.handleSlotWait
  | .channelCheck => s.handleChannelCheck env
  | .sendingResponse => s.handleSendingResponse
  | .waitAck => s.handleWaitAck

/-! ## `handle_linked` -/

/-- `linked_amd_retry_or_fail_`. -/
def linkedAmdRetryOrFail (s : SM) : SM :=
  if 1 < s.amd.linkedAmdAttemptsLeft then
    let s := { s with
      amd := { s.amd with
        linkedAmdAttemptsLeft := s.amd.linkedAmdAttemptsLeft - 1, linkedAmdListenStartMs := 0,
        linkedAmdRespDetected := false, linkedAmdRespTlwwMs := 0, linkedAmdRetryPending := true,
        linkedAmdRetryAfterMs := s.currentTimeMs + ttNextTryMs }
      lastWordTimeMs := s.currentTimeMs }
    s.operator .amdRetry
  else
    let s := { s with amd := { s.amd with
      linkedAmdPhase := .none, linkedAmdListenStartMs := 0 } }
    s.operator .amdNotDelivered

/-- `handle_linked_amd_listening_`. -/
def handleLinkedAmdListening (s : SM) : SM :=
  if ¬ s.amd.linkedAmdRespDetected then
    if listeningResponseWaitMs ≤ s.currentTimeMs - s.amd.linkedAmdListenStartMs then
      s.linkedAmdRetryOrFail
    else s
  else if s.amd.linkedAmdRespTlwwMs = 0 then
    if 5 * trwMs ≤ s.currentTimeMs - s.lastWordTimeMs then s.linkedAmdRetryOrFail
    else s
  else if tdrwMs ≤ s.currentTimeMs - s.amd.linkedAmdRespTlwwMs then
    { s with
      amd := { s.amd with linkedAmdPhase := .sendingAck, linkedAmdListenStartMs := 0 }
      ow := { s.ow with
        pendingOrderwireWords := leadingCall s.amd.linkedAmdPeer, orderwireDoubleBurst := false,
        orderwirePending := true }
      lastWordTimeMs := s.currentTimeMs }
  else s

/-- End of the linked-AMD exchange on the receiving side. -/
def endLinkedAmd (s : SM) : SM := { s with amd := { s.amd with linkedAmdPhase := .none } }

/-- `handle_linked_amd_wait_ack_`. -/
def handleLinkedAmdWaitAck (s : SM) : SM :=
  if ¬ s.amd.linkedAmdAckToDetected then
    if waitAckStartWaitMs ≤ s.currentTimeMs - s.amd.linkedAmdAckStartMs then s.endLinkedAmd
    else s
  else if ¬ s.amd.linkedAmdAckTisRcvd then
    if 5 * trwMs ≤ s.currentTimeMs - s.lastWordTimeMs then s.endLinkedAmd
    else s
  else if s.amd.linkedAmdAckTlwwMs ≠ 0 ∧
      tdrwMs ≤ s.currentTimeMs - s.amd.linkedAmdAckTlwwMs then
    s.endLinkedAmd
  else s

/-- The TX-drain safety net of `handle_linked`, once it has expired. -/
def linkedDrainTimeout (s : SM) : SM :=
  if s.link.linkedTerminating then
    let s := { s with
      link := { s.link with linkedTerminating := false }
      tx := { s.tx with txDrainStartMs := 0 } }
    let s := s.rxEnabled true
    s.linkTerminated
  else
    let s := { s with
      ow := { s.ow with orderwireTransmitting := false }
      tx := { s.tx with txDrainStartMs := 0 } }
    s.rxEnabled true

/-- The words of the orderwire burst: the queued words and `TIS` self, twice for a double burst. -/
def orderwireBurst (s : SM) : List ALEWord :=
  let tx := s.ow.pendingOrderwireWords ++ conclusion s.selfAddress false
  if s.ow.orderwireDoubleBurst then tx ++ tx else tx

/-- Start of a pending orderwire burst. -/
def startOrderwire (s : SM) : SM :=
  let words := s.orderwireBurst
  let s := { s with ow := { s.ow with orderwirePending := false, orderwireTransmitting := true } }
  let s := s.rxEnabled false
  let s := s.transmitWords words
  s.armDrain s.scaledDrainMs

/-- Requeue the burst once the retry gap has passed. -/
def handleLinkedAmdRetry (s : SM) : SM :=
  if s.amd.linkedAmdRetryAfterMs ≤ s.currentTimeMs then
    { s with
      amd := { s.amd with linkedAmdRetryPending := false }
      ow := { s.ow with
        pendingOrderwireWords := s.amd.linkedAmdBurst, orderwireDoubleBurst := false,
        orderwirePending := true }
      lastWordTimeMs := s.currentTimeMs }
  else s

/-- The idle warning is re-armed when `last_word_time_ms` has moved. -/
def rearmIdleWarning (s : SM) : SM :=
  if s.lastWordTimeMs ≠ s.link.lastSeenWordTimeMs then
    { s with link := { s.link with
      lastSeenWordTimeMs := s.lastWordTimeMs, idleWarningSent := false } }
  else s

/-- `warn_at`: `Twa` less the lead time, which a short `Twa` halves. -/
def idleWarnAt (s : SM) : UInt32 :=
  let leadMs := min idleWarningLeadMs (s.timing.twa / 2)
  if leadMs < s.timing.twa then s.timing.twa - leadMs else 0

/-- `remaining_sec`. -/
def idleRemainingSec (s : SM) : UInt32 :=
  let idleMs := s.currentTimeMs - s.lastWordTimeMs
  if idleMs < s.timing.twa then (s.timing.twa - idleMs) / 1000 else 0

/-- The idle warning: re-arm on activity, fire once when the link has been idle for `warn_at`. -/
def idleWarning (s : SM) : SM :=
  let s := s.rearmIdleWarning
  if ¬ s.link.linkedTerminating ∧ ¬ s.link.idleWarningSent ∧
      s.idleWarnAt ≤ s.currentTimeMs - s.lastWordTimeMs then
    let s := { s with link := { s.link with idleWarningSent := true } }
    s.emit (.idleWarning s.idleRemainingSec)
  else s

/-- The `Twa` inactivity timeout. -/
def twaTimeout (s : SM) : SM :=
  if s.timing.twa ≤ s.currentTimeMs - s.lastWordTimeMs then
    let s := { s with link := { s.link with linkedTerminating := true } }
    let s := if s.link.activeCallTo ≠ [] ∧ s.selfAddress ≠ [] then
        s.transmitWords (termination s.link.activeCallTo s.selfAddress)
      else s
    s.linkTimeout
  else s

/-- `handle_linked` from the orderwire block on. -/
def handleLinkedActive (s : SM) : SM :=
  if s.ow.orderwireTransmitting then s
  else if s.ow.orderwirePending then s.startOrderwire
  else if s.amd.linkedAmdRetryPending then s.handleLinkedAmdRetry
  else if s.amd.linkedAmdPhase = .listening ∧ s.amd.linkedAmdListenStartMs ≠ 0 then
    s.handleLinkedAmdListening
  else if s.amd.linkedAmdPhase = .waitAck then s.handleLinkedAmdWaitAck
  else s.idleWarning.twaTimeout

/-- A peer `TWAS` conclusion has been silent for `Tdrw`. -/
def twasSettled (s : SM) : Bool :=
  s.link.linkedTwasAddr ≠ [] && decide (tdrwMs ≤ s.currentTimeMs - s.link.linkedTwasLastMs)

/-- `handle_linked`. -/
def handleLinked (s : SM) : SM :=
  if (s.link.linkedTerminating || s.ow.orderwireTransmitting) && s.drainExpired then
    s.linkedDrainTimeout
  else if s.link.linkedTerminating then s
  else if s.twasSettled then
    let addr := s.link.linkedTwasAddr
    let s := { s with link := { s.link with linkedTwasAddr := [] } }
    if addr = s.link.activeCallTo then s.linkTerminated
    else s.handleLinkedActive
  else s.handleLinkedActive

/-! ## `handle_sounding` -/

/-- `process_event(SOUNDING_COMPLETE)`. -/
def endSounding (s : SM) : SM := (s.processEvent .soundingComplete).1

/-- The words of a sounding: the conclusion `n + 2` times and a pending `CMD NOISE`. -/
def soundingWords (s : SM) : List ALEWord :=
  let n := s.targetScanChannels.toNat
  let reps := if 0 < n then n + 2 else 2
  let tx := (List.replicate reps (conclusion s.selfAddress s.snd.soundingUseTwas)).flatten
  if s.pend.pendingNoiseCmdSet then tx ++ [cmdWord 'n' s.pend.pendingNoiseCmdRaw] else tx

/-- The channel is clear: sound, or end at once without a callsign. -/
def startSounding (s : SM) : SM :=
  let s := { s with snd := { s.snd with soundingPhase := .transmitting } }
  if s.selfAddress ≠ [] then
    let s := s.rxEnabled false
    let words := s.soundingWords
    let s := { s with pend := { s.pend with pendingNoiseCmdSet := false } }
    s.transmitWords words
  else s.endSounding

/-- `LBT` of a sounding. -/
def handleSoundingLbt (s : SM) (env : Env) : SM :=
  if s.lbtChannelBusy env then s.endSounding
  else if s.effectiveTwtMs ≤ s.currentTimeMs - s.snd.soundingLbtStartMs then s.startSounding
  else s

/-- Open the return-call window of a sounding. -/
def openSoundingWindow (s : SM) : SM :=
  let s := { s with snd := { s.snd with
    soundingPhase := .listening, soundingListeningStartMs := s.currentTimeMs } }
  s.rxEnabled true

/-- The fallback of `handle_sounding`: nothing was queued. -/
def openIfDrained (s : SM) : SM :=
  if s.snd.soundingPhase = .transmitting ∧ s.tx.wordsPending = 0 then s.openSoundingWindow else s

/-- `handle_sounding`. -/
def handleSounding (s : SM) (env : Env) : SM :=
  if s.snd.soundingPhase = .lbt then s.handleSoundingLbt env
  else
    let s := s.openIfDrained
    if s.snd.soundingPhase = .transmitting then s
    else if trwMs < s.currentTimeMs - s.snd.soundingListeningStartMs then s.endSounding
    else s

/-! ## `update` -/

/-- The per-state handler. -/
def handle (s : SM) (env : Env) : SM :=
  match s.currentState with
  | .scanning => s.handleScanning env
  | .calling => s.handleCalling env
  | .handshake => s.handleHandshake env
  | .linked => s.handleLinked
  | .sounding => s.handleSounding env
  | _ => s

/-- The AllCall drain safety net, once it has expired. -/
def allcallDrainTimeout (s : SM) : SM :=
  let s := { s with
    allcallBroadcasting := false
    tx := { s.tx with txDrainStartMs := 0, wordsPending := 0 } }
  s.rxEnabled true

/-- `update` after the clock has moved. -/
def tick (s : SM) (env : Env) : SM :=
  if s.checkLinkTimeout then s.linkTimeout
  else if s.allcallBroadcasting && s.drainExpired then s.allcallDrainTimeout
  else s.handle env

/-- `update`: a backward clock is held. -/
def update (s : SM) (now : UInt32) (env : Env) : SM :=
  if 0x80000000 ≤ now - s.currentTimeMs then s
  else tick { s with currentTimeMs := now } env

end SM

end OpenALE
