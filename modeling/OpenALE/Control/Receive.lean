import OpenALE.Control.Update

/-!
# Received words: `ALECallProcessor`

Model of `src/Protocol/Control/ale_call_processor.cpp`: a received word is classified against the
machine's state and self address (`classify`) and the state reacts to its role. `update_lqa` files
one sample per valid word; its heuristic channel score is a float nothing here reads.
-/

namespace OpenALE

/-- `WordRole`, with the trimmed address its branch stores. -/
inductive WordRole where
  | none
  | channelBusy
  | dataExtension (address : Str)
  | allcall (address : Str)
  | toSelf (address : Str)
  | tisCaller (address : Str)
  | twasWord (address : Str)
  deriving Repr, DecidableEq

/-- `is_allcall_address_`: the global `@?@` or a selective `@x@` whose `x` ends `self`. -/
def isAllcallAddress (addr self : Str) : Bool :=
  match addr with
  | '@' :: c :: _ => c != '@' && (c == '?' || self.getLast? == some c)
  | _ => false

/-- `MAX_GOLAY_ERRORS`. -/
abbrev maxGolayErrors : Nat := 3

/-- `LinkQuality` without its floats. -/
structure LinkQuality where
  fecErrors : Nat := 0
  nonUnanimousCount : Nat := 0
  golayUncorrectable : Bool := false
  timestampMs : UInt32 := 0
  deriving Repr, DecidableEq

namespace SM

/-! ## `classify` -/

/-- `lbt_active`: every valid word means the channel is busy. -/
def lbtActive (s : SM) : Bool :=
  (s.currentState == .handshake && s.hs.handshakePhase == .channelCheck) ||
    (s.currentState == .sounding && s.snd.soundingPhase == .lbt)

/-- `collecting`: a conclusion's `DATA`/`REP` extensions are expected. -/
def collecting (s : SM) : Bool :=
  (s.currentState == .calling && s.calling.collectingRemoteConclusion) ||
    (s.currentState == .handshake && (s.hs.hsConclusionRcvd || s.hs.hsAckTisRcvd)) ||
    (s.currentState == .linked && s.link.linkedTwasAddr != [])

/-- `expected`: the caller a handshake is locked onto, by its first three characters. -/
def expectedCaller (s : SM) : Str :=
  if s.currentState = .handshake then s.hs.callerAddress.take 3 else []

/-- `classify`. -/
def classify (s : SM) (word : ALEWord) : WordRole :=
  let addr := trimAleAddress word.address
  if s.lbtActive then .channelBusy
  else if s.collecting && word.type.isExt then .dataExtension addr
  else if word.type == .to && isAllcallAddress addr s.selfAddress then .allcall addr
  else if word.type == .to && addr != [] && addr.isPrefixOf s.selfAddress then .toSelf addr
  else if word.type == .tis then
    if s.expectedCaller = [] ∨ addr = s.expectedCaller then .tisCaller addr else .none
  else if word.type == .twas then .twasWord addr
  else .none

/-! ## Reactions -/

/-- `process_event(CALL_DETECTED)`. -/
def callDetected (s : SM) : SM := (s.processEvent .callDetected).1

/-- `process_event(AMD_DECLINED_LINK)` with the operator notified first. -/
def amdDeclined (s : SM) (e : OperatorEvent) : SM :=
  ((s.operator e).processEvent .amdDeclinedLink).1

/-- One more contiguous error; too many end the handshake. -/
def countError (s : SM) : SM :=
  let s := { s with hs := { s.hs with contiguousErrors := s.hs.contiguousErrors + 1 } }
  if maxScanningCallErrors < s.hs.contiguousErrors then s.linkTimeout else s

/-- `on_invalid_word_`. -/
def onInvalidWord (s : SM) : SM :=
  match s.currentState with
  | .sounding => if s.snd.soundingPhase = .lbt then s.endSounding else s
  | .handshake =>
    match s.hs.handshakePhase with
    | .waitCycleEnd => s.countError
    | .channelCheck => s.linkTimeout
    | _ => s
  | _ => s

/-- `detect_incoming_call_`. -/
def detectIncomingCall (s : SM) (r : WordRole) : SM :=
  match r with
  | .toSelf a => callDetected { s with link := { s.link with activeCallTo := a } }
  | .allcall _ => callDetected { s with hs := { s.hs with allcallSilent := true } }
  | _ => s

/-- `react_idle_`. -/
def reactIdle (s : SM) (r : WordRole) : SM := s.detectIncomingCall r

/-- `react_scanning_`. -/
def reactScanning (s : SM) (r : WordRole) : SM :=
  let s := s.detectIncomingCall r
  if s.currentState ≠ .scanning then s
  else { s with scan := { s.scan with
    scanningPhase := .scanPause, scanPauseSettleMs := s.currentTimeMs } }

/-- `react_calling_` in `LISTENING`. -/
def reactListening (s : SM) (r : WordRole) : SM :=
  match r with
  | .toSelf _ =>
    if s.calling.responseToDetected then s
    else { s with calling := { s.calling with
      responseToDetected := true, responseRxStartMs := s.currentTimeMs } }
  | .tisCaller a =>
    if s.calling.responseToDetected ∧ s.calling.tlwwStartMs = 0 then
      { s with
        calling := { s.calling with
          toAddress := a, tlwwStartMs := s.currentTimeMs, collectingRemoteConclusion := true }
        link := { s.link with activeCallFrom := a } }
    else s
  | .dataExtension a =>
    if s.calling.collectingRemoteConclusion then
      { s with
        calling := { s.calling with
          toAddress := s.calling.toAddress ++ a, tlwwStartMs := s.currentTimeMs }
        link := { s.link with activeCallFrom := s.calling.toAddress ++ a } }
    else s
  | .twasWord _ => (s.operator .callRejected).linkTimeout
  | _ => s

/-- `react_calling_`. -/
def reactCalling (s : SM) (r : WordRole) : SM :=
  if s.calling.callingPhase ≠ .listening then s else s.reactListening r

/-- `react_handshake_` in `WAIT_CYCLE_END`. -/
def reactWaitCycleEnd (s : SM) (r : WordRole) (word : ALEWord) : SM :=
  match r with
  | .tisCaller a =>
    if s.hs.hsConclusionRcvd then s
    else { s with
      hs := { s.hs with
        callerAddress := a, hsConclusionRcvd := true, hsTlwwStartMs := s.currentTimeMs }
      link := { s.link with activeCallFrom := a } }
  | .dataExtension a =>
    { s with
      hs := { s.hs with
        callerAddress := s.hs.callerAddress ++ a, hsTlwwStartMs := s.currentTimeMs }
      link := { s.link with activeCallFrom := s.hs.callerAddress ++ a } }
  | .twasWord a =>
    if s.hs.hsConclusionRcvd then s
    else { s with
      hs := { s.hs with
        callerAddress := a, hsConclusionRcvd := true, hsConclusionIsTwas := true,
        hsTlwwStartMs := s.currentTimeMs }
      link := { s.link with activeCallFrom := a } }
  | .none =>
    if ¬ s.hs.hsConclusionRcvd ∧ word.type.isExt ∧ s.hs.hsMessageStartMs = 0 then
      { s with hs := { s.hs with hsMessageStartMs := s.currentTimeMs } }
    else s
  | _ => s

/-- `react_handshake_` in `WAIT_ACK`. -/
def reactWaitAck (s : SM) (r : WordRole) : SM :=
  match r with
  | .toSelf _ =>
    if s.hs.hsAckToMs = 0 then { s with hs := { s.hs with hsAckToMs := s.currentTimeMs } } else s
  | .tisCaller _ =>
    if s.hs.hsAckTisRcvd then s
    else { s with hs := { s.hs with hsAckTisRcvd := true, hsTlwwStartMs := s.currentTimeMs } }
  | .dataExtension _ =>
    { s with hs := { s.hs with
      hsAckToMs := if s.hs.hsAckToMs = 0 then s.currentTimeMs else s.hs.hsAckToMs
      hsTlwwStartMs := s.currentTimeMs } }
  | .twasWord _ => s.amdDeclined .amdReceivedNoLink
  | _ => s

/-- `react_handshake_`. -/
def reactHandshake (s : SM) (r : WordRole) (word : ALEWord) : SM :=
  if r = .channelBusy then s.linkTimeout
  else match s.hs.handshakePhase with
    | .waitCycleEnd => s.reactWaitCycleEnd r word
    | .waitAck => s.reactWaitAck r
    | _ => s

/-- `react_linked_amd_confirm_`. -/
def reactLinkedAmdConfirm (s : SM) (r : WordRole) : SM :=
  match s.amd.linkedAmdPhase, r with
  | .listening, .toSelf _ => { s with amd := { s.amd with linkedAmdRespDetected := true } }
  | .listening, .tisCaller _ =>
    if s.amd.linkedAmdRespDetected ∧ s.amd.linkedAmdRespTlwwMs = 0 then
      { s with amd := { s.amd with linkedAmdRespTlwwMs := s.currentTimeMs } }
    else s
  | .listening, .dataExtension _ =>
    if s.amd.linkedAmdRespTlwwMs ≠ 0 then
      { s with amd := { s.amd with linkedAmdRespTlwwMs := s.currentTimeMs } }
    else s
  | .waitAck, .toSelf _ => { s with amd := { s.amd with linkedAmdAckToDetected := true } }
  | .waitAck, .tisCaller _ =>
    if s.amd.linkedAmdAckTisRcvd then s
    else { s with amd := { s.amd with
      linkedAmdAckTisRcvd := true, linkedAmdAckTlwwMs := s.currentTimeMs } }
  | .waitAck, .dataExtension _ =>
    if s.amd.linkedAmdAckTisRcvd then
      { s with amd := { s.amd with linkedAmdAckTlwwMs := s.currentTimeMs } }
    else s
  | _, _ => s

/-- The `LINKED` branch of `process_received_word`: arm, extend or void a peer `TWAS`. -/
def reactLinked (s : SM) (r : WordRole) : SM :=
  match r with
  | .twasWord a =>
    if a ≠ [] ∧ a.isPrefixOf s.link.activeCallTo then
      { s with link := { s.link with linkedTwasAddr := a, linkedTwasLastMs := s.currentTimeMs } }
    else { s with link := { s.link with linkedTwasAddr := [] } }
  | .dataExtension a =>
    if s.link.linkedTwasAddr ≠ [] then
      if s.currentTimeMs - s.link.linkedTwasLastMs ≤ 2 * trwMs then
        { s with link := { s.link with
          linkedTwasAddr := s.link.linkedTwasAddr ++ a, linkedTwasLastMs := s.currentTimeMs } }
      else s
    else s.reactLinkedAmdConfirm r
  | _ => s.reactLinkedAmdConfirm r

/-- The `SOUNDING` branch of `process_received_word`. -/
def reactSounding (s : SM) (r : WordRole) : SM :=
  if r = .channelBusy then s.endSounding
  else if s.snd.soundingPhase = .listening then s.detectIncomingCall r
  else s

/-! ## `process_received_word` -/

/-- `update_lqa`: file a sample for the station heard, in `HANDSHAKE` and `LINKED`. -/
def updateLqa (s : SM) (lq : LinkQuality) : SM :=
  if s.link.activeCallFrom ≠ [] ∧ (s.currentState = .handshake ∨ s.currentState = .linked) then
    s.emit (.lqaSample {
      frequencyHz := (s.channelManager.current.map (·.rxFrequencyHz)).getD 0
      station := s.link.activeCallFrom
      nonUnanimousCount := lq.nonUnanimousCount
      golayUncorrectable := lq.golayUncorrectable
      fecErrorsCorrected := lq.fecErrors
      decodeSuccess := lq.fecErrors ≤ maxGolayErrors
      timestampMs := lq.timestampMs })
  else s

/-- The `LinkQuality` of a received word. -/
def wordQuality (s : SM) (word : ALEWord) : LinkQuality :=
  { fecErrors := word.fecErrors
    nonUnanimousCount := if word.golayUncorrectable then 48 else 48 - word.unanimousVotes
    golayUncorrectable := word.golayUncorrectable
    timestampMs := s.currentTimeMs }

/-- The reaction of the current state to a word's role. -/
def react (s : SM) (r : WordRole) (word : ALEWord) : SM :=
  match s.currentState with
  | .idle => s.reactIdle r
  | .scanning => s.reactScanning r
  | .calling => s.reactCalling r
  | .handshake => s.reactHandshake r word
  | .linked => s.reactLinked r
  | .sounding => s.reactSounding r
  | .error => s

/-- `process_received_word`. -/
def processReceivedWord (s : SM) (word : ALEWord) : SM :=
  if ¬ word.valid then s.onInvalidWord
  else
    let s := { s with
      hs := { s.hs with contiguousErrors := 0 }, lastWordTimeMs := s.currentTimeMs }
    let s := s.updateLqa (s.wordQuality word)
    s.react (s.classify word) word

end SM

end OpenALE
