import OpenALE.Control.Complete

/-!
# The public operations

Model of the public API of `ALEStateMachine` and of the two rules by which `ALEController` picks
the station of a link (`active_peer`, `commit_rx_ber_sample`). `accept_call`, `reject_call` and
`set_require_explicit_accept` do nothing in the source and are left out.
-/

namespace OpenALE

namespace SM

/-! ## Calls -/

/-- `IDLE` or `SCANNING`: where a call, a sounding or a broadcast may start. -/
def available (s : SM) : Bool := s.currentState == .idle || s.currentState == .scanning

/-- The fields every `initiate_*_call` writes first. -/
def beginCall (s : SM) (target : Str) (isNet isGroup : Bool) : SM :=
  { s with
    link := { s.link with activeCallTo := target, activeCallFrom := s.selfAddress }
    calling := { s.calling with
      activeCallIsNet := isNet, activeCallIsGroup := isGroup, callingChannelIndex := 0 } }

/-- The snapshots of message, CMD LQA and LQA report that an individual or group call takes. -/
def snapshotMessage (s : SM) : SM :=
  let msg := s.pend.pendingMessage
  let hasAmd := msg.isAmd && msg.content != []
  { s with
    seqs := { s.seqs with
      activeMessage := msg
      activeAmdFromSeq := if hasAmd then fromId s.selfAddress else []
      activeAmdWords := if hasAmd then encodeAmd msg.content else []
      activeLqaCmdSeq := if s.pend.pendingLqaCmdSet then lqaCmd s.pend.pendingLqaCmdRaw else []
      activeLqaReportSeq :=
        if s.pend.pendingLqaReportSet then s.pend.pendingLqaReportSeq else [] }
    pend := { s.pend with
      pendingMessage := {}, pendingLqaCmdSet := false, pendingLqaReportSet := false } }

/-- `process_event(CALL_REQUEST)`. -/
def callRequest (s : SM) : SM × Bool := s.processEvent .callRequest

/-- `initiate_call`. -/
def initiateCall (s : SM) (target : Str) : SM × Bool :=
  if ¬ s.available then (s, false)
  else
    let s := s.beginCall target false false
    let s := { s with seqs := { s.seqs with
      scanningSeq := scanningCall target s.targetScanChannels
      leadingSeq := leadingCall target
      conclusionSeq := conclusion s.selfAddress false } }
    s.snapshotMessage.callRequest

/-- `initiate_net_call`: no snapshot is taken. -/
def initiateNetCall (s : SM) (netAddress : Str) : SM × Bool :=
  if ¬ s.available then (s, false)
  else
    let s := s.beginCall netAddress true false
    let s := { s with seqs := { s.seqs with
      scanningSeq := scanningCall netAddress s.targetScanChannels
      leadingSeq := leadingCall netAddress
      conclusionSeq := conclusion s.selfAddress false } }
    s.callRequest

/-- `initiate_group_call`. -/
def initiateGroupCall (s : SM) (members : List Str) : SM × Bool :=
  if ¬ s.available then (s, false)
  else if members = [] then (s, false)
  else
    let s := s.beginCall (members.headD []) false true
    let s := { s with seqs := { s.seqs with
      groupScanSeq := scanningCallGroup members s.targetScanChannels
      leadingSeq := leadingCallGroup members
      conclusionSeq := conclusion s.selfAddress false
      scanningSeq := scanningCallGroup members s.targetScanChannels } }
    s.snapshotMessage.callRequest

/-- `respond_to_call`: force-complete a handshake in `WAIT_ACK` with a known caller. -/
def respondToCall (s : SM) : SM × Bool :=
  if s.currentState ≠ .handshake then (s, false)
  else if s.hs.handshakePhase ≠ .waitAck then (s, false)
  else if s.hs.callerAddress = [] then (s, false)
  else ((s.processEvent .handshakeComplete).1, true)

/-! ## Soundings and broadcasts -/

/-- `send_sounding`. -/
def sendSounding (s : SM) : SM × Bool :=
  if ¬ s.available then (s, false) else s.processEvent .soundingRequest

/-- Enter sweep mode and pin the first channel. -/
def armSweep (s : SM) (channels : List Channel) (first : Channel) : SM :=
  let s := { s with snd := { s.snd with
    soundingSweepChs := channels, soundingSweepIdx := 0, soundingSweepActive := true } }
  s.setChannels (s.channelManager.setOverride first)

/-- `send_sounding_sweep`. -/
def sendSoundingSweep (s : SM) (channels : List Channel) : SM × Bool :=
  if ¬ s.available then (s, false)
  else if s.allcallBroadcasting then (s, false)
  else match channels with
    | [] => (s, false)
    | ch :: _ => (s.armSweep channels ch).processEvent .soundingRequest

/-- `kGlobalAllCallAddr`. -/
def globalAllCallAddr : Str := ['@', '?', '@']

/-- The words of a broadcast: a whole calling routine to `@?@` around `FROM` and the text. -/
def allcallWords (s : SM) (selfAddr text : Str) (linkAfterSend : Bool) : List ALEWord :=
  scanningCall globalAllCallAddr s.targetScanChannels ++ leadingCall globalAllCallAddr ++
    fromId selfAddr ++ encodeAmd text ++ conclusion selfAddr (!linkAfterSend)

/-- `send_allcall_broadcast`. -/
def sendAllcallBroadcast (s : SM) (selfAddr text : Str) (linkAfterSend : Bool) : SM × Bool :=
  if ¬ s.available then (s, false)
  else if s.allcallBroadcasting then (s, false)
  else if selfAddr = [] then (s, false)
  else if encodeAmd text = [] then (s, false)
  else
    let words := s.allcallWords selfAddr text linkAfterSend
    let s := { s with allcallBroadcasting := true }
    let s := s.rxEnabled false
    let s := s.transmitWords words
    (s.armDrain s.scaledDrainMs, true)

/-! ## The end of a link -/

/-- `terminate_link`. -/
def terminateLink (s : SM) : SM :=
  if s.currentState ≠ .linked then s
  else
    let s := { s with link := { s.link with linkedTerminating := true } }
    let s := s.transmitWords (termination s.link.activeCallTo s.selfAddress)
    let s := s.rxEnabled false
    if s.tx.wordsPending = 0 then
      linkTerminated { s with link := { s.link with linkedTerminating := false } }
    else
      { s with tx := { s.tx with
        txDrainStartMs := s.currentTimeMs, txDrainDeadlineMs := txDrainTimeoutMs } }

/-- `emergency_manual_control`. -/
def emergencyManualControl (s : SM) : SM :=
  let s := { s with emergencyActive := true }
  let s := s.operator .emergencyActive
  let s :=
    if s.currentState = .linked ∧ ¬ s.link.linkedTerminating ∧ s.link.activeCallTo ≠ [] ∧
        s.selfAddress ≠ [] then
      let s := { s with link := { s.link with linkedTerminating := true } }
      s.transmitWords (termination s.link.activeCallTo s.selfAddress)
    else s
  (s.transitionTo .idle).1

/-! ## Orderwire -/

/-- The guard of the three orderwire requests. -/
def orderwireOpen (s : SM) : Bool := s.currentState == .linked && !s.link.linkedTerminating

/-- Queue `words` for the orderwire path. -/
def queueOrderwire (s : SM) (words : List ALEWord) (doubleBurst : Bool) : SM :=
  { s with
    ow := { s.ow with
      pendingOrderwireWords := words, orderwireDoubleBurst := doubleBurst
      orderwirePending := true }
    lastWordTimeMs := s.currentTimeMs }

/-- `trigger_linked_orderwire`. -/
def triggerLinkedOrderwire (s : SM) (words : List ALEWord) (doubleBurst : Bool) : SM :=
  if ¬ s.orderwireOpen then s else s.queueOrderwire words doubleBurst

/-- `send_linked_amd`. -/
def sendLinkedAmd (s : SM) (contentWords : List ALEWord) (peer : Str) (maxAttempts : Nat) : SM :=
  if ¬ s.orderwireOpen then s
  else
    let s := { s with amd := { s.amd with
      linkedAmdBurst := contentWords, linkedAmdPeer := peer,
      linkedAmdAttemptsLeft := max 1 maxAttempts, linkedAmdPhase := .listening,
      linkedAmdListenStartMs := 0, linkedAmdRespDetected := false, linkedAmdRespTlwwMs := 0 } }
    s.queueOrderwire contentWords false

/-- `respond_to_linked_amd`. -/
def respondToLinkedAmd (s : SM) (sender : Str) (extraCmdWords : List ALEWord) : SM :=
  if ¬ s.orderwireOpen then s
  else if sender = [] then s
  else
    let s := { s with amd := { s.amd with
      linkedAmdPeer := sender, linkedAmdPhase := .responding } }
    s.queueOrderwire (leadingCall sender ++ extraCmdWords) false

/-- `on_link_activity`. -/
def onLinkActivity (s : SM) : SM :=
  if s.currentState = .linked then { s with lastWordTimeMs := s.currentTimeMs } else s

/-- `reset_link_idle_timer`. -/
def resetLinkIdleTimer (s : SM) : SM :=
  if s.currentState ≠ .linked then s
  else { s with
    lastWordTimeMs := s.currentTimeMs
    link := { s.link with idleWarningSent := false, lastSeenWordTimeMs := s.currentTimeMs } }

/-! ## Settings -/

/-- `set_self_address`: kept when `AddressBook` refuses the address. -/
def setSelfAddress (s : SM) (address : Str) : SM :=
  if StationAddress address then { s with selfAddress := address } else s

/-- `configure_scan`. -/
def configureScan (s : SM) (config : ScanConfig) : SM :=
  s.setManager (s.channelManager.configure config)

/-- `add_scan_channel`. -/
def addScanChannel (s : SM) (ch : Channel) : SM := s.setManager (s.channelManager.addChannel ch)

/-- `set_target_scan_channels`. -/
def setTargetScanChannels (s : SM) (n : UInt32) : SM := { s with targetScanChannels := n }

/-- `set_timing_parameters`. -/
def setTimingParameters (s : SM) (p : TimingParameters) : SM := { s with timing := p }

/-- `set_slot_number`. -/
def setSlotNumber (s : SM) (slot : Nat) (tswtMs : UInt32) : SM :=
  { s with hs := { s.hs with slotNumber := slot, tswtMs := tswtMs } }

/-- `set_calling_channels`. -/
def setCallingChannels (s : SM) (channels : List Channel) : SM :=
  { s with calling := { s.calling with callingChannels := channels, callingChannelIndex := 0 } }

/-- `set_pending_message`; `clear_pending_message` passes the default message. -/
def setPendingMessage (s : SM) (msg : PendingMessage) : SM :=
  { s with pend := { s.pend with pendingMessage := msg } }

/-- `set_pending_lqa_cmd`. -/
def setPendingLqaCmd (s : SM) (raw24 : Nat) : SM :=
  { s with pend := { s.pend with pendingLqaCmdRaw := raw24, pendingLqaCmdSet := true } }

/-- `clear_pending_lqa_cmd`. -/
def clearPendingLqaCmd (s : SM) : SM :=
  { s with pend := { s.pend with pendingLqaCmdSet := false } }

/-- `set_pending_lqa_report_seq`. -/
def setPendingLqaReportSeq (s : SM) (seq : List ALEWord) : SM :=
  { s with pend := { s.pend with pendingLqaReportSeq := seq, pendingLqaReportSet := true } }

/-- `clear_pending_lqa_report_seq`. -/
def clearPendingLqaReportSeq (s : SM) : SM :=
  { s with pend := { s.pend with pendingLqaReportSet := false } }

/-- `set_pending_noise_cmd`. -/
def setPendingNoiseCmd (s : SM) (raw24 : Nat) : SM :=
  { s with pend := { s.pend with pendingNoiseCmdRaw := raw24, pendingNoiseCmdSet := true } }

/-- `clear_pending_noise_cmd`. -/
def clearPendingNoiseCmd (s : SM) : SM :=
  { s with pend := { s.pend with pendingNoiseCmdSet := false } }

/-- `set_sounding_use_twas`. -/
def setSoundingUseTwas (s : SM) (useTwas : Bool) : SM :=
  { s with snd := { s.snd with soundingUseTwas := useTwas } }

/-- `set_lbt_override`. -/
def setLbtOverride (s : SM) (on : Bool) : SM := { s with lbtOverride := on }

/-- `set_lbt_shared`. -/
def setLbtShared (s : SM) (shared : Bool) : SM := { s with lbtShared := shared }

/-- `begin_scan_pause`. -/
def beginScanPause (s : SM) (t : UInt32) : SM :=
  if s.currentState = .scanning ∧ s.scan.scanningPhase = .hopping then
    { s with scan := { s.scan with scanningPhase := .scanPause, scanPauseSettleMs := t } }
  else s

/-- `extend_peer_wait_window_for_ptt_release_delay`. A delay of 0 adds 0. -/
def extendPeerWaitWindow (s : SM) (delay : UInt32) : SM :=
  { s with
    calling := { s.calling with
      listeningStartMs :=
        if s.calling.callingPhase = .listening ∧ ¬ s.calling.responseToDetected then
          s.calling.listeningStartMs + delay
        else s.calling.listeningStartMs }
    hs := { s.hs with
      hsAckStartMs :=
        if s.hs.handshakePhase = .waitAck ∧ s.hs.hsAckToMs = 0 then s.hs.hsAckStartMs + delay
        else s.hs.hsAckStartMs }
    snd := { s.snd with
      soundingListeningStartMs :=
        if s.snd.soundingPhase = .listening then s.snd.soundingListeningStartMs + delay
        else s.snd.soundingListeningStartMs } }

/-! ## The station of a link, as the controller picks it -/

/-- `ALEController::active_peer`. -/
def activePeer (s : SM) : Str :=
  if s.currentState ≠ .linked then []
  else if s.calling.toAddress ≠ [] then s.calling.toAddress else s.hs.callerAddress

/-- The `sender` of `ALEController::commit_rx_ber_sample`. -/
def rxBerStation (s : SM) : Str :=
  if s.calling.toAddress ≠ [] then s.calling.toAddress else s.hs.callerAddress

end SM

end OpenALE
