import OpenALE.Word.Sequence
import OpenALE.Control.Channel

/-!
# The state of `ALEStateMachine`

Model of the enumerations and the data members of
`include/Protocol/Control/ale_state_machine.h`. The members keep their names; they are grouped the
way the header's section comments group them (`Calling`, `Handshake`, `LinkedAmd`, …), so that a
function that works on one sub-state leaves the others untouched by its very shape.

* Callbacks are outputs: `out` lists those fired during the call in progress, oldest first. Every
  callback is taken to be set.
* What the machine asks its surroundings during `update` (`set_channel_busy_query`,
  `set_hop_ready_query`) is the argument `Env`.
* Timestamps are `UInt32` with wrapping subtraction, as in the source. Counters that only count
  words, channels or attempts are `Nat`.
* Left out: the members behind `set_require_explicit_accept` (nothing reads them), the message
  assembler behind `set_frame_assembled_callback` (it feeds a monitor and no member here), the
  thread check and the trace texts.
-/

namespace OpenALE

/-- `ALEState`. -/
inductive ALEState where
  | idle
  | scanning
  | calling
  | handshake
  | linked
  | sounding
  | error
  deriving Repr, DecidableEq

/-- `ALEEvent`. -/
inductive ALEEvent where
  | startScan
  | stopScan
  | callRequest
  | callDetected
  | handshakeComplete
  | linkTimeout
  | linkTerminated
  | amdDeclinedLink
  | soundingRequest
  | soundingComplete
  | errorOccurred
  deriving Repr, DecidableEq

/-- `OperatorEvent`. -/
inductive OperatorEvent where
  | callRejected
  | noChannelsLeft
  | linkEstablished
  | emergencyActive
  | amdSentNoLink
  | amdReceivedNoLink
  | amdDelivered
  | amdNotDelivered
  | amdRetry
  deriving Repr, DecidableEq

/-- `CallingPhase`. -/
inductive CallingPhase where
  | lbt
  | tuning
  | scanningCall
  | groupScanningCall
  | leadingCall
  | conclusion
  | listening
  | sendingAck
  deriving Repr, DecidableEq

/-- `ScanningPhase`. -/
inductive ScanningPhase where
  | hopping
  | scanPause
  deriving Repr, DecidableEq

/-- `SoundingPhase`. -/
inductive SoundingPhase where
  | lbt
  | transmitting
  | listening
  deriving Repr, DecidableEq

/-- `HandshakePhase`. -/
inductive HandshakePhase where
  | waitCycleEnd
  | awaitAccept
  | slotWait
  | channelCheck
  | sendingResponse
  | waitAck
  deriving Repr, DecidableEq

/-- `LinkedAmdPhase`. -/
inductive LinkedAmdPhase where
  | none
  | listening
  | sendingAck
  | responding
  | waitAck
  deriving Repr, DecidableEq

/-- `PendingMessage`; `isAmd` is `type == AMD`. -/
structure PendingMessage where
  isAmd : Bool := false
  content : Str := []
  linkAfterSend : Bool := false
  deriving Repr, DecidableEq

/-- `MetricsSample` as `update_lqa` files it, without the float readings. -/
structure LqaSample where
  frequencyHz : Nat
  station : Str
  nonUnanimousCount : Nat
  golayUncorrectable : Bool
  fecErrorsCorrected : Nat
  decodeSuccess : Bool
  timestampMs : UInt32
  deriving Repr, DecidableEq

/-- The callbacks of the state machine. -/
inductive Output where
  | stateChange (fromState toState : ALEState)
  | transmit (w : ALEWord)
  | rxEnabled (on : Bool)
  | operator (e : OperatorEvent)
  | channelChange (ch : Channel)
  | idleWarning (remainingSec : UInt32)
  | lqaSample (sample : LqaSample)
  deriving Repr, DecidableEq

/-- What the machine asks its surroundings during `update`. -/
structure Env where
  channelBusy : Bool := false
  hopReady : Bool := true
  deriving Repr, DecidableEq

/-- The TX queue counter and the drain watchdog (`words_pending`, `tx_drain_*`). -/
structure TxDrain where
  wordsPending : Nat := 0
  txDrainStartMs : UInt32 := 0
  txDrainDeadlineMs : UInt32 := txDrainTimeoutMs
  deriving Repr, DecidableEq

/-- "Calling sub-state", "LBT and tuning", "Multi-channel calling" and "Response tracking". -/
structure Calling where
  callingPhase : CallingPhase := .lbt
  activeCallIsNet : Bool := false
  activeCallIsGroup : Bool := false
  firstCallTxMs : UInt32 := 0
  callCycleCount : Nat := 0
  callCyclesInPhase : Nat := 0
  listeningStartMs : UInt32 := 0
  lbtStartMs : UInt32 := 0
  tuneStartMs : UInt32 := 0
  callingChannelIndex : Nat := 0
  callingChannels : List Channel := []
  responseToDetected : Bool := false
  responseRxStartMs : UInt32 := 0
  tlwwStartMs : UInt32 := 0
  collectingRemoteConclusion : Bool := false
  toAddress : Str := []
  deriving Repr, DecidableEq

/-- "Pre-computed TX sequences" and the `active_*` snapshots of a call. -/
structure CallSequences where
  scanningSeq : List ALEWord := []
  leadingSeq : List ALEWord := []
  conclusionSeq : List ALEWord := []
  groupScanSeq : List ALEWord := []
  activeMessage : PendingMessage := {}
  activeAmdFromSeq : List ALEWord := []
  activeAmdWords : List ALEWord := []
  activeLqaCmdSeq : List ALEWord := []
  activeLqaReportSeq : List ALEWord := []
  deriving Repr, DecidableEq

/-- What waits for the next frame: message, CMD LQA, LQA report, CMD NOISE. -/
structure Pending where
  pendingMessage : PendingMessage := {}
  pendingLqaCmdRaw : Nat := 0
  pendingLqaCmdSet : Bool := false
  pendingLqaReportSeq : List ALEWord := []
  pendingLqaReportSet : Bool := false
  pendingNoiseCmdRaw : Nat := 0
  pendingNoiseCmdSet : Bool := false
  deriving Repr, DecidableEq

/-- "Handshake sub-state". -/
structure Handshake where
  handshakePhase : HandshakePhase := .waitCycleEnd
  slotNumber : Nat := 0
  tswtMs : UInt32 := 0
  slotWaitStartMs : UInt32 := 0
  twceMs : UInt32 := 0
  twceStartMs : UInt32 := 0
  hsTlwwStartMs : UInt32 := 0
  hsConclusionRcvd : Bool := false
  hsConclusionIsTwas : Bool := false
  callerAddress : Str := []
  hsWordsInPhase : Nat := 0
  hsAckStartMs : UInt32 := 0
  hsAckToMs : UInt32 := 0
  hsAckTisRcvd : Bool := false
  contiguousErrors : UInt8 := 0
  hsLbtStartMs : UInt32 := 0
  hsMessageStartMs : UInt32 := 0
  pendingReject : Bool := false
  allcallSilent : Bool := false
  deriving Repr, DecidableEq

/-- "Active link state" and the idle warning. -/
structure Link where
  activeCallTo : Str := []
  activeCallFrom : Str := []
  linkStartTimeMs : UInt32 := 0
  linkedTerminating : Bool := false
  idleWarningSent : Bool := false
  lastSeenWordTimeMs : UInt32 := 0
  linkedTwasAddr : Str := []
  linkedTwasLastMs : UInt32 := 0
  deriving Repr, DecidableEq

/-- "Linked Orderwire". -/
structure Orderwire where
  pendingOrderwireWords : List ALEWord := []
  orderwirePending : Bool := false
  orderwireTransmitting : Bool := false
  orderwireDoubleBurst : Bool := true
  deriving Repr, DecidableEq

/-- "LINKED-state AMD delivery confirmation". -/
structure LinkedAmd where
  linkedAmdPhase : LinkedAmdPhase := .none
  linkedAmdBurst : List ALEWord := []
  linkedAmdPeer : Str := []
  linkedAmdAttemptsLeft : Nat := 0
  linkedAmdListenStartMs : UInt32 := 0
  linkedAmdRespDetected : Bool := false
  linkedAmdRespTlwwMs : UInt32 := 0
  linkedAmdAckStartMs : UInt32 := 0
  linkedAmdAckToDetected : Bool := false
  linkedAmdAckTisRcvd : Bool := false
  linkedAmdAckTlwwMs : UInt32 := 0
  linkedAmdRetryPending : Bool := false
  linkedAmdRetryAfterMs : UInt32 := 0
  deriving Repr, DecidableEq

/-- "Scanning sub-state". -/
structure Scanning where
  scanningPhase : ScanningPhase := .hopping
  scanPauseSettleMs : UInt32 := 0
  prevHopReady : Bool := true
  deriving Repr, DecidableEq

/-- "Sounding sub-state" and "Multi-channel sounding sweep". -/
structure Sounding where
  soundingPhase : SoundingPhase := .lbt
  soundingLbtStartMs : UInt32 := 0
  soundingListeningStartMs : UInt32 := 0
  soundingSweepChs : List Channel := []
  soundingSweepIdx : Nat := 0
  soundingSweepActive : Bool := false
  soundingUseTwas : Bool := false
  deriving Repr, DecidableEq

/-- `ALEStateMachine`; the defaults are those of its constructor. -/
structure SM where
  currentState : ALEState := .idle
  previousState : ALEState := .idle
  preLinkState : ALEState := .idle
  stateEntryTimeMs : UInt32 := 0
  currentTimeMs : UInt32 := 0
  lastWordTimeMs : UInt32 := 0
  selfAddress : Str := []
  channelManager : ChannelManager := {}
  link : Link := {}
  tx : TxDrain := {}
  calling : Calling := {}
  seqs : CallSequences := {}
  pend : Pending := {}
  hs : Handshake := {}
  ow : Orderwire := {}
  amd : LinkedAmd := {}
  scan : Scanning := {}
  snd : Sounding := {}
  allcallBroadcasting : Bool := false
  emergencyActive : Bool := false
  targetScanChannels : UInt32 := 1
  timing : TimingParameters := {}
  lbtOverride : Bool := false
  lbtShared : Bool := false
  out : List Output := []

namespace SM

variable (s : SM)

/-- Fire a callback. -/
def emit (o : Output) : SM := { s with out := s.out ++ [o] }

/-- `rx_enabled_callback(on)`. -/
def rxEnabled (on : Bool) : SM := s.emit (.rxEnabled on)

/-- `operator_callback(e)`. -/
def operator (e : OperatorEvent) : SM := s.emit (.operator e)

/-- Install what a channel-manager method returned and fire its channel changes. -/
def setChannels (r : ChannelManager × List Channel) : SM :=
  { s with channelManager := r.1, out := s.out ++ r.2.map .channelChange }

/-- Install the channel manager alone. -/
def setManager (m : ChannelManager) : SM := { s with channelManager := m }

/-- `channel_manager_.hop_calling(ch)` for each of the channels. -/
def hopCalling (chs : List Channel) : SM :=
  { s with out := s.out ++ (chs.flatMap ChannelManager.hopCalling).map .channelChange }

/-- `lbt_channel_busy_`. -/
def lbtChannelBusy (env : Env) : Bool := env.channelBusy && !s.lbtOverride

/-- `effective_twt_ms_`. -/
def effectiveTwtMs : UInt32 := if s.lbtShared then twtSharedMs else twtMs

/-- The drain deadline of a burst whose length is not bounded by a few words. -/
def scaledDrainMs : UInt32 :=
  max txDrainTimeoutMs (UInt32.ofNat s.tx.wordsPending * trwMs + 2 * trwMs)

/-- `transmit_word`: stamp the word, count it, hand it to `transmit_callback`. -/
def transmitWord (w : ALEWord) : SM :=
  ({ s with tx := { s.tx with wordsPending := s.tx.wordsPending + 1 } } : SM).emit
    (.transmit { w with timestampMs := s.currentTimeMs })

/-- `transmit_words`. -/
def transmitWords (ws : List ALEWord) : SM := ws.foldl transmitWord s

end SM

end OpenALE
