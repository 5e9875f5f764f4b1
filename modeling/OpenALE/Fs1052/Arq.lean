import OpenALE.Fs1052.Frame

/-!
# `VariableARQ`

Model of `src/FS1052/fs1052_arq.cpp`: the sending and the receiving side of the ARQ machine, its
events and its handlers. `m_tx_callback` is set; what goes through it is the log `frames`, what
goes through `m_error_callback` the log `errors`, and `completions` counts the events
`TRANSFER_COMPLETE`.

* `m_last_tx_time` is set by `update` alone.
* The loop of `send_next_blocks` has fuel; a call that runs out of it sets `hung`.
* Left out: the statistics, the state callback, the block's timestamp and the members nothing
  reads (`m_prev_state`, `m_window_base`, `m_expected_sequence`, `m_rx_msg_length`).
-/

namespace OpenALE.Fs1052

/-- `ARQState`. -/
inductive ARQState where
  | idle | txData | waitAck | rxData | sendAck | retransmit | error
  deriving Repr, DecidableEq

/-- `DataBlock`. -/
structure DataBlock where
  sequence : UInt8
  offset : Nat
  data : List UInt8
  acknowledged : Bool := false
  retransmitCount : UInt8 := 0
  deriving Repr, DecidableEq

/-- `VariableARQ`. -/
structure VariableARQ where
  state : ARQState := .idle
  txBlocks : List DataBlock := []
  retransmitQueue : List UInt8 := []
  nextTxSequence : UInt8 := 0
  windowSize : UInt8 := 16
  rxBuffer : List UInt8 := []
  rxBitmap : UInt8 → Bool := fun _ => false
  lastTxTime : UInt32 := 0
  ackTimeout : UInt32 := 5000
  waitStartTime : UInt32 := 0
  dataRate : UInt8 := 5
  maxRetransmits : UInt8 := 3
  frames : List (List UInt8) := []
  errors : List String := []
  completions : Nat := 0
  hung : Bool := false

namespace VariableARQ

/-! ## Blocks -/

/-- The loop of `create_blocks`; the sequence number wraps by its type. -/
def createFrom (data : List UInt8) : Nat → UInt8 → Nat → List DataBlock
  | 0, _, _ => []
  | fuel + 1, seq, offset =>
    if offset < data.length then
      { sequence := seq, offset, data := (data.drop offset).take maxDataBlockLength } ::
        createFrom data fuel (seq + 1) (offset + min maxDataBlockLength (data.length - offset))
    else []

/-- `create_blocks`. -/
def createBlocks (a : VariableARQ) (data : List UInt8) : VariableARQ :=
  { a with txBlocks := createFrom data data.length 0 0, nextTxSequence := 0 }

/-- `find_block`: the first one of the sequence number. -/
def findBlock (a : VariableARQ) (seq : UInt8) : Option DataBlock :=
  a.txBlocks.find? (·.sequence = seq)

/-- A change of the block that `find_block` points to. -/
def modifyBlock (a : VariableARQ) (seq : UInt8) (f : DataBlock → DataBlock) : VariableARQ :=
  { a with txBlocks := a.txBlocks.modify (a.txBlocks.findIdx (·.sequence = seq)) f }

/-- `all_blocks_acked`. -/
def allBlocksAcked (a : VariableARQ) : Bool := a.txBlocks.all (·.acknowledged)

/-- The frame of a block. -/
def dataFrame (rate : UInt8) (b : DataBlock) : DataFrame :=
  { dataRate := rate, interleaverLength := 0, sequenceNumber := b.sequence
    msgByteOffset := b.offset, data := b.data }

/-- `send_block`. -/
def sendBlock (a : VariableARQ) (seq : UInt8) : VariableARQ :=
  match a.findBlock seq with
  | none => a
  | some b =>
    match formatDataFrame (dataFrame a.dataRate b) 1200 with
    | none => a
    | some bytes => { a with frames := a.frames ++ [bytes] }

/-! ## Events -/

/-- `process_event(TRANSFER_COMPLETE)`. -/
def transferComplete (a : VariableARQ) : VariableARQ :=
  let a := { a with completions := a.completions + 1 }
  match a.state with
  | .txData | .rxData => { a with state := .idle }
  | _ => a

/-- `process_event(FRAME_SENT)`. -/
def frameSent (a : VariableARQ) : VariableARQ :=
  match a.state with
  | .txData =>
    if a.allBlocksAcked then a.transferComplete
    else { a with state := .waitAck, waitStartTime := a.lastTxTime }
  | .sendAck => { a with state := .rxData }
  | _ => a

/-- The increment of `m_next_tx_sequence`: a byte never reaches 256. -/
def advance (a : VariableARQ) : VariableARQ := { a with nextTxSequence := a.nextTxSequence + 1 }

/-- The loop of `send_next_blocks`, with the number of blocks it sent. -/
def sendLoop : Nat → Nat → VariableARQ → Option (Nat × VariableARQ)
  | 0, _, _ => none
  | fuel + 1, sent, a =>
    if sent < a.windowSize.toNat ∧ a.nextTxSequence.toNat < a.txBlocks.length then
      if (a.findBlock a.nextTxSequence).any (!·.acknowledged) then
        sendLoop fuel (sent + 1) (a.sendBlock a.nextTxSequence).advance
      else sendLoop fuel sent a.advance
    else some (sent, a)

/-- Rounds enough for every loop that ends: of 256 in a row one sends a block, or none ever does. -/
abbrev sendFuel : Nat := 2 ^ 16 + 1

/-- `send_next_blocks`. -/
def sendNextBlocks (a : VariableARQ) : VariableARQ :=
  match sendLoop sendFuel 0 a with
  | none => { a with hung := true }
  | some (sent, a) => if 0 < sent then a.frameSent else a

/-- `process_event(START_TX)`. -/
def startTx (a : VariableARQ) : VariableARQ :=
  match a.state with
  | .idle => if a.txBlocks = [] then a else { a with state := .txData }.sendNextBlocks
  | _ => a

/-- `process_event(START_RX)`. -/
def startRx (a : VariableARQ) : VariableARQ :=
  match a.state with
  | .idle => { a with state := .rxData }
  | _ => a

/-- `process_event(ACK_RECEIVED)`. -/
def ackReceived (a : VariableARQ) : VariableARQ :=
  match a.state with
  | .waitAck =>
    if a.allBlocksAcked then { a with state := .idle }
    else if a.retransmitQueue ≠ [] then { a with state := .retransmit }
    else { a with state := .txData }.sendNextBlocks
  | _ => a

/-- `process_event(TIMEOUT)`. -/
def timedOut (a : VariableARQ) : VariableARQ :=
  match a.state with
  | .waitAck => { a with state := .retransmit }
  | _ => a

/-- `process_event(FRAME_RECEIVED)`. -/
def frameReceived (a : VariableARQ) : VariableARQ :=
  match a.state with
  | .rxData => { a with state := .sendAck }
  | _ => a

/-- One block of the queue; `none` when it had its retransmissions. -/
def resend (a : VariableARQ) (seq : UInt8) : Option VariableARQ :=
  match a.findBlock seq with
  | none => some a
  | some b =>
    if b.acknowledged then some a
    else if b.retransmitCount ≥ a.maxRetransmits then none
    else some ((a.sendBlock seq).modifyBlock seq fun b =>
      { b with retransmitCount := b.retransmitCount + 1 })

/-- The loop of `handle_retransmit`, over the queue. -/
def retransmitAll : List UInt8 → VariableARQ → VariableARQ
  | [], a => { a with state := .waitAck, retransmitQueue := [], waitStartTime := a.lastTxTime }
  | seq :: queue, a =>
    match a.resend seq with
    | none =>
      { a with
        state := .error, retransmitQueue := queue
        errors := a.errors ++ ["Max retransmissions exceeded"] }
    | some a => retransmitAll queue a

/-- `process_event(DATA_READY)`. -/
def dataReady (a : VariableARQ) : VariableARQ :=
  match a.state with
  | .retransmit => retransmitAll a.retransmitQueue a
  | _ => a

/-! ## The sender -/

/-- `start_transmission`. -/
def startTransmission (a : VariableARQ) (data : List UInt8) : VariableARQ :=
  if a.state ≠ .idle then
    { a with errors := a.errors ++ ["Cannot start transmission: not in IDLE state"] }
  else (a.createBlocks data).startTx

/-- `mark_block_acked`. -/
def markBlockAcked (a : VariableARQ) (seq : UInt8) : VariableARQ :=
  a.modifyBlock seq fun b => { b with acknowledged := true }

/-- `process_ack`. -/
def processAck (a : VariableARQ) (frame : ControlFrame) : VariableARQ :=
  if frame.ackNakType ≠ .dataAck then a
  else (List.range 256).foldl
    (fun a i =>
      if frame.bitMap.getD (i / 8) 0 &&& ((1 : UInt8) <<< UInt8.ofNat (i % 8)) ≠ 0 then
        a.markBlockAcked (UInt8.ofNat i)
      else a) a

/-- `update`, with `check_timeouts`: all the blocks not acknowledged are queued, sent or not. -/
def update (a : VariableARQ) (now : UInt32) : VariableARQ :=
  let a := { a with lastTxTime := now }
  if a.state = .waitAck ∧ now - a.waitStartTime > a.ackTimeout then
    let unacked := a.txBlocks.filter fun b => !b.acknowledged
    { a with retransmitQueue := a.retransmitQueue ++ unacked.map DataBlock.sequence }.timedOut
  else a

/-! ## The receiver -/

/-- `m_rx_bitmap` as the bytes of a bitmap. -/
def bitMapOf (received : UInt8 → Bool) : List UInt8 :=
  (List.range ackMapSize).map fun j =>
    (List.range 8).foldl
      (fun byte k =>
        if received (UInt8.ofNat (8 * j + k)) then byte ||| ((1 : UInt8) <<< UInt8.ofNat k)
        else byte) 0

/-- `send_ack`. -/
def sendAck (a : VariableARQ) : VariableARQ :=
  match formatControlFrame (ackFrame (bitMapOf a.rxBitmap)) 256 with
  | none => a
  | some bytes => { a with frames := a.frames ++ [bytes] }.frameSent

/-- The buffer grown to `n` bytes, and the data copied to their place. -/
def place (buffer : List UInt8) (offset : Nat) (data : List UInt8) : List UInt8 :=
  let buffer := buffer ++ List.replicate (offset + data.length - buffer.length) 0
  buffer.take offset ++ data ++ buffer.drop (offset + data.length)

/-- The test of `process_data_frame`, on the machine's own counter of blocks it sent. -/
def allReceived (a : VariableARQ) : Bool :=
  (List.range 256).all fun i => a.rxBitmap (UInt8.ofNat i) || !(i < a.nextTxSequence.toNat)

/-- `process_data_frame`. -/
def processDataFrame (a : VariableARQ) (frame : DataFrame) : VariableARQ :=
  if a.rxBitmap frame.sequenceNumber then a
  else
    let a :=
      { a with
        rxBitmap := fun i => if i = frame.sequenceNumber then true else a.rxBitmap i
        rxBuffer := place a.rxBuffer frame.msgByteOffset frame.data }
    if a.allReceived then a.transferComplete else a

/-- `handle_received_frame`: every control frame counts as `ACK_RECEIVED`. -/
def handleReceivedFrame (a : VariableARQ) (bytes : List UInt8) : VariableARQ :=
  if bytes.length < 1 then a
  else
    match detectFrameType bytes with
    | .data =>
      match parseDataFrame bytes with
      | some frame => (a.processDataFrame frame).frameReceived
      | none => a
    | .noFrame => a
    | _ =>
      match parseControlFrame bytes with
      | some frame => (a.processAck frame).ackReceived
      | none => a

end VariableARQ

end OpenALE.Fs1052
