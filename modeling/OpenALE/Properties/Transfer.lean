import OpenALE.Fs1052.Arq
import OpenALE.Library.Machine

/-!
# Transfers over lossy frames

A sender and a receiver, each a `VariableARQ`. Frames arrive in order or are lost, in both
directions, at any time; the application starts the transfer, ticks the sender and gives it
`DATA_READY`, lets the receiver listen and has it acknowledge what it received (`send_ack`, which
the source calls nowhere).

An acknowledgement is sent with `NO_FRAME` as its type, so its bitmap stays behind and it
acknowledges nothing: the sender leaves `WAIT_ACK` for the next window, and with no block left to
send it stays in `TX_DATA`. The receiver signals `TRANSFER_COMPLETE` at every new block.

Results:
* `delivers_iff`: which runs keep the promises of a transfer.
* `delivers_fail`: one byte, one acknowledgement, and the sender stays in `TX_DATA`.
-/

namespace OpenALE.Fs1052

open VariableARQ

/-! ## The system -/

/-- Two machines and the frames between them: what they sent, and how much of it is gone. -/
structure Transfer where
  message : List UInt8 := []
  sender : VariableARQ := {}
  receiver : VariableARQ := {}
  dataTaken : Nat := 0
  acksTaken : Nat := 0
  /-- The acknowledgements that reached the sender in `WAIT_ACK`. -/
  heard : Nat := 0

/-- What can happen. -/
inductive TransferOp where
  | start (data : List UInt8)
  | tick (now : UInt32)
  | ready
  | dataArrives
  | dataLost
  | listen
  | acknowledge
  | ackArrives
  | ackLost
  deriving Repr, DecidableEq

namespace Transfer

/-- The next data frame. -/
def nextData (x : Transfer) : Option (List UInt8) := x.sender.frames[x.dataTaken]?

/-- The next acknowledgement. -/
def nextAck (x : Transfer) : Option (List UInt8) := x.receiver.frames[x.acksTaken]?

/-- One operation. -/
def step (x : Transfer) : TransferOp → Transfer
  | .start data =>
    if x.sender.state = .idle then
      { x with sender := x.sender.startTransmission data, message := data, heard := 0 }
    else { x with sender := x.sender.startTransmission data }
  | .tick now => { x with sender := x.sender.update now }
  | .ready => { x with sender := x.sender.dataReady }
  | .dataArrives =>
    match x.nextData with
    | none => x
    | some bytes =>
      { x with receiver := x.receiver.handleReceivedFrame bytes, dataTaken := x.dataTaken + 1 }
  | .dataLost => { x with dataTaken := x.dataTaken + 1 }
  | .listen => { x with receiver := x.receiver.startRx }
  | .acknowledge => { x with receiver := x.receiver.sendAck }
  | .ackArrives =>
    match x.nextAck with
    | none => x
    | some bytes =>
      { x with
        sender := x.sender.handleReceivedFrame bytes, acksTaken := x.acksTaken + 1
        heard := if x.sender.state = .waitAck then x.heard + 1 else x.heard }
  | .ackLost => { x with acksTaken := x.acksTaken + 1 }

/-! ## The property -/

/-- The frame of a block went out. -/
def Sent (a : VariableARQ) (b : DataBlock) : Prop :=
  ∃ bytes ∈ a.frames, formatDataFrame (dataFrame a.dataRate b) 1200 = some bytes

/-- What a transfer promises of every state. -/
structure Delivering (x : Transfer) : Prop where
  /-- Every call returned. -/
  returns : x.sender.hung = false ∧ x.receiver.hung = false
  /-- A block's sequence number leads to the block. -/
  addressable : ∀ b ∈ x.sender.txBlocks, x.sender.findBlock b.sequence = some b
  /-- A block is sent by the time as many acknowledgements got through as blocks precede it. -/
  sent : ∀ (i : Nat) (b : DataBlock), x.sender.txBlocks[i]? = some b → i ≤ x.heard →
    Sent x.sender b
  moving : x.sender.state = .txData → x.sender.allBlocksAcked = true

/-- The transfer is called complete: the event on one of the sides, or the sender is done. -/
def Completes (x : Transfer) (op : TransferOp) : Prop :=
  (x.step op).sender.completions ≠ x.sender.completions ∨
    (x.step op).receiver.completions ≠ x.receiver.completions ∨
      (x.sender.state ≠ .idle ∧ (x.step op).sender.state = .idle)

/-- It is complete when it is called so. -/
def Right (x : Transfer) (op : TransferOp) : Prop :=
  x.Completes op → (x.step op).message <+: (x.step op).receiver.rxBuffer

/-- The step avoids what the machines do not handle. -/
def Keeps (x : Transfer) : TransferOp → Prop
  | .start data => x.sender.state = .idle → data = [] ∨
    (x.sender.windowSize ≠ 0 ∧ data.length ≤ 256 * maxDataBlockLength)
  | .dataArrives => ∀ bytes frame, x.nextData = some bytes → parseDataFrame bytes = some frame →
    x.receiver.rxBuffer = x.message ∨
      (frame.msgByteOffset + frame.data.length = x.message.length ∧
        x.message.take frame.msgByteOffset = List.replicate frame.msgByteOffset 0)
  | .ackArrives => x.nextAck ≠ none → x.sender.state = .waitAck →
    x.sender.nextTxSequence.toNat < x.sender.txBlocks.length
  | _ => True

/-! ## The blocks of a message -/

/-- The `i`-th frame of a message. -/
def wire (rate : UInt8) (message : List UInt8) (i : Nat) : DataFrame :=
  { dataRate := rate, interleaverLength := 0, sequenceNumber := UInt8.ofNat i
    msgByteOffset := maxDataBlockLength * i
    data := (message.drop (maxDataBlockLength * i)).take maxDataBlockLength }

/-- The blocks are those of the message, none of them acknowledged. -/
structure Blocks (message : List UInt8) (bs : List DataBlock) : Prop where
  frame : ∀ (rate : UInt8) (i : Nat) (b : DataBlock), bs[i]? = some b →
    dataFrame rate b = wire rate message i
  fresh : ∀ b ∈ bs, b.acknowledged = false
  whole : ∀ i, i < bs.length ↔ maxDataBlockLength * i < message.length

theorem getElem?_createFrom (data : List UInt8) (fuel : Nat) (seq : UInt8) (offset i : Nat)
    (hfuel : data.length ≤ offset + fuel) :
    (createFrom data fuel seq offset)[i]? =
      if offset + maxDataBlockLength * i < data.length then
        some { sequence := seq + UInt8.ofNat i, offset := offset + maxDataBlockLength * i
               data := (data.drop (offset + maxDataBlockLength * i)).take maxDataBlockLength }
      else none := by
  induction fuel generalizing seq offset i with
  | zero =>
    rw [if_neg (by omega)]
    rfl
  | succ fuel ih =>
    unfold createFrom maxDataBlockLength
    unfold maxDataBlockLength at ih
    by_cases hlt : offset < data.length
    · rw [if_pos hlt]
      cases i with
      | zero => simp [hlt]
      | succ i =>
        rw [List.getElem?_cons_succ, ih _ _ _ (by omega)]
        by_cases hmore : 1023 ≤ data.length - offset
        · have hmin : min 1023 (data.length - offset) = 1023 := by omega
          have hoff : offset + 1023 + 1023 * i = offset + 1023 * (i + 1) := by ring
          have hseq : seq + 1 + UInt8.ofNat i = seq + UInt8.ofNat (i + 1) := by
            rw [UInt8.ofNat_add, UInt8.add_assoc, UInt8.add_comm 1]
            rfl
          rw [hmin, hoff, hseq]
        · rw [if_neg (by omega), if_neg (by omega)]
    · rw [if_neg hlt, if_neg (by omega)]
      rfl

theorem blocks_createBlocks (a : VariableARQ) (message : List UInt8) :
    Blocks message (a.createBlocks message).txBlocks := by
  have hat := fun i => getElem?_createFrom message message.length 0 0 i (by omega)
  refine ⟨?_, ?_, ?_⟩
  · intro rate i b hb
    have hb' := hat i
    rw [show (createFrom message message.length 0 0)[i]? = some b from hb] at hb'
    split at hb'
    · obtain rfl := Option.some.inj hb'
      simp [dataFrame, wire]
    · cases hb'
  · intro b hb
    obtain ⟨i, hi⟩ := List.mem_iff_getElem?.mp hb
    have hb' := hat i
    rw [show (createFrom message message.length 0 0)[i]? = some b from hi] at hb'
    split at hb'
    · obtain rfl := Option.some.inj hb'
      rfl
    · cases hb'
  · intro i
    have hi := hat i
    constructor
    · intro hlt
      by_contra hn
      rw [if_neg (by omega)] at hi
      exact absurd hlt (Nat.not_lt.mpr (List.getElem?_eq_none_iff.mp hi))
    · intro hlt
      by_contra hn
      rw [if_pos (by omega)] at hi
      have hnone := List.getElem?_eq_none_iff.mpr (Nat.not_lt.mp hn)
      rw [show (createFrom message message.length 0 0)[i]? = none from hnone] at hi
      cases hi

namespace Blocks

variable {message : List UInt8} {bs : List DataBlock}

theorem getElem (h : Blocks message bs) (rate : UInt8) {i : Nat} {b : DataBlock}
    (hb : bs[i]? = some b) : b.sequence = UInt8.ofNat i ∧ dataFrame rate b = wire rate message i :=
  ⟨congrArg DataFrame.sequenceNumber (h.frame rate i b hb), h.frame rate i b hb⟩

/-- At most 256 blocks have sequence numbers of their own. -/
theorem length_le (h : Blocks message bs) (hlen : message.length ≤ 256 * maxDataBlockLength) :
    bs.length ≤ 256 := by
  by_contra hn
  have hlast := (h.whole 256).mp (Nat.not_le.mp hn)
  unfold maxDataBlockLength at hlast hlen
  omega

/-- **Addressing**: the block of a position is the first one of its number. -/
theorem find_sequence (h : Blocks message bs) (hlen : message.length ≤ 256 * maxDataBlockLength)
    {i : Nat} {b : DataBlock} (hb : bs[i]? = some b) :
    bs.find? (·.sequence = UInt8.ofNat i) = some b := by
  have hfew := h.length_le hlen
  obtain ⟨hi, rfl⟩ := List.getElem?_eq_some_iff.mp hb
  refine List.find?_eq_some_iff_getElem.mpr ⟨?_, i, hi, rfl, fun j hj => ?_⟩
  · exact decide_eq_true (h.getElem 0 hb).1
  · have hj' : bs[j]? = some bs[j] := List.getElem?_eq_getElem (by omega)
    rw [(h.getElem 0 hj').1, Bool.not_eq_true', decide_eq_false_iff_not]
    intro he
    have hn := congrArg UInt8.toNat he
    rw [UInt8.toNat_ofNat', UInt8.toNat_ofNat'] at hn
    omega

/-- Past 256 blocks a number is taken twice. -/
theorem not_find (h : Blocks message bs) (hlen : 256 * maxDataBlockLength < message.length) :
    ∃ b ∈ bs, bs.find? (·.sequence = b.sequence) ≠ some b := by
  have h0 : 0 < bs.length := (h.whole 0).mpr (by unfold maxDataBlockLength at *; omega)
  have h256 : 256 < bs.length := (h.whole 256).mpr (by unfold maxDataBlockLength at *; omega)
  have hb0 : bs[0]? = some bs[0] := List.getElem?_eq_getElem h0
  have hb256 : bs[256]? = some bs[256] := List.getElem?_eq_getElem h256
  have hseq : bs[256].sequence = UInt8.ofNat 0 := (h.getElem 0 hb256).1
  refine ⟨bs[256], List.getElem_mem h256, ?_⟩
  have hfirst : bs.find? (·.sequence = bs[256].sequence) = some bs[0] := by
    refine List.find?_eq_some_iff_getElem.mpr ⟨?_, 0, h0, rfl, fun j hj => by omega⟩
    rw [hseq]
    exact decide_eq_true (h.getElem 0 hb0).1
  rw [hfirst]
  intro he
  have hoff := congrArg DataFrame.msgByteOffset (congrArg (dataFrame 0) (Option.some.inj he))
  rw [(h.getElem 0 hb0).2, (h.getElem 0 hb256).2] at hoff
  exact absurd hoff (show maxDataBlockLength * 0 ≠ maxDataBlockLength * 256 by decide)

theorem ne_nil_iff (h : Blocks message bs) : bs ≠ [] ↔ message ≠ [] := by
  rw [← List.length_pos_iff, ← List.length_pos_iff]
  simpa using h.whole 0

/-- A change of the counter of retransmissions. -/
theorem modify (h : Blocks message bs) (i : Nat) (f : DataBlock → DataBlock)
    (hframe : ∀ rate b, dataFrame rate (f b) = dataFrame rate b)
    (hacked : ∀ b, (f b).acknowledged = b.acknowledged) : Blocks message (bs.modify i f) := by
  refine ⟨?_, ?_, ?_⟩
  · intro rate j b hb
    rw [List.getElem?_modify] at hb
    obtain ⟨b', hb', rfl⟩ := Option.map_eq_some_iff.mp hb
    have hold := h.frame rate j b' hb'
    split
    · rw [hframe]
      exact hold
    · exact hold
  · intro b hb
    obtain ⟨j, hj⟩ := List.mem_iff_getElem?.mp hb
    rw [List.getElem?_modify] at hj
    obtain ⟨b', hb', rfl⟩ := Option.map_eq_some_iff.mp hj
    have hold := h.fresh b' (List.mem_of_getElem? hb')
    split
    · rw [hacked]
      exact hold
    · exact hold
  · intro j
    rw [List.length_modify]
    exact h.whole j

/-- The frame of a block fits. -/
theorem format (rate : UInt8) (message : List UInt8) (i : Nat) :
    ∃ bytes, formatDataFrame (wire rate message i) 1200 = some bytes := by
  have hlength : ((message.drop (maxDataBlockLength * i)).take maxDataBlockLength).length ≤ 1023 :=
    List.length_take_le _ _
  unfold formatDataFrame wire
  rw [if_neg (by dsimp only; omega)]
  exact ⟨_, rfl⟩

end Blocks

/-! ## The sender's loop -/

/-- The `i`-th frame of the message went out. -/
def Out (message : List UInt8) (a : VariableARQ) (i : Nat) : Prop :=
  ∃ bytes ∈ a.frames, formatDataFrame (wire a.dataRate message i) 1200 = some bytes

/-- Either every block went out, or those in front of the next one did, at least `m`. -/
def Covers (message : List UInt8) (m : Nat) (a : VariableARQ) : Prop :=
  (∀ i < a.txBlocks.length, Out message a i) ∨
    (m ≤ a.nextTxSequence.toNat ∧ ∀ i < a.nextTxSequence.toNat, Out message a i)

/-- Every frame that went out is one of the message. -/
def Wired (message : List UInt8) (a : VariableARQ) : Prop :=
  ∀ bytes ∈ a.frames, ∃ i < a.txBlocks.length,
    formatDataFrame (wire a.dataRate message i) 1200 = some bytes

/-- What sending changes: the log and the next block, and both go forward. -/
structure Sends (message : List UInt8) (a a' : VariableARQ) : Prop where
  same : a' = { a with frames := a'.frames, nextTxSequence := a'.nextTxSequence }
  wired : Wired message a → Wired message a'
  covers : ∀ m, Covers message m a → Covers message m a'

theorem Out.mono {message : List UInt8} {a a' : VariableARQ} {i : Nat} (h : Out message a i)
    (hrate : a'.dataRate = a.dataRate) (hframes : ∀ f ∈ a.frames, f ∈ a'.frames) :
    Out message a' i := by
  obtain ⟨bytes, hmem, hformat⟩ := h
  exact ⟨bytes, hframes bytes hmem, by rw [hrate]; exact hformat⟩

/-- A block that goes out. -/
theorem sendBlock_eq {message : List UInt8} {a : VariableARQ} (hb : Blocks message a.txBlocks)
    (hlen : message.length ≤ 256 * maxDataBlockLength) {i : Nat} (hi : i < a.txBlocks.length) :
    ∃ bytes, formatDataFrame (wire a.dataRate message i) 1200 = some bytes ∧
      a.sendBlock (UInt8.ofNat i) = { a with frames := a.frames ++ [bytes] } := by
  have hat : a.txBlocks[i]? = some a.txBlocks[i] := List.getElem?_eq_getElem hi
  have hfind : a.findBlock (UInt8.ofNat i) = some a.txBlocks[i] := hb.find_sequence hlen hat
  obtain ⟨bytes, hformat⟩ := Blocks.format a.dataRate message i
  refine ⟨bytes, hformat, ?_⟩
  unfold sendBlock
  rw [hfind]
  dsimp only
  rw [(hb.getElem a.dataRate hat).2, hformat]

/-- One round of the loop. -/
theorem sends_one {message : List UInt8} {a : VariableARQ} (hb : Blocks message a.txBlocks)
    (hlen : message.length ≤ 256 * maxDataBlockLength)
    (hnext : a.nextTxSequence.toNat < a.txBlocks.length) :
    Sends message a (a.sendBlock a.nextTxSequence).advance ∧
      ∀ m, Covers message m a → Covers message (m + 1) (a.sendBlock a.nextTxSequence).advance := by
  obtain ⟨bytes, hformat, heq⟩ := sendBlock_eq hb hlen hnext
  rw [UInt8.ofNat_toNat] at heq
  have hfew := hb.length_le hlen
  rw [heq]
  have hup : ∀ m, Covers message m a →
      Covers message (m + 1) ({ a with frames := a.frames ++ [bytes] } : VariableARQ).advance := by
    rintro m (hall | ⟨hm, hbefore⟩)
    · exact Or.inl fun i hi => (hall i hi).mono rfl fun f hf => List.mem_append_left _ hf
    · have hout : ∀ i ≤ a.nextTxSequence.toNat,
          Out message ({ a with frames := a.frames ++ [bytes] } : VariableARQ).advance i := by
        intro i hi
        obtain hlt | rfl := Nat.lt_or_eq_of_le hi
        · exact (hbefore i hlt).mono rfl fun f hf => List.mem_append_left _ hf
        · exact ⟨bytes, List.mem_append_right _ (List.mem_singleton.mpr rfl), hformat⟩
      by_cases hwrap : a.nextTxSequence.toNat = 255
      · refine Or.inl fun i hi => hout i ?_
        have hi' : i < a.txBlocks.length := hi
        omega
      · have hsucc : (a.nextTxSequence + 1).toNat = a.nextTxSequence.toNat + 1 := by
          rw [UInt8.toNat_add]
          have := a.nextTxSequence.toNat_lt
          have hone : (1 : UInt8).toNat = 1 := rfl
          omega
        refine Or.inr ⟨?_, fun i hi => hout i ?_⟩
        · change m + 1 ≤ (a.nextTxSequence + 1).toNat
          omega
        · change i < (a.nextTxSequence + 1).toNat at hi
          omega
  refine ⟨⟨rfl, ?_, ?_⟩, hup⟩
  · intro hw f hf
    obtain hf | hf := List.mem_append.mp hf
    · exact hw f hf
    · rw [List.mem_singleton.mp hf]
      exact ⟨_, hnext, hformat⟩
  · intro m hc
    obtain hall | ⟨hm, hbefore⟩ := hup m hc
    · exact Or.inl hall
    · exact Or.inr ⟨by omega, hbefore⟩

theorem Sends.refl (message : List UInt8) (a : VariableARQ) : Sends message a a :=
  ⟨rfl, id, fun _ => id⟩

theorem Sends.trans {message : List UInt8} {a b c : VariableARQ} (h : Sends message a b)
    (h' : Sends message b c) : Sends message a c := by
  refine ⟨?_, h'.wired ∘ h.wired, fun m => h'.covers m ∘ h.covers m⟩
  rw [h'.same, h.same]

/-- **The loop ends**: with no block acknowledged each round sends one, so the window fills or the
blocks run out. -/
theorem sendLoop_sends {message : List UInt8} (hlen : message.length ≤ 256 * maxDataBlockLength)
    (fuel sent : Nat) (a : VariableARQ) (hb : Blocks message a.txBlocks)
    (hfuel : a.windowSize.toNat - sent < fuel) :
    ∃ sent' a', sendLoop fuel sent a = some (sent', a') ∧ Sends message a a' ∧ sent ≤ sent' ∧
      (sent < a.windowSize.toNat → a.nextTxSequence.toNat < a.txBlocks.length →
        sent < sent' ∧ ∀ m, Covers message m a → Covers message (m + 1) a') := by
  induction fuel generalizing sent a with
  | zero => omega
  | succ fuel ih =>
    unfold sendLoop
    by_cases hgo : sent < a.windowSize.toNat ∧ a.nextTxSequence.toNat < a.txBlocks.length
    · obtain ⟨hone, hcovers⟩ := sends_one hb hlen hgo.2
      have hat : a.txBlocks[a.nextTxSequence.toNat]? = some a.txBlocks[a.nextTxSequence.toNat] :=
        List.getElem?_eq_getElem hgo.2
      have hfind : a.findBlock a.nextTxSequence = some a.txBlocks[a.nextTxSequence.toNat] := by
        have := hb.find_sequence hlen hat
        rwa [UInt8.ofNat_toNat] at this
      have hfresh : (a.findBlock a.nextTxSequence).any (!·.acknowledged) = true := by
        rw [hfind, Option.any_some, hb.fresh _ (List.getElem_mem hgo.2)]
        rfl
      rw [if_pos hgo, if_pos hfresh]
      have hblocks : (a.sendBlock a.nextTxSequence).advance.txBlocks = a.txBlocks := by
        rw [hone.same]
      have hwindow : (a.sendBlock a.nextTxSequence).advance.windowSize = a.windowSize := by
        rw [hone.same]
      obtain ⟨sent', a', hrun, hsends, hle, -⟩ := ih (sent + 1) _ (by rw [hblocks]; exact hb)
        (by rw [hwindow]; omega)
      refine ⟨sent', a', hrun, hone.trans hsends, by omega, fun _ _ => ⟨by omega, ?_⟩⟩
      exact fun m hm => hsends.covers _ (hcovers m hm)
    · rw [if_neg hgo]
      exact ⟨sent, a, rfl, Sends.refl message a, le_rfl, fun h1 h2 => absurd ⟨h1, h2⟩ hgo⟩

/-! ## The sender -/

/-- The sender's side: idle without a message, or under way with nothing acknowledged. -/
structure SenderInv (message : List UInt8) (heard : Nat) (a : VariableARQ) : Prop where
  hung : a.hung = false
  quiet : a.completions = 0
  few : message.length ≤ 256 * maxDataBlockLength
  blocks : Blocks message a.txBlocks
  wired : Wired message a
  queue : a.state = .waitAck → a.retransmitQueue = []
  phase : (a.state = .idle ∧ message = [] ∧ a.frames = [] ∧ a.retransmitQueue = []) ∨
    (message ≠ [] ∧ a.windowSize ≠ 0 ∧
      (a.state = .waitAck ∨ a.state = .retransmit ∨ a.state = .error))
  covers : message ≠ [] → Covers message (heard + 1) a

theorem allBlocksAcked_eq_false {message : List UInt8} {a : VariableARQ}
    (hb : Blocks message a.txBlocks) (hm : message ≠ []) : a.allBlocksAcked = false := by
  obtain ⟨b, hmem⟩ := List.exists_mem_of_ne_nil _ (hb.ne_nil_iff.mpr hm)
  unfold allBlocksAcked
  rw [List.all_eq_false]
  exact ⟨b, hmem, by rw [hb.fresh b hmem]; exact Bool.false_ne_true⟩

/-- `send_next_blocks` with a block to send: the sender waits for the acknowledgement. -/
theorem sendNextBlocks_sends {message : List UInt8} {a : VariableARQ}
    (hb : Blocks message a.txBlocks) (hlen : message.length ≤ 256 * maxDataBlockLength)
    (hm : message ≠ []) (hwindow : a.windowSize ≠ 0) (hstate : a.state = .txData)
    (hnext : a.nextTxSequence.toNat < a.txBlocks.length) :
    ∃ a', a.sendNextBlocks = { a' with state := .waitAck, waitStartTime := a'.lastTxTime } ∧
      Sends message a a' ∧ ∀ m, Covers message m a → Covers message (m + 1) a' := by
  have hpos : 0 < a.windowSize.toNat := by
    refine Nat.pos_of_ne_zero fun h0 => hwindow ?_
    exact UInt8.toNat_inj.mp h0
  have hsmall := a.windowSize.toNat_lt
  obtain ⟨sent, a', hrun, hsends, -, hprogress⟩ :=
    sendLoop_sends hlen sendFuel 0 a hb (by unfold sendFuel; omega)
  obtain ⟨hsent, hcovers⟩ := hprogress hpos hnext
  refine ⟨a', ?_, hsends, hcovers⟩
  have hstate' : a'.state = .txData := by
    rw [hsends.same]
    exact hstate
  have hacked : a'.allBlocksAcked = false := by
    have hsame : a'.txBlocks = a.txBlocks := by rw [hsends.same]
    exact allBlocksAcked_eq_false (by rw [hsame]; exact hb) hm
  unfold sendNextBlocks
  rw [hrun]
  dsimp only
  rw [if_pos hsent]
  unfold frameSent
  rw [hstate']
  dsimp only
  rw [hacked]
  rfl

/-- `send_next_blocks` with nothing to send leaves the machine as it is. -/
theorem sendNextBlocks_idle {a : VariableARQ}
    (h : a.windowSize = 0 ∨ a.txBlocks.length ≤ a.nextTxSequence.toNat) :
    a.sendNextBlocks = a := by
  have hstop : ¬ (0 < a.windowSize.toNat ∧ a.nextTxSequence.toNat < a.txBlocks.length) := by
    rintro ⟨h1, h2⟩
    obtain h0 | hle := h
    · rw [h0] at h1
      exact absurd h1 (by decide)
    · omega
  have hloop : sendLoop sendFuel 0 a = some (0, a) := by
    unfold sendFuel sendLoop
    rw [if_neg hstop]
  unfold sendNextBlocks
  rw [hloop]
  rfl

/-- The next window goes out. -/
theorem senderInv_next {message : List UInt8} {heard : Nat} {a : VariableARQ}
    (hhung : a.hung = false) (hquiet : a.completions = 0) (hb : Blocks message a.txBlocks)
    (hlen : message.length ≤ 256 * maxDataBlockLength) (hwired : Wired message a)
    (hm : message ≠ []) (hwindow : a.windowSize ≠ 0) (hstate : a.state = .txData)
    (hqueue : a.retransmitQueue = []) (hnext : a.nextTxSequence.toNat < a.txBlocks.length)
    (hcovers : Covers message heard a) : SenderInv message heard a.sendNextBlocks := by
  obtain ⟨a', heq, hsends, hup⟩ := sendNextBlocks_sends hb hlen hm hwindow hstate hnext
  have hsame := hsends.same
  rw [heq]
  refine ⟨?_, ?_, hlen, ?_, hsends.wired hwired, fun _ => ?_, Or.inr ⟨hm, ?_, Or.inl rfl⟩,
    fun _ => hup heard hcovers⟩
  all_goals
    dsimp only
    rw [hsame]
    assumption

theorem senderInv_start {message data : List UInt8} {heard : Nat} {a : VariableARQ}
    (h : SenderInv message heard a) (hidle : a.state = .idle)
    (hdata : data = [] ∨ (a.windowSize ≠ 0 ∧ data.length ≤ 256 * maxDataBlockLength)) :
    SenderInv data 0 (a.startTransmission data) := by
  obtain ⟨-, -, hframes, hqueue⟩ | ⟨-, -, hs⟩ := h.phase
  · have hblocks := blocks_createBlocks a data
    have hwired : ∀ bs : List DataBlock,
        Wired data { a.createBlocks data with txBlocks := bs } := by
      intro bs f hf
      change f ∈ a.frames at hf
      rw [hframes] at hf
      cases hf
    unfold startTransmission
    rw [if_neg (not_not_intro hidle)]
    unfold startTx
    rw [show (a.createBlocks data).state = .idle from hidle]
    dsimp only
    by_cases hd : data = []
    · have hnil : (a.createBlocks data).txBlocks = [] := by
        by_contra hne
        exact hblocks.ne_nil_iff.mp hne hd
      rw [if_pos hnil]
      refine ⟨h.hung, h.quiet, ?_, hblocks, hwired _, fun _ => hqueue,
        Or.inl ⟨hidle, hd, hframes, hqueue⟩, fun hm => absurd hd hm⟩
      rw [hd]
      exact Nat.zero_le _
    · obtain ⟨hwindow, hlen⟩ := hdata.resolve_left hd
      have hne : (a.createBlocks data).txBlocks ≠ [] := hblocks.ne_nil_iff.mpr hd
      rw [if_neg hne]
      refine senderInv_next h.hung h.quiet hblocks hlen (hwired _) hd hwindow rfl hqueue ?_ ?_
      · exact List.length_pos_iff.mpr hne
      · exact Or.inr ⟨Nat.zero_le _, fun i hi => absurd hi (Nat.not_lt_zero i)⟩
  · rw [hidle] at hs
    obtain hs | hs | hs := hs <;> cases hs

/-- **An acknowledgement** acknowledges nothing: the next window goes out. -/
theorem senderInv_ack {message : List UInt8} {heard : Nat} {a : VariableARQ}
    (h : SenderInv message heard a)
    (hnext : a.state = .waitAck → a.nextTxSequence.toNat < a.txBlocks.length) :
    SenderInv message (if a.state = .waitAck then heard + 1 else heard) a.ackReceived := by
  by_cases hs : a.state = .waitAck
  · obtain ⟨hidle, -⟩ | ⟨hm, hwindow, -⟩ := h.phase
    · rw [hs] at hidle
      cases hidle
    · have hqueue := h.queue hs
      rw [if_pos hs]
      unfold ackReceived
      rw [hs]
      dsimp only
      rw [allBlocksAcked_eq_false h.blocks hm, if_neg Bool.false_ne_true,
        if_neg (not_not_intro hqueue)]
      exact senderInv_next h.hung h.quiet h.blocks h.few h.wired hm hwindow rfl hqueue (hnext hs)
        (h.covers hm)
  · rw [if_neg hs]
    unfold ackReceived
    split
    · contradiction
    · exact h

theorem senderInv_update {message : List UInt8} {heard : Nat} {a : VariableARQ} (now : UInt32)
    (h : SenderInv message heard a) : SenderInv message heard (a.update now) := by
  unfold update
  dsimp only
  split
  · rename_i hdue
    obtain ⟨hidle, -⟩ | ⟨hm, hwindow, -⟩ := h.phase
    · rw [hdue.1] at hidle
      cases hidle
    · unfold timedOut
      dsimp only
      rw [hdue.1]
      exact ⟨h.hung, h.quiet, h.few, h.blocks, h.wired, nofun,
        Or.inr ⟨hm, hwindow, Or.inr (Or.inl rfl)⟩, h.covers⟩
  · exact ⟨h.hung, h.quiet, h.few, h.blocks, h.wired, h.queue, h.phase, h.covers⟩

/-- One block of the queue goes out again. -/
theorem resend_sends {message : List UInt8} {a a' : VariableARQ} {seq : UInt8}
    (hb : Blocks message a.txBlocks) (hlen : message.length ≤ 256 * maxDataBlockLength)
    (h : a.resend seq = some a') :
    ∃ bs frames, a' = { a with txBlocks := bs, frames } ∧ Blocks message bs ∧
      bs.length = a.txBlocks.length ∧ (∀ f ∈ a.frames, f ∈ frames) ∧
        (Wired message a → Wired message a') := by
  unfold resend at h
  split at h
  · obtain rfl := Option.some.inj h
    exact ⟨a.txBlocks, a.frames, rfl, hb, rfl, fun _ => id, id⟩
  · rename_i b hfind
    split at h
    · obtain rfl := Option.some.inj h
      exact ⟨a.txBlocks, a.frames, rfl, hb, rfl, fun _ => id, id⟩
    · split at h
      · cases h
      · obtain rfl := Option.some.inj h
        obtain ⟨i, hi, hat, -⟩ := List.find?_eq_some_iff_getElem.mp hfind |>.2
        have hget : a.txBlocks[i]? = some b := by
          rw [List.getElem?_eq_getElem hi, hat]
        have hseq : seq = UInt8.ofNat i := by
          have hfound := List.find?_some hfind
          rw [decide_eq_true_iff] at hfound
          rw [← hfound, (hb.getElem 0 hget).1]
        obtain ⟨bytes, hformat, heq⟩ := sendBlock_eq hb hlen hi
        rw [hseq, heq]
        refine ⟨_, _, rfl, hb.modify _ _ (fun _ _ => rfl) (fun _ => rfl), List.length_modify _ _ _,
          fun f hf => List.mem_append_left _ hf, ?_⟩
        intro hw f hf
        change f ∈ a.frames ++ [bytes] at hf
        obtain hf | hf := List.mem_append.mp hf
        · obtain ⟨j, hj, hfj⟩ := hw f hf
          exact ⟨j, by simpa [modifyBlock] using hj, hfj⟩
        · rw [List.mem_singleton.mp hf]
          exact ⟨i, by simpa [modifyBlock] using hi, hformat⟩

theorem senderInv_retransmitAll {message : List UInt8} {heard : Nat} (queue : List UInt8)
    {a : VariableARQ} (h : SenderInv message heard a) (hm : message ≠ [])
    (hwindow : a.windowSize ≠ 0) : SenderInv message heard (retransmitAll queue a) := by
  induction queue generalizing a with
  | nil =>
    exact ⟨h.hung, h.quiet, h.few, h.blocks, h.wired, fun _ => rfl,
      Or.inr ⟨hm, hwindow, Or.inl rfl⟩, h.covers⟩
  | cons seq queue ih =>
    unfold retransmitAll
    cases hr : a.resend seq with
    | none =>
      exact ⟨h.hung, h.quiet, h.few, h.blocks, h.wired, nofun,
        Or.inr ⟨hm, hwindow, Or.inr (Or.inr rfl)⟩, h.covers⟩
    | some a' =>
      obtain ⟨bs, frames, rfl, hbs, hlength, hmore, hwired⟩ := resend_sends h.blocks h.few hr
      have hphase := h.phase.resolve_left fun hidle => hm hidle.2.1
      refine ih ⟨h.hung, h.quiet, h.few, hbs, hwired h.wired, h.queue, Or.inr hphase, ?_⟩ hwindow
      intro _
      obtain hall | ⟨hnext, hbefore⟩ := h.covers hm
      · refine Or.inl fun i hi => ?_
        change i < bs.length at hi
        rw [hlength] at hi
        exact (hall i hi).mono rfl hmore
      · exact Or.inr ⟨hnext, fun i hi => (hbefore i hi).mono rfl hmore⟩

theorem senderInv_dataReady {message : List UInt8} {heard : Nat} {a : VariableARQ}
    (h : SenderInv message heard a) : SenderInv message heard a.dataReady := by
  unfold dataReady
  split
  · rename_i hs
    obtain ⟨hidle, -⟩ | ⟨hm, hwindow, -⟩ := h.phase
    · rw [hs] at hidle
      cases hidle
    · exact senderInv_retransmitAll _ h hm hwindow
  · exact h

/-! ## The receiver -/

/-- The receiver's side: nothing received yet, or the whole message. -/
structure ReceiverInv (message : List UInt8) (r : VariableARQ) : Prop where
  hung : r.hung = false
  next : r.nextTxSequence = 0
  state : r.state = .idle ∨ r.state = .rxData ∨ r.state = .sendAck
  acks : ∀ bytes ∈ r.frames, ∃ bitMap, formatControlFrame (ackFrame bitMap) 256 = some bytes
  buffer : ((∀ i, r.rxBitmap i = false) ∧ r.rxBuffer = []) ∨ (message ≠ [] ∧ r.rxBuffer = message)

/-- What an acknowledgement does to the sender. -/
theorem handle_ack {a : VariableARQ} {bytes bitMap : List UInt8}
    (h : formatControlFrame (ackFrame bitMap) 256 = some bytes) :
    a.handleReceivedFrame bytes = a.ackReceived := by
  obtain ⟨hdetect, hparse⟩ := parse_format_ack h
  have hlength : ¬ bytes.length < 1 := by
    intro hshort
    unfold parseControlFrame at hparse
    rw [if_pos (by omega)] at hparse
    cases hparse
  have hmarks : ∀ (is : List Nat) (a : VariableARQ),
      is.foldl
        (fun a i =>
          if (List.replicate ackMapSize (0 : UInt8)).getD (i / 8) 0 &&&
              ((1 : UInt8) <<< UInt8.ofNat (i % 8)) ≠ 0 then
            a.markBlockAcked (UInt8.ofNat i)
          else a) a = a := by
    intro is
    induction is with
    | nil => exact fun a => rfl
    | cons i is ih =>
      intro a
      have hzero : (List.replicate ackMapSize (0 : UInt8)).getD (i / 8) 0 = 0 := by
        rw [List.getD_eq_getElem?_getD, List.getElem?_replicate]
        split <;> rfl
      rw [List.foldl_cons, hzero, if_neg (by simp), ih]
  have hack : a.processAck { ackNakType := .dataAck } = a := hmarks (List.range 256) a
  unfold handleReceivedFrame
  rw [if_neg hlength, hdetect]
  dsimp only
  rw [hparse]
  dsimp only
  rw [hack]

/-- What a frame of the message does to the receiver. -/
theorem handle_data {message bytes : List UInt8} {rate : UInt8} {i : Nat} (r : VariableARQ)
    (hlen : message.length ≤ 256 * maxDataBlockLength)
    (hi : maxDataBlockLength * i < message.length)
    (h : formatDataFrame (wire rate message i) 1200 = some bytes) :
    ∃ frame, parseDataFrame bytes = some frame ∧
      frame.msgByteOffset = maxDataBlockLength * i ∧
        frame.data = (message.drop (maxDataBlockLength * i)).take maxDataBlockLength ∧
          r.handleReceivedFrame bytes = (r.processDataFrame frame).frameReceived := by
  have hdata : (wire rate message i).data.length ≤ maxDataBlockLength := List.length_take_le _ _
  obtain ⟨hdetect, frame, hparse, -, hoff, hpayload⟩ := parse_format_data hdata h
  have hsmall : maxDataBlockLength * i < 2 ^ 32 := by
    unfold maxDataBlockLength at hlen hi ⊢
    omega
  have hlength : ¬ bytes.length < 1 := by
    intro hshort
    unfold parseDataFrame at hparse
    rw [if_pos (by omega)] at hparse
    cases hparse
  refine ⟨frame, hparse, ?_, hpayload, ?_⟩
  · rw [hoff]
    exact Nat.mod_eq_of_lt hsmall
  · unfold handleReceivedFrame
    rw [if_neg hlength, hdetect]
    dsimp only
    rw [hparse]

/-- A block written over the whole message. -/
theorem place_whole (message : List UInt8) {offset : Nat} (h : offset < message.length) :
    place message offset ((message.drop offset).take maxDataBlockLength) = message := by
  have hlength : ((message.drop offset).take maxDataBlockLength).length =
      min maxDataBlockLength (message.length - offset) := by
    rw [List.length_take, List.length_drop]
  have hroom : offset + min maxDataBlockLength (message.length - offset) - message.length = 0 := by
    omega
  unfold place
  dsimp only
  rw [hlength, hroom, List.replicate_zero, List.append_nil, List.append_assoc]
  have htail : (message.drop offset).take maxDataBlockLength ++
      message.drop (offset + min maxDataBlockLength (message.length - offset)) =
      message.drop offset := by
    by_cases hle : maxDataBlockLength ≤ message.length - offset
    · rw [Nat.min_eq_left hle, ← List.drop_drop, List.take_append_drop]
    · have hend : message.drop (offset + (message.length - offset)) = [] :=
        List.drop_eq_nil_of_le (by omega)
      rw [Nat.min_eq_right (by omega), List.take_of_length_le (by rw [List.length_drop]; omega),
        hend, List.append_nil]
  rw [htail, List.take_append_drop]

theorem place_nil (offset : Nat) (data : List UInt8) :
    place [] offset data = List.replicate offset 0 ++ data := by
  unfold place
  simp

/-- A block written into the empty buffer makes the message exactly when it is the last one and the
bytes in front of it are zero. -/
theorem message_prefix_place_iff (message : List UInt8) {offset : Nat}
    (h : offset < message.length) :
    message <+: place [] offset ((message.drop offset).take maxDataBlockLength) ↔
      offset + ((message.drop offset).take maxDataBlockLength).length = message.length ∧
        message.take offset = List.replicate offset 0 := by
  have hlength : ((message.drop offset).take maxDataBlockLength).length =
      min maxDataBlockLength (message.length - offset) := by
    rw [List.length_take, List.length_drop]
  rw [place_nil, hlength]
  constructor
  · intro hpre
    have hle := hpre.length_le
    rw [List.length_append, List.length_replicate, hlength] at hle
    have heq := hpre.eq_of_length (by
      rw [List.length_append, List.length_replicate, hlength]
      omega)
    refine ⟨by omega, ?_⟩
    have htake := congrArg (List.take offset) heq
    rwa [List.take_left' (List.length_replicate ..)] at htake
  · rintro ⟨hlast, hzero⟩
    have hall : (message.drop offset).take maxDataBlockLength = message.drop offset :=
      List.take_of_length_le (by rw [List.length_drop]; omega)
    rw [hall, ← hzero, List.take_append_drop]

/-- The receiver counts no block of its own, so each new block completes its transfer. -/
theorem processDataFrame_new {r : VariableARQ} {frame : DataFrame} (hnext : r.nextTxSequence = 0)
    (hnew : r.rxBitmap frame.sequenceNumber = false) :
    r.processDataFrame frame = ({ r with
      rxBitmap := fun i => if i = frame.sequenceNumber then true else r.rxBitmap i
      rxBuffer := place r.rxBuffer frame.msgByteOffset frame.data } : VariableARQ).transferComplete
      := by
  unfold processDataFrame
  rw [hnew, if_neg Bool.false_ne_true]
  dsimp only
  rw [if_pos]
  unfold allReceived
  rw [List.all_eq_true]
  intro i _
  simp [hnext]

/-- What `handle_received_frame` leaves alone, with the bitmap and the buffer it makes. -/
structure Receives (r r' : VariableARQ) : Prop where
  hung : r'.hung = r.hung
  next : r'.nextTxSequence = r.nextTxSequence
  frames : r'.frames = r.frames
  state : (r.state = .idle ∨ r.state = .rxData ∨ r.state = .sendAck) →
    r'.state = .idle ∨ r'.state = .rxData ∨ r'.state = .sendAck

theorem frameReceived_receives (r : VariableARQ) :
    Receives r r.frameReceived ∧ r.frameReceived.rxBitmap = r.rxBitmap ∧
      r.frameReceived.rxBuffer = r.rxBuffer ∧ r.frameReceived.completions = r.completions := by
  unfold frameReceived
  split
  · exact ⟨⟨rfl, rfl, rfl, fun _ => Or.inr (Or.inr rfl)⟩, rfl, rfl, rfl⟩
  · exact ⟨⟨rfl, rfl, rfl, id⟩, rfl, rfl, rfl⟩

theorem transferComplete_receives (r : VariableARQ) :
    Receives r r.transferComplete ∧ r.transferComplete.rxBitmap = r.rxBitmap ∧
      r.transferComplete.rxBuffer = r.rxBuffer ∧
        r.transferComplete.completions = r.completions + 1 := by
  unfold transferComplete
  dsimp only
  split
  · exact ⟨⟨rfl, rfl, rfl, fun _ => Or.inl rfl⟩, rfl, rfl, rfl⟩
  · exact ⟨⟨rfl, rfl, rfl, fun _ => Or.inl rfl⟩, rfl, rfl, rfl⟩
  · exact ⟨⟨rfl, rfl, rfl, id⟩, rfl, rfl, rfl⟩

theorem Receives.trans {a b c : VariableARQ} (h : Receives a b) (h' : Receives b c) :
    Receives a c :=
  ⟨h'.hung.trans h.hung, h'.next.trans h.next, h'.frames.trans h.frames, h'.state ∘ h.state⟩

/-- A new block at the receiver. -/
theorem receives_new {r : VariableARQ} {frame : DataFrame} (hnext : r.nextTxSequence = 0)
    (hnew : r.rxBitmap frame.sequenceNumber = false) :
    Receives r (r.processDataFrame frame).frameReceived ∧
      (r.processDataFrame frame).frameReceived.rxBuffer =
        place r.rxBuffer frame.msgByteOffset frame.data ∧
          (r.processDataFrame frame).frameReceived.completions = r.completions + 1 := by
  rw [processDataFrame_new hnext hnew]
  obtain ⟨h1, -, hbuf, hcount⟩ := transferComplete_receives { r with
    rxBitmap := fun i => if i = frame.sequenceNumber then true else r.rxBitmap i
    rxBuffer := place r.rxBuffer frame.msgByteOffset frame.data }
  obtain ⟨h2, -, hbuf', hcount'⟩ := frameReceived_receives ({ r with
    rxBitmap := fun i => if i = frame.sequenceNumber then true else r.rxBitmap i
    rxBuffer := place r.rxBuffer frame.msgByteOffset frame.data } : VariableARQ).transferComplete
  exact ⟨⟨h2.hung.trans h1.hung, h2.next.trans h1.next, h2.frames.trans h1.frames,
    h2.state ∘ h1.state⟩, hbuf'.trans hbuf, hcount'.trans hcount⟩

/-! ## Both sides -/

/-- Both sides of the transfer. -/
structure Inv (x : Transfer) : Prop where
  sender : SenderInv x.message x.heard x.sender
  receiver : ReceiverInv x.message x.receiver

theorem Inv.delivering {x : Transfer} (h : x.Inv) : x.Delivering := by
  obtain ⟨hs, hr⟩ := h
  refine ⟨⟨hs.hung, hr.hung⟩, ?_, ?_, ?_⟩
  · intro b hb
    obtain ⟨i, hi⟩ := List.mem_iff_getElem?.mp hb
    unfold findBlock
    rw [(hs.blocks.getElem 0 hi).1]
    exact hs.blocks.find_sequence hs.few hi
  · intro i b hb hheard
    have hlt : i < x.sender.txBlocks.length := (List.getElem?_eq_some_iff.mp hb).1
    have hm : x.message ≠ [] := hs.blocks.ne_nil_iff.mp (List.ne_nil_of_mem (List.mem_of_getElem? hb))
    have hout : Out x.message x.sender i := by
      obtain hall | ⟨hnext, hbefore⟩ := hs.covers hm
      · exact hall i hlt
      · exact hbefore i (by omega)
    unfold Sent
    rw [(hs.blocks.getElem x.sender.dataRate hb).2]
    exact hout
  · intro htx
    obtain ⟨hidle, -⟩ | ⟨-, -, hs'⟩ := hs.phase
    · rw [htx] at hidle
      cases hidle
    · rw [htx] at hs'
      obtain hs' | hs' | hs' := hs' <;> cases hs'

/-- The frame at the head is one of the message. -/
theorem nextData_wire {x : Transfer} (h : x.Inv) {bytes : List UInt8} (hb : x.nextData = some bytes) :
    ∃ i, maxDataBlockLength * i < x.message.length ∧
      formatDataFrame (wire x.sender.dataRate x.message i) 1200 = some bytes := by
  obtain ⟨i, hi, hformat⟩ := h.sender.wired bytes (List.mem_of_getElem? hb)
  exact ⟨i, (h.sender.blocks.whole i).mp hi, hformat⟩

/-- A frame at the receiver, under the condition. -/
theorem receiverInv_data {x : Transfer} (h : x.Inv) {bytes : List UInt8}
    (hb : x.nextData = some bytes) (hop : x.Keeps .dataArrives) :
    ReceiverInv x.message (x.receiver.handleReceivedFrame bytes) ∧
      ((x.receiver.handleReceivedFrame bytes).completions ≠ x.receiver.completions →
        (x.receiver.handleReceivedFrame bytes).rxBuffer = x.message) := by
  obtain ⟨i, hi, hformat⟩ := nextData_wire h hb
  obtain ⟨frame, hparse, hoff, hpayload, hhandle⟩ :=
    handle_data x.receiver h.sender.few hi hformat
  obtain ⟨hhung, hnext, hstate, hacks, hbuffer⟩ := h.receiver
  have hm : x.message ≠ [] := by
    intro hnil
    rw [hnil] at hi
    exact absurd hi (Nat.not_lt_zero _)
  rw [hhandle]
  by_cases hnew : x.receiver.rxBitmap frame.sequenceNumber = false
  · obtain ⟨hrec, hbuf, -⟩ := receives_new hnext hnew
    have hwhole : (x.receiver.processDataFrame frame).frameReceived.rxBuffer = x.message := by
      rw [hbuf, hoff, hpayload]
      obtain hfull | ⟨hlast, hzero⟩ := hop bytes frame hb hparse
      · rw [hfull]
        exact place_whole x.message hi
      · obtain ⟨-, hempty⟩ | ⟨-, hfull⟩ := hbuffer
        · rw [hoff, hpayload] at hlast
          rw [hoff] at hzero
          have hpre := (message_prefix_place_iff x.message hi).mpr ⟨hlast, hzero⟩
          rw [hempty]
          refine (hpre.eq_of_length ?_).symm
          rw [place_nil, List.length_append, List.length_replicate, hlast]
        · rw [hfull]
          exact place_whole x.message hi
    exact ⟨⟨hrec.hung.trans hhung, hrec.next.trans hnext, hrec.state hstate,
      by rw [hrec.frames]; exact hacks, Or.inr ⟨hm, hwhole⟩⟩, fun _ => hwhole⟩
  · have hold : x.receiver.processDataFrame frame = x.receiver := by
      unfold processDataFrame
      rw [if_pos (by simpa using hnew)]
    obtain ⟨hrec, hmap, hbuf, hcount⟩ := frameReceived_receives x.receiver
    rw [hold]
    refine ⟨⟨hrec.hung.trans hhung, hrec.next.trans hnext, hrec.state hstate,
      by rw [hrec.frames]; exact hacks, ?_⟩, fun hc => absurd hcount hc⟩
    rw [hmap, hbuf]
    exact hbuffer

theorem receiverInv_listen {message : List UInt8} {r : VariableARQ} (h : ReceiverInv message r) :
    ReceiverInv message r.startRx ∧ r.startRx.completions = r.completions := by
  unfold startRx
  split
  · exact ⟨⟨h.hung, h.next, Or.inr (Or.inl rfl), h.acks, h.buffer⟩, rfl⟩
  · exact ⟨h, rfl⟩

theorem receiverInv_acknowledge {message : List UInt8} {r : VariableARQ}
    (h : ReceiverInv message r) :
    ReceiverInv message r.sendAck ∧ r.sendAck.completions = r.completions := by
  unfold sendAck
  split
  · exact ⟨h, rfl⟩
  · rename_i bytes hformat
    have hacks : ∀ f ∈ r.frames ++ [bytes], ∃ bitMap,
        formatControlFrame (ackFrame bitMap) 256 = some f := by
      intro f hf
      obtain hf | hf := List.mem_append.mp hf
      · exact h.acks f hf
      · rw [List.mem_singleton.mp hf]
        exact ⟨_, hformat⟩
    unfold frameSent
    obtain hs | hs | hs := h.state <;> rw [hs] <;> dsimp only
    · exact ⟨⟨h.hung, h.next, Or.inl rfl, hacks, h.buffer⟩, rfl⟩
    · exact ⟨⟨h.hung, h.next, Or.inr (Or.inl rfl), hacks, h.buffer⟩, rfl⟩
    · exact ⟨⟨h.hung, h.next, Or.inr (Or.inl rfl), hacks, h.buffer⟩, rfl⟩

/-- A start that is refused. -/
theorem startTransmission_busy {a : VariableARQ} {data : List UInt8} (h : a.state ≠ .idle) :
    a.startTransmission data =
      { a with errors := a.errors ++ ["Cannot start transmission: not in IDLE state"] } :=
  if_pos h

/-- **One step under the condition** keeps both sides. -/
theorem inv_step {x : Transfer} {op : TransferOp} (h : x.Inv) (hop : x.Keeps op) :
    (x.step op).Inv := by
  obtain ⟨hs, hr⟩ := h
  cases op with
  | start data =>
    unfold step
    dsimp only
    split
    · rename_i hidle
      refine ⟨senderInv_start hs hidle (hop hidle), hr.hung, hr.next, hr.state, hr.acks, ?_⟩
      obtain hfresh | ⟨hm, -⟩ := hr.buffer
      · exact Or.inl hfresh
      · obtain ⟨-, hnil, -⟩ | ⟨-, -, hs'⟩ := hs.phase
        · exact absurd hnil hm
        · rw [hidle] at hs'
          obtain hs' | hs' | hs' := hs' <;> cases hs'
    · rename_i hbusy
      rw [startTransmission_busy hbusy]
      exact ⟨⟨hs.hung, hs.quiet, hs.few, hs.blocks, hs.wired, hs.queue, hs.phase, hs.covers⟩, hr⟩
  | tick now => exact ⟨senderInv_update now hs, hr⟩
  | ready => exact ⟨senderInv_dataReady hs, hr⟩
  | dataArrives =>
    unfold step
    dsimp only
    split
    · exact ⟨hs, hr⟩
    · rename_i bytes hb
      exact ⟨hs, (receiverInv_data ⟨hs, hr⟩ hb hop).1⟩
  | dataLost => exact ⟨hs, hr⟩
  | listen => exact ⟨hs, (receiverInv_listen hr).1⟩
  | acknowledge => exact ⟨hs, (receiverInv_acknowledge hr).1⟩
  | ackArrives =>
    unfold step
    dsimp only
    split
    · exact ⟨hs, hr⟩
    · rename_i bytes hb
      obtain ⟨bitMap, hformat⟩ := hr.acks bytes (List.mem_of_getElem? hb)
      rw [handle_ack hformat]
      exact ⟨senderInv_ack hs (hop (by rw [hb]; exact Option.some_ne_none bytes)), hr⟩
  | ackLost => exact ⟨hs, hr⟩

/-- A message under way stays the same. -/
theorem step_message {x : Transfer} (op : TransferOp) (h : x.sender.state ≠ .idle) :
    (x.step op).message = x.message := by
  cases op with
  | start data =>
    unfold step
    dsimp only
    rw [if_neg h]
  | dataArrives =>
    unfold step
    dsimp only
    split <;> rfl
  | ackArrives =>
    unfold step
    dsimp only
    split <;> rfl
  | _ => rfl

/-- Only a frame that arrives may complete the receiver's transfer. -/
theorem step_receiver_completions {x : Transfer} {op : TransferOp} (h : x.Inv)
    (hop : op ≠ .dataArrives) : (x.step op).receiver.completions = x.receiver.completions := by
  cases op with
  | start data =>
    unfold step
    dsimp only
    split <;> rfl
  | dataArrives => contradiction
  | listen => exact (receiverInv_listen h.receiver).2
  | acknowledge => exact (receiverInv_acknowledge h.receiver).2
  | ackArrives =>
    unfold step
    dsimp only
    split <;> rfl
  | _ => rfl

theorem right_step {x : Transfer} {op : TransferOp} (h : x.Inv) (hop : x.Keeps op) :
    x.Right op := by
  have hinv := inv_step h hop
  rintro (hc | hc | ⟨hbusy, hidle⟩)
  · exact absurd (hinv.sender.quiet.trans h.sender.quiet.symm) hc
  · by_cases hdata : op = .dataArrives
    · subst hdata
      revert hc
      unfold step
      dsimp only
      split
      · exact fun hc => absurd rfl hc
      · rename_i bytes hb
        intro hc
        have hwhole := (receiverInv_data h hb hop).2 hc
        exact ⟨[], (List.append_nil _).trans hwhole.symm⟩
    · exact absurd (step_receiver_completions h hdata) hc
  · obtain ⟨-, hnil, -⟩ | ⟨-, -, hs⟩ := hinv.sender.phase
    · rw [hnil]
      exact List.nil_prefix
    · rw [hidle] at hs
      obtain hs | hs | hs := hs <;> cases hs

/-! ## What goes wrong outside the condition -/

theorem sendLoop_txBlocks (fuel sent : Nat) (a : VariableARQ) {sent' : Nat} {a' : VariableARQ}
    (h : sendLoop fuel sent a = some (sent', a')) : a'.txBlocks = a.txBlocks := by
  induction fuel generalizing sent a with
  | zero => cases h
  | succ fuel ih =>
    have hsend : (a.sendBlock a.nextTxSequence).txBlocks = a.txBlocks := by
      unfold sendBlock
      split
      · rfl
      · split <;> rfl
    unfold sendLoop at h
    split at h
    · split at h
      · exact (ih _ _ h).trans hsend
      · exact ih sent a.advance h
    · cases h
      rfl

theorem sendNextBlocks_txBlocks (a : VariableARQ) : a.sendNextBlocks.txBlocks = a.txBlocks := by
  unfold sendNextBlocks
  split
  · rfl
  · rename_i sent a' hrun
    have hsame := sendLoop_txBlocks sendFuel 0 a hrun
    split
    · unfold frameSent transferComplete
      split
      · split
        · dsimp only
          split <;> exact hsame
        · exact hsame
      · exact hsame
      · exact hsame
    · exact hsame

/-- With the window closed, or all the blocks sent, the sender is stuck in `TX_DATA`. -/
theorem not_delivering_of_stuck {message : List UInt8} {x : Transfer} {a : VariableARQ}
    (ha : x.sender = a.sendNextBlocks) (hstate : a.state = .txData)
    (hb : Blocks message a.txBlocks) (hm : message ≠ [])
    (h : a.windowSize = 0 ∨ a.txBlocks.length ≤ a.nextTxSequence.toNat) : ¬ x.Delivering := by
  intro hd
  have hmoving := hd.moving
  rw [ha, sendNextBlocks_idle h] at hmoving
  have hacked := allBlocksAcked_eq_false hb hm
  rw [hmoving hstate] at hacked
  cases hacked

/-- **A step outside the condition** breaks a promise at once. -/
theorem not_keeps {x : Transfer} {op : TransferOp} (h : x.Inv) (hop : ¬ x.Keeps op)
    (hd : (x.step op).Delivering) : ¬ x.Right op := by
  obtain ⟨hs, hr⟩ := h
  cases op with
  | start data =>
    refine fun _ => hop fun hidle => ?_
    by_contra hn
    rw [not_or] at hn
    obtain ⟨hdata, hbad⟩ := hn
    have hblocks := blocks_createBlocks x.sender data
    have hne : (x.sender.createBlocks data).txBlocks ≠ [] := hblocks.ne_nil_iff.mpr hdata
    have hsender : (x.step (.start data)).sender =
        ({ x.sender.createBlocks data with state := .txData } : VariableARQ).sendNextBlocks := by
      have hidle' : (x.sender.createBlocks data).state = .idle := hidle
      unfold step
      dsimp only
      rw [if_pos hidle]
      dsimp only
      unfold startTransmission
      rw [if_neg (not_not_intro hidle)]
      unfold startTx
      rw [hidle']
      dsimp only
      rw [if_neg hne]
    by_cases hwindow : x.sender.windowSize = 0
    · exact not_delivering_of_stuck hsender rfl hblocks hdata (Or.inl hwindow) hd
    · have hlong : 256 * maxDataBlockLength < data.length := by
        by_contra hle
        exact hbad ⟨hwindow, Nat.not_lt.mp hle⟩
      obtain ⟨b, hb, hfind⟩ := hblocks.not_find hlong
      have htx : (x.step (.start data)).sender.txBlocks = (x.sender.createBlocks data).txBlocks := by
        rw [hsender]
        exact sendNextBlocks_txBlocks _
      refine hfind ?_
      have haddr := hd.addressable b (by rw [htx]; exact hb)
      unfold findBlock at haddr
      rwa [htx] at haddr
  | dataArrives =>
    intro hright
    refine hop fun bytes frame hb hparse => ?_
    by_contra hn
    rw [not_or] at hn
    obtain ⟨hnot, hplace⟩ := hn
    obtain ⟨i, hi, hformat⟩ := nextData_wire ⟨hs, hr⟩ hb
    obtain ⟨frame', hparse', hoff, hpayload, hhandle⟩ := handle_data x.receiver hs.few hi hformat
    rw [hparse] at hparse'
    obtain rfl := Option.some.inj hparse'
    obtain ⟨hnone, hempty⟩ := hr.buffer.resolve_right fun hfull => hnot hfull.2
    obtain ⟨-, hbuf, hcount⟩ := receives_new hr.next (hnone frame.sequenceNumber)
    have hstep : x.step .dataArrives = { x with
        receiver := (x.receiver.processDataFrame frame).frameReceived
        dataTaken := x.dataTaken + 1 } := by
      unfold step
      dsimp only
      rw [hb]
      dsimp only
      rw [hhandle]
    have hdone := hright
    unfold Right Completes at hdone
    rw [hstep] at hdone
    have hpre := hdone (Or.inr (Or.inl (by dsimp only; omega)))
    dsimp only at hpre
    rw [hbuf, hempty, hoff, hpayload] at hpre
    rw [hoff, hpayload] at hplace
    exact hplace ((message_prefix_place_iff x.message hi).mp hpre)
  | ackArrives =>
    refine fun _ => hop fun hack hwait => ?_
    by_contra hn
    obtain ⟨bytes, hb⟩ := Option.ne_none_iff_exists'.mp hack
    obtain ⟨bitMap, hformat⟩ := hr.acks bytes (List.mem_of_getElem? hb)
    obtain ⟨hidle, -⟩ | ⟨hm, hwindow, -⟩ := hs.phase
    · rw [hwait] at hidle
      cases hidle
    · have hsender : (x.step .ackArrives).sender =
          ({ x.sender with state := .txData } : VariableARQ).sendNextBlocks := by
        unfold step
        dsimp only
        rw [hb]
        dsimp only
        rw [handle_ack hformat]
        unfold ackReceived
        rw [hwait]
        dsimp only
        rw [allBlocksAcked_eq_false hs.blocks hm, if_neg Bool.false_ne_true,
          if_neg (not_not_intro (hs.queue hwait))]
      exact not_delivering_of_stuck hsender rfl hs.blocks hm (Or.inr (Nat.not_lt.mp hn)) hd
  | _ => exact fun _ => hop trivial

/-! ## The result -/

/-- Two fresh machines. -/
def fresh (windowSize maxRetransmits dataRate : UInt8) (ackTimeout : UInt32) : Transfer :=
  { sender := { windowSize, maxRetransmits, dataRate, ackTimeout } }

theorem inv_fresh (windowSize maxRetransmits dataRate : UInt8) (ackTimeout : UInt32) :
    (fresh windowSize maxRetransmits dataRate ackTimeout).Inv := by
  refine ⟨⟨rfl, rfl, Nat.zero_le _, ⟨?_, ?_, ?_⟩, ?_, fun _ => rfl, Or.inl ⟨rfl, rfl, rfl, rfl⟩,
    fun hm => absurd rfl hm⟩, rfl, rfl, Or.inl rfl, ?_, Or.inl ⟨fun _ => rfl, rfl⟩⟩
  · intro rate i b hb
    cases hb
  · intro b hb
    cases hb
  · intro i
    exact ⟨fun hi => absurd hi (Nat.not_lt_zero i), fun hi => absurd hi (Nat.not_lt_zero _)⟩
  · intro bytes hb
    cases hb
  · intro bytes hb
    cases hb

/-- **A transfer delivers or reports** exactly along the runs that meet the condition, whatever is
lost on the way. -/
theorem delivers_iff (windowSize maxRetransmits dataRate : UInt8) (ackTimeout : UInt32)
    (ops : List TransferOp) :
    Machine.AllStates step Delivering (fresh windowSize maxRetransmits dataRate ackTimeout) ops ∧
        Machine.AllSteps step Right (fresh windowSize maxRetransmits dataRate ackTimeout) ops ↔
      Machine.AllSteps step Keeps (fresh windowSize maxRetransmits dataRate ackTimeout) ops :=
  Machine.allStates_and_allSteps_iff (fun _ _ => inv_step) (fun _ => Inv.delivering)
    (fun _ _ => right_step) (fun _ _ => not_keeps) (inv_fresh _ _ _ _)

/-- One byte and one acknowledgement: the sender stays in `TX_DATA`, the byte unacknowledged. -/
theorem delivers_fail : ¬ ∀ (windowSize maxRetransmits dataRate : UInt8) (ackTimeout : UInt32)
    (ops : List TransferOp),
    Machine.AllStates step Delivering (fresh windowSize maxRetransmits dataRate ackTimeout) ops ∧
      Machine.AllSteps step Right (fresh windowSize maxRetransmits dataRate ackTimeout) ops := by
  intro h
  have hlast := (h 16 3 5 5000
    [.listen, .start [65], .dataArrives, .acknowledge, .ackArrives]).1.last
  have hmoving := hlast.moving
  revert hmoving
  decide +kernel

end Transfer

end OpenALE.Fs1052
