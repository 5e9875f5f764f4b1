import OpenALE.Fs1052.Arq

/-!
# Where FS-1052 reception reads and writes

The functions of `src/FS1052/frame_format.cpp` and `src/FS1052/fs1052_arq.cpp` that take a received
frame apart, with every access checked against its buffer: a `Fault` is an access outside. Here the
addresses of a control frame are read too, and `msg_byte_offset + data_length` wraps at 32 bits.
Zero bytes are written nowhere.

Results:
* `parseDataFrame_eq`: data frames are read inside the buffer, as `Fs1052.parseDataFrame` says.
* `parseControlFrame_eq`, `parseControlFrame_fault`: control frames are read inside the buffer
  unless their addresses are long and the frame is not.
* `processDataFrame_eq`: where the block is written, the machine is that of `VariableARQ`.
-/

namespace OpenALE.Fs1052

open Bits

namespace Memory

/-- An access outside its buffer. -/
inductive Fault where
  | read | write
  deriving Repr, DecidableEq

/-- `buffer[index]`. -/
def readAt (buffer : List UInt8) (index : Nat) : Except Fault UInt8 :=
  if index < buffer.length then .ok (buffer.getD index 0) else .error .read

/-- `n` bytes from `index` on. -/
def readRange (buffer : List UInt8) (index n : Nat) : Except Fault (List UInt8) :=
  if index + n ≤ buffer.length then .ok ((buffer.drop index).take n) else .error .read

/-- `validate_crc32`. -/
def validateCrc32 (buffer : List UInt8) : Except Fault Bool :=
  if buffer.length < 4 then .ok false
  else do
    let body ← readRange buffer 0 (buffer.length - 4)
    let crc ← readRange buffer (buffer.length - 4) 4
    .ok ((calculateCrc32 body).toNat = ofBE crc)

/-- The addresses, and the index behind them. -/
def readAddresses (buffer : List UInt8) : AddressMode → Except Fault (List UInt8 × List UInt8 × Nat)
  | .short => do
    let src1 ← readAt buffer 1
    let src0 ← readAt buffer 2
    let des1 ← readAt buffer 3
    let des0 ← readAt buffer 4
    .ok ([src0, src1], [des0, des1], 5)
  | .long => do
    let src ← readRange buffer 1 18
    let des ← readRange buffer 19 18
    .ok (src, des, 37)

/-- `parse_control_frame` behind the addresses. -/
def readControl (buffer : List UInt8) (frame : ControlFrame) (index : Nat) :
    Except Fault (Option ControlFrame) :=
  if index + 3 > buffer.length - 4 then .ok none
  else do
    let linkState ← readAt buffer index
    let timeout ← readRange buffer (index + 1) 2
    if index + 3 ≥ buffer.length - 4 then .ok none
    else do
      let ack ← readAt buffer (index + 3)
      let frame :=
        { frame with
          linkState, linkTimeout := ofBE timeout, ackNakType := AckNakType.ofCode (ack &&& 3) }
      if index + 4 + ackMapSize ≤ buffer.length - 4 ∧ frame.addressMode = .short then do
        let bitMap ← readRange buffer (index + 4) ackMapSize
        let last ← readAt buffer (index + 4 + ackMapSize - 1)
        .ok (some { frame with bitMap, flowControl := last &&& 0x80 ≠ 0 })
      else .ok (some frame)

/-- The address mode of a header. -/
def modeOf (header : UInt8) : AddressMode := if (header >>> 7) &&& 1 = 0 then .short else .long

/-- `parse_control_frame`. -/
def parseControlFrame (buffer : List UInt8) : Except Fault (Option ControlFrame) :=
  if buffer.length < 10 then .ok none
  else do
    let valid ← validateCrc32 buffer
    if valid = false then .ok none
    else do
      let header ← readAt buffer 0
      let (src, des, index) ← readAddresses buffer (modeOf header)
      readControl buffer
        { protocolVersion := (header >>> 2) &&& 3, arqMode := (header >>> 4) &&& 3
          negMode := (header >>> 6) &&& 1, addressMode := modeOf header, srcAddress := src
          desAddress := des } index

/-- `parse_data_frame`. -/
def parseDataFrame (buffer : List UInt8) : Except Fault (Option DataFrame) :=
  if buffer.length < 13 then .ok none
  else do
    let valid ← validateCrc32 buffer
    if valid = false then .ok none
    else do
      let header ← readAt buffer 0
      let interleaver ← readAt buffer 1
      let sequence ← readAt buffer 2
      let offset ← readRange buffer 3 4
      let length ← readRange buffer 7 2
      if ofBE length > maxDataBlockLength ∨ 9 + ofBE length + 4 ≠ buffer.length then .ok none
      else do
        let data ← readRange buffer 9 (ofBE length)
        .ok (some
          { dataRateFormat := (header >>> 7) &&& 1, dataRate := (header >>> 4) &&& 7
            interleaverLength := interleaver, sequenceNumber := sequence
            msgByteOffset := ofBE offset, data })

/-- The end of a block, as the source computes it. -/
def blockEnd (offset length : Nat) : Nat := (offset + length) % 2 ^ 32

/-- `m_rx_buffer` after its resizing, and the block copied to its place. -/
def placeBlock (buffer : List UInt8) (offset : Nat) (data : List UInt8) :
    Except Fault (List UInt8) :=
  let buffer := buffer ++ List.replicate (blockEnd offset data.length - buffer.length) 0
  if data = [] then .ok buffer
  else if offset + data.length ≤ buffer.length then
    .ok (buffer.take offset ++ data ++ buffer.drop (offset + data.length))
  else .error .write

/-- `process_data_frame`. -/
def processDataFrame (a : VariableARQ) (frame : DataFrame) : Except Fault VariableARQ :=
  if a.rxBitmap frame.sequenceNumber then .ok a
  else do
    let rxBuffer ← placeBlock a.rxBuffer frame.msgByteOffset frame.data
    let a :=
      { a with
        rxBitmap := fun i => if i = frame.sequenceNumber then true else a.rxBitmap i, rxBuffer }
    .ok (if a.allReceived then a.transferComplete else a)

/-- `handle_received_frame`. -/
def handleReceivedFrame (a : VariableARQ) (bytes : List UInt8) : Except Fault VariableARQ :=
  if bytes.length < 1 then .ok a
  else do
    let header ← readAt bytes 0
    if header &&& 0x02 ≠ 0 then do
      match ← parseControlFrame bytes with
      | some frame => .ok (a.processAck frame).ackReceived
      | none => .ok a
    else do
      match ← parseDataFrame bytes with
      | some frame => do
        let a ← processDataFrame a frame
        .ok a.frameReceived
      | none => .ok a

/-! ## Reads inside the buffer -/

variable {buffer : List UInt8} {index n : Nat}

theorem readAt_eq (h : index < buffer.length) : readAt buffer index = .ok (buffer.getD index 0) :=
  if_pos h

theorem readRange_eq (h : index + n ≤ buffer.length) :
    readRange buffer index n = .ok ((buffer.drop index).take n) := if_pos h

/-- The CRC is computed inside the buffer. -/
theorem validateCrc32_eq (buffer : List UInt8) :
    validateCrc32 buffer = .ok (Fs1052.validateCrc32 buffer) := by
  unfold validateCrc32 Fs1052.validateCrc32
  split_ifs with hshort
  · rfl
  · have hlast : (buffer.drop (buffer.length - 4)).take 4 = buffer.drop (buffer.length - 4) := by
      refine List.take_of_length_le ?_
      rw [List.length_drop]
      omega
    rw [readRange_eq (by omega), readRange_eq (by omega), hlast, List.drop_zero]
    rfl

theorem ok_bind {α β : Type} (x : α) (f : α → Except Fault β) : (.ok x >>= f) = f x := rfl

/-- **A data frame is read inside the buffer.** -/
theorem parseDataFrame_eq (buffer : List UInt8) :
    parseDataFrame buffer = .ok (Fs1052.parseDataFrame buffer) := by
  unfold parseDataFrame Fs1052.parseDataFrame
  by_cases hshort : buffer.length < 13
  · rw [if_pos hshort, if_pos hshort]
  · rw [if_neg hshort, if_neg hshort, validateCrc32_eq, ok_bind]
    by_cases hvalid : Fs1052.validateCrc32 buffer = false
    · rw [if_pos hvalid, if_pos hvalid]
    · rw [if_neg hvalid, if_neg hvalid, readAt_eq (by omega), ok_bind, readAt_eq (by omega), ok_bind,
        readAt_eq (by omega), ok_bind, readRange_eq (by omega), ok_bind, readRange_eq (by omega),
        ok_bind]
      dsimp only
      by_cases hlength : ofBE ((buffer.drop 7).take 2) > maxDataBlockLength ∨
          9 + ofBE ((buffer.drop 7).take 2) + 4 ≠ buffer.length
      · rw [if_pos hlength, if_pos hlength]
      · rw [if_neg hlength, if_neg hlength, readRange_eq (by omega), ok_bind]

/-- A frame as `Fs1052.parseControlFrame` gives it, which leaves the addresses out. -/
def withoutAddresses (frame : ControlFrame) : ControlFrame :=
  { frame with srcAddress := [], desAddress := [] }

theorem readControl_eq (frame : ControlFrame) (hlong : 10 ≤ buffer.length) :
    ∃ out, readControl buffer frame index = .ok out ∧ out.map withoutAddresses =
      if index + 3 ≥ buffer.length - 4 then none
      else
        let frame :=
          { withoutAddresses frame with
            linkState := buffer.getD index 0, linkTimeout := ofBE ((buffer.drop (index + 1)).take 2)
            ackNakType := AckNakType.ofCode (buffer.getD (index + 3) 0 &&& 3) }
        if index + 4 + ackMapSize ≤ buffer.length - 4 ∧ frame.addressMode = .short then
          some { frame with
            bitMap := (buffer.drop (index + 4)).take ackMapSize
            flowControl := buffer.getD (index + 4 + ackMapSize - 1) 0 &&& 0x80 ≠ 0 }
        else some frame := by
  unfold readControl
  by_cases hshort : index + 3 > buffer.length - 4
  · rw [if_pos hshort, if_pos (le_of_lt hshort)]
    exact ⟨none, rfl, rfl⟩
  · rw [if_neg hshort, readAt_eq (by omega), ok_bind, readRange_eq (by omega), ok_bind]
    by_cases hend : index + 3 ≥ buffer.length - 4
    · rw [if_pos hend, if_pos hend]
      exact ⟨none, rfl, rfl⟩
    · rw [if_neg hend, if_neg hend, readAt_eq (by omega), ok_bind]
      dsimp only
      by_cases hmap : index + 4 + ackMapSize ≤ buffer.length - 4 ∧ frame.addressMode = .short
      · have hroom := hmap.1
        unfold ackMapSize at hroom
        rw [if_pos hmap, readRange_eq (by unfold ackMapSize; omega), ok_bind,
          readAt_eq (by unfold ackMapSize; omega), ok_bind]
        exact ⟨_, rfl, (if_pos hmap).symm⟩
      · rw [if_neg hmap]
        exact ⟨_, rfl, (if_neg hmap).symm⟩

/-- **A control frame is read inside the buffer** if there is room for its addresses. -/
theorem parseControlFrame_eq (h : 10 ≤ buffer.length → Fs1052.validateCrc32 buffer = true →
    modeOf (buffer.getD 0 0) = .long → 37 ≤ buffer.length) :
    ∃ out, parseControlFrame buffer = .ok out ∧
      out.map withoutAddresses = Fs1052.parseControlFrame buffer := by
  unfold parseControlFrame Fs1052.parseControlFrame
  by_cases hshort : buffer.length < 10
  · rw [if_pos hshort, if_pos hshort]
    exact ⟨none, rfl, rfl⟩
  · rw [if_neg hshort, if_neg hshort, validateCrc32_eq, ok_bind]
    by_cases hvalid : Fs1052.validateCrc32 buffer = false
    · rw [if_pos hvalid, if_pos hvalid]
      exact ⟨none, rfl, rfl⟩
    · rw [if_neg hvalid, if_neg hvalid, readAt_eq (by omega), ok_bind]
      dsimp only
      have hmode : (if (buffer.getD 0 0 >>> 7) &&& 1 = 0 then AddressMode.short else .long) =
          modeOf (buffer.getD 0 0) := rfl
      rw [hmode]
      have hlen : 10 ≤ buffer.length := not_lt.mp hshort
      -- The two checks of the source behind the addresses are one.
      have hchecks {α : Type} (index : Nat) (x : Option α) :
          (if index + 3 > buffer.length - 4 then none
            else if index + 3 ≥ buffer.length - 4 then none else x) =
            if index + 3 ≥ buffer.length - 4 then none else x := by
        by_cases hgt : index + 3 > buffer.length - 4
        · rw [if_pos hgt, if_pos (le_of_lt hgt)]
        · rw [if_neg hgt]
      cases hm : modeOf (buffer.getD 0 0) with
      | short =>
        rw [readAddresses]
        rw [readAt_eq (by omega), ok_bind, readAt_eq (by omega), ok_bind, readAt_eq (by omega),
          ok_bind, readAt_eq (by omega), ok_bind, ok_bind]
        dsimp only
        obtain ⟨out, hout, hmap⟩ := readControl_eq _ hlen
        exact ⟨out, hout, hmap.trans (hchecks 5 _).symm⟩
      | long =>
        have hroom := h hlen (by simpa using hvalid) hm
        rw [readAddresses]
        rw [readRange_eq (by omega), ok_bind, readRange_eq (by omega), ok_bind, ok_bind]
        dsimp only
        obtain ⟨out, hout, hmap⟩ := readControl_eq _ hlen
        exact ⟨out, hout, hmap.trans (hchecks 37 _).symm⟩

/-- Long addresses in a short frame are read behind the buffer. -/
theorem parseControlFrame_fault (hlong : 10 ≤ buffer.length)
    (hvalid : Fs1052.validateCrc32 buffer = true) (hmode : modeOf (buffer.getD 0 0) = .long)
    (hshort : buffer.length < 37) : parseControlFrame buffer = .error .read := by
  unfold parseControlFrame
  rw [if_neg (not_lt.mpr hlong), validateCrc32_eq, ok_bind, hvalid, if_neg (by decide),
    readAt_eq (by omega), ok_bind, hmode]
  unfold readAddresses
  by_cases hsrc : 1 + 18 ≤ buffer.length
  · have hdes : readRange buffer 19 18 = .error .read := if_neg (by omega)
    rw [readRange_eq hsrc, ok_bind, hdes]
    rfl
  · have hfault : readRange buffer 1 18 = .error .read := if_neg hsrc
    rw [hfault]
    rfl

/-! ## Writes inside the buffer -/

/-- A block that the buffer has room for, or that does not wrap, is copied to its place. -/
theorem placeBlock_eq (rx : List UInt8) {data : List UInt8} {offset : Nat}
    (h : data = [] ∨ offset + data.length ≤ rx.length ∨ offset + data.length < 2 ^ 32) :
    ∃ out, placeBlock rx offset data = .ok out ∧
      (offset + data.length < 2 ^ 32 → out = VariableARQ.place rx offset data) := by
  unfold placeBlock
  dsimp only
  by_cases hnone : data = []
  · rw [if_pos hnone]
    refine ⟨_, rfl, fun hwrap => ?_⟩
    subst hnone
    rw [VariableARQ.place, blockEnd, Nat.mod_eq_of_lt hwrap]
    simp only [List.length_nil, Nat.add_zero, List.append_nil, List.take_append_drop]
  · rw [if_neg hnone]
    have hroom : offset + data.length ≤
        (rx ++ List.replicate (blockEnd offset data.length - rx.length) 0).length := by
      rw [List.length_append, List.length_replicate]
      obtain h | h | h := h
      · exact absurd h hnone
      · omega
      · rw [blockEnd, Nat.mod_eq_of_lt h]
        omega
    rw [if_pos hroom]
    refine ⟨_, rfl, fun hwrap => ?_⟩
    rw [VariableARQ.place, blockEnd, Nat.mod_eq_of_lt hwrap]

/-- Any other block is written behind the buffer. -/
theorem placeBlock_fault {rx data : List UInt8} {offset : Nat} (hsome : data ≠ [])
    (hlen : data.length < 2 ^ 32) (hoffset : offset < 2 ^ 32)
    (hbehind : rx.length < offset + data.length) (hwrap : 2 ^ 32 ≤ offset + data.length) :
    placeBlock rx offset data = .error .write := by
  unfold placeBlock blockEnd
  dsimp only
  rw [if_neg hsome, if_neg]
  rw [List.length_append, List.length_replicate]
  omega

/-- **Where the block does not wrap**, the machine is that of `VariableARQ`. -/
theorem processDataFrame_eq {a : VariableARQ} {frame : DataFrame}
    (h : frame.msgByteOffset + frame.data.length < 2 ^ 32) :
    processDataFrame a frame = .ok (a.processDataFrame frame) := by
  unfold processDataFrame VariableARQ.processDataFrame
  by_cases hdup : a.rxBitmap frame.sequenceNumber = true
  · rw [if_pos hdup, if_pos hdup]
  · obtain ⟨out, hout, hplace⟩ := placeBlock_eq a.rxBuffer (.inr (.inr h))
    rw [if_neg hdup, if_neg hdup, hout, ok_bind, hplace h]

end Memory

end OpenALE.Fs1052
