import OpenALE.Library.Bits

/-!
# FS-1052 frames

Model of `src/FS1052/frame_format.cpp`: the bytes of data frames and control frames, with their
CRC-32, and their parsing. A 32-bit field is a `Nat` that the frame cuts to four bytes.

* Left out: the herald, message and extension fields of a control frame (nothing sets them, and
  the parser marks them absent), and what the parser reads of the addresses.

Results:
* `parse_format_data`: a data frame arrives as it was sent.
* `parse_format_ack`: an acknowledgement without a frame type arrives without its bitmap.
-/

namespace OpenALE.Fs1052

open Bits

/-- `MAX_DATA_BLOCK_LENGTH`. -/
abbrev maxDataBlockLength : Nat := 1023

/-- `ACK_MAP_SIZE`. -/
abbrev ackMapSize : Nat := 32

/-! ## CRC-32 -/

/-- `CRC32_POLYNOMIAL`. -/
abbrev crc32Polynomial : UInt32 := 0x04C11DB7

/-- `crc32_byte`. -/
def crc32Byte (data : UInt8) (crc : UInt32) : UInt32 :=
  (List.range 8).foldl
    (fun crc _ =>
      if crc &&& 0x80000000 ≠ 0 then (crc <<< 1) ^^^ crc32Polynomial else crc <<< 1)
    (crc ^^^ (data.toUInt32 <<< 24))

/-- `calculate_crc32`. -/
def calculateCrc32 (data : List UInt8) : UInt32 :=
  ~~~ data.foldl (fun crc byte => crc32Byte byte crc) 0xFFFFFFFF

/-- `append_crc32`. -/
def appendCrc32 (buffer : List UInt8) : List UInt8 :=
  buffer ++ toBE 4 (calculateCrc32 buffer).toNat

/-- `validate_crc32`. -/
def validateCrc32 (buffer : List UInt8) : Bool :=
  if buffer.length < 4 then false
  else (calculateCrc32 (buffer.take (buffer.length - 4))).toNat =
    ofBE (buffer.drop (buffer.length - 4))

@[simp] theorem length_appendCrc32 (buffer : List UInt8) :
    (appendCrc32 buffer).length = buffer.length + 4 := by
  rw [appendCrc32, List.length_append, length_toBE]

/-- **The CRC of a frame that arrives whole is valid.** -/
@[simp] theorem validateCrc32_append (buffer : List UInt8) :
    validateCrc32 (appendCrc32 buffer) = true := by
  have hlength : ¬ (appendCrc32 buffer).length < 4 := by
    rw [length_appendCrc32]
    omega
  have hcrc : (calculateCrc32 buffer).toNat < 256 ^ 4 := (calculateCrc32 buffer).toNat_lt
  unfold validateCrc32
  rw [if_neg hlength, length_appendCrc32, Nat.add_sub_cancel, appendCrc32, List.take_left,
    List.drop_left, ofBE_toBE, Nat.mod_eq_of_lt hcrc]
  exact decide_eq_true rfl

/-! ## Frames -/

/-- `FrameType`. -/
inductive FrameType where
  | noFrame | t1Control | t2Control | t3Control | t4Control | data
  deriving Repr, DecidableEq

/-- `AckNakType`, with its code. -/
inductive AckNakType where
  | nullAck | dataAck | dataAckReq | heraldAck
  deriving Repr, DecidableEq

def AckNakType.code : AckNakType → UInt8
  | .nullAck => 0
  | .dataAck => 1
  | .dataAckReq => 2
  | .heraldAck => 3

/-- The cast of two bits. -/
def AckNakType.ofCode (code : UInt8) : AckNakType :=
  if code = 0 then .nullAck
  else if code = 1 then .dataAck
  else if code = 2 then .dataAckReq
  else .heraldAck

/-- `AddressMode`. -/
inductive AddressMode where
  | short | long
  deriving Repr, DecidableEq

/-- `ControlFrame`, an enumeration that is only copied as its code. -/
structure ControlFrame where
  protocolVersion : UInt8 := 0
  arqMode : UInt8 := 0
  negMode : UInt8 := 0
  addressMode : AddressMode := .short
  frameType : FrameType := .noFrame
  srcAddress : List UInt8 := []
  desAddress : List UInt8 := []
  linkState : UInt8 := 0
  linkTimeout : Nat := 0
  ackNakType : AckNakType := .nullAck
  bitMap : List UInt8 := List.replicate ackMapSize 0
  flowControl : Bool := false
  deriving Repr, DecidableEq

/-- `DataFrame`; `data_length` is the length of the data. -/
structure DataFrame where
  dataRateFormat : UInt8 := 0
  dataRate : UInt8 := 5
  interleaverLength : UInt8 := 1
  sequenceNumber : UInt8 := 0
  msgByteOffset : Nat := 0
  data : List UInt8 := []
  deriving Repr, DecidableEq

/-! ## Formatting -/

/-- An abbreviated address: the last byte, then the one before it. -/
def shortAddress (address : List UInt8) : List UInt8 :=
  [address.reverse.getD 0 0, address.reverse.getD 1 0]

/-- A full address. -/
def longAddress (address : List UInt8) : List UInt8 :=
  (address ++ List.replicate 18 0).take 18

/-- The bitmap, with the flow control bit in its last byte. -/
def bitMapBytes (frame : ControlFrame) : List UInt8 :=
  if frame.flowControl then frame.bitMap.modify (ackMapSize - 1) (· ||| 0x80) else frame.bitMap

/-- `format_control_frame`. -/
def formatControlFrame (frame : ControlFrame) (bufferSize : Nat) : Option (List UInt8) :=
  if bufferSize < 256 then none
  else
    let header : UInt8 := (0x01 : UInt8) ||| (0x02 : UInt8) ||| ((frame.protocolVersion &&& 3) <<< 2) |||
      ((frame.arqMode &&& 3) <<< 4) ||| ((frame.negMode &&& 1) <<< 6) |||
      (if frame.addressMode = .long then (0x80 : UInt8) else 0)
    let addresses := match frame.addressMode with
      | .short => shortAddress frame.srcAddress ++ shortAddress frame.desAddress
      | .long => longAddress frame.srcAddress ++ longAddress frame.desAddress
    -- the bitmap goes out only under a frame type that has one
    let bitMap :=
      if (frame.frameType = .t2Control ∨ frame.frameType = .t3Control ∨
          frame.frameType = .t4Control) ∧ frame.ackNakType = .dataAck ∧
          frame.addressMode = .short then bitMapBytes frame
      else []
    some (appendCrc32 (header :: addresses ++ frame.linkState :: toBE 2 frame.linkTimeout ++
      (frame.ackNakType.code &&& 3) :: bitMap))

/-- `format_data_frame`. -/
def formatDataFrame (frame : DataFrame) (bufferSize : Nat) : Option (List UInt8) :=
  if bufferSize < frame.data.length + 20 then none
  else
    let header : UInt8 :=
      (0x01 : UInt8) ||| (frame.dataRateFormat <<< 7) ||| ((frame.dataRate &&& 7) <<< 4)
    some (appendCrc32 (header :: frame.interleaverLength :: frame.sequenceNumber ::
      toBE 4 frame.msgByteOffset ++ toBE 2 frame.data.length ++ frame.data))

/-! ## Parsing -/

/-- `detect_frame_type`. -/
def detectFrameType (buffer : List UInt8) : FrameType :=
  if buffer.getD 0 0 &&& 0x02 ≠ 0 then .t1Control else .data

/-- `parse_control_frame`: whether the bitmap is there is told from the length. -/
def parseControlFrame (buffer : List UInt8) : Option ControlFrame :=
  if buffer.length < 10 then none
  else if validateCrc32 buffer = false then none
  else
    let header := buffer.getD 0 0
    let mode : AddressMode := if (header >>> 7) &&& 1 = 0 then .short else .long
    let index := match mode with
      | .short => 5
      | .long => 37
    if index + 3 > buffer.length - 4 then none
    else if index + 3 ≥ buffer.length - 4 then none
    else
      let frame : ControlFrame :=
        { protocolVersion := (header >>> 2) &&& 3, arqMode := (header >>> 4) &&& 3
          negMode := (header >>> 6) &&& 1, addressMode := mode, linkState := buffer.getD index 0
          linkTimeout := ofBE ((buffer.drop (index + 1)).take 2)
          ackNakType := AckNakType.ofCode (buffer.getD (index + 3) 0 &&& 3) }
      if index + 4 + ackMapSize ≤ buffer.length - 4 ∧ mode = .short then
        some { frame with
          bitMap := (buffer.drop (index + 4)).take ackMapSize
          flowControl := buffer.getD (index + 4 + ackMapSize - 1) 0 &&& 0x80 ≠ 0 }
      else some frame

/-- `parse_data_frame`. -/
def parseDataFrame (buffer : List UInt8) : Option DataFrame :=
  if buffer.length < 13 then none
  else if validateCrc32 buffer = false then none
  else
    let header := buffer.getD 0 0
    let length := ofBE ((buffer.drop 7).take 2)
    if length > maxDataBlockLength ∨ 9 + length + 4 ≠ buffer.length then none
    else some
      { dataRateFormat := (header >>> 7) &&& 1, dataRate := (header >>> 4) &&& 7
        interleaverLength := buffer.getD 1 0, sequenceNumber := buffer.getD 2 0
        msgByteOffset := ofBE ((buffer.drop 3).take 4), data := (buffer.drop 9).take length }

/-! ## What arrives -/

theorem header_and_two (format rate : UInt8) :
    ((0x01 : UInt8) ||| (format <<< 7) ||| ((rate &&& 7) <<< 4)) &&& 0x02 = 0 := by
  apply UInt8.toBitVec_inj.mp
  ext i hi
  interval_cases i <;> simp

/-- **A data frame arrives as it was sent.** -/
theorem parse_format_data {frame : DataFrame} {bufferSize : Nat} {bytes : List UInt8}
    (hdata : frame.data.length ≤ maxDataBlockLength)
    (hformat : formatDataFrame frame bufferSize = some bytes) :
    detectFrameType bytes = .data ∧ ∃ arrived, parseDataFrame bytes = some arrived ∧
      arrived.sequenceNumber = frame.sequenceNumber ∧
        arrived.msgByteOffset = frame.msgByteOffset % 2 ^ 32 ∧ arrived.data = frame.data := by
  unfold formatDataFrame at hformat
  split at hformat
  · cases hformat
  · obtain rfl := Option.some.inj hformat
    set body : List UInt8 := _ :: frame.interleaverLength :: frame.sequenceNumber ::
      toBE 4 frame.msgByteOffset ++ toBE 2 frame.data.length ++ frame.data with hbody
    have hlength : (appendCrc32 body).length = 9 + frame.data.length + 4 := by
      rw [length_appendCrc32, hbody]
      simp
      omega
    have hfield : ofBE (((appendCrc32 body).drop 7).take 2) = frame.data.length := by
      have hwritten : ((appendCrc32 body).drop 7).take 2 = toBE 2 frame.data.length := rfl
      rw [hwritten, ofBE_toBE]
      unfold maxDataBlockLength at hdata
      omega
    have hoffset : ofBE (((appendCrc32 body).drop 3).take 4) = frame.msgByteOffset % 2 ^ 32 :=
      ofBE_toBE 4 _
    have hpayload : ((appendCrc32 body).drop 9).take frame.data.length = frame.data :=
      List.take_left
    refine ⟨?_, ?_⟩
    · unfold detectFrameType
      rw [if_neg]
      exact not_not_intro (header_and_two frame.dataRateFormat frame.dataRate)
    · unfold parseDataFrame
      rw [if_neg (by omega), validateCrc32_append, if_neg (by decide)]
      dsimp only
      rw [hfield, if_neg (by omega)]
      exact ⟨_, rfl, rfl, hoffset, hpayload⟩

/-- The acknowledgement of `send_ack`: the frame type is left at `NO_FRAME`. -/
def ackFrame (bitMap : List UInt8) : ControlFrame :=
  { arqMode := 0, ackNakType := .dataAck, bitMap }

/-- **An acknowledgement arrives without its bitmap.** -/
theorem parse_format_ack {bitMap bytes : List UInt8} {bufferSize : Nat}
    (hformat : formatControlFrame (ackFrame bitMap) bufferSize = some bytes) :
    detectFrameType bytes = .t1Control ∧
      parseControlFrame bytes = some { ackNakType := .dataAck } := by
  unfold formatControlFrame at hformat
  split at hformat
  · cases hformat
  · have hbytes : bytes = appendCrc32 [3, 0, 0, 0, 0, 0, 0, 0, 1] := by
      rw [← Option.some.inj hformat]
      simp [ackFrame, shortAddress, toBE, AckNakType.code]
      decide +kernel
    rw [hbytes]
    exact ⟨by decide +kernel, by decide +kernel⟩

end OpenALE.Fs1052
