import OpenALE.Library.Crc
import OpenALE.Fs1052.Frame

/-!
# What an FS-1052 data frame says

A data frame of the fields of the header is read back from its bytes. The parser looks at the
frame's length and CRC, and at no more of the first byte than the data rate and its format: what
it accepts is the formatting of the frame it returns up to the four low bits of that byte, under
the CRC of the bytes as they are. A formatted frame with a burst of at most 32 bits in it, in the
order of the CRC, is not accepted.

Results:
* `calculateCrc32_eq`: the CRC-32 as the register of a cyclic redundancy check.
* `eq_of_burst`: two valid strings of bytes that differ only within 32 bits are the same.
* `dataFrames`: the round trip, what is accepted, and what a burst does.
-/

namespace OpenALE.Fs1052

open Bits Crc

variable {bytes bytes' : List UInt8} {frame : DataFrame}

/-! ## The CRC-32 as a register -/

/-- `CRC32_POLYNOMIAL` without its highest term. -/
abbrev polynomial : BitVec 32 := crc32Polynomial.toBitVec

theorem shift_toBitVec (crc : UInt32) :
    (if crc &&& 0x80000000 ≠ 0 then (crc <<< 1) ^^^ crc32Polynomial else crc <<< 1).toBitVec =
      shift polynomial crc.toBitVec := by
  have hbit : crc &&& 0x80000000 ≠ 0 ↔ crc.toBitVec.msb = true := by
    have hand : (crc &&& 0x80000000).toBitVec = crc.toBitVec &&& BitVec.twoPow 32 31 := rfl
    rw [ne_eq, ← UInt32.toBitVec_inj, hand, BitVec.and_twoPow, BitVec.msb_eq_getLsbD_last]
    cases crc.toBitVec.getLsbD 31 <;> decide
  unfold shift
  by_cases hmsb : crc.toBitVec.msb = true
  · rw [if_pos (hbit.mpr hmsb), if_pos hmsb]
    rfl
  · rw [if_neg (fun h => hmsb (hbit.mp h)), if_neg hmsb]
    rfl

/-- A byte alone, as its bits and as the top of the register. -/
theorem run_byteBits_zero (b : UInt8) : run polynomial 0#32 (byteBits b) =
    run polynomial (b.toUInt32 <<< 24).toBitVec (List.replicate 8 false) := by
  have hall : ∀ n < 256, run polynomial 0#32 (byteBits (UInt8.ofNat n)) =
      run polynomial ((UInt8.ofNat n).toUInt32 <<< 24).toBitVec (List.replicate 8 false) := by
    decide +kernel
  have hb := hall b.toNat b.toNat_lt
  rwa [UInt8.ofNat_toNat] at hb

theorem crc32Byte_eq (data : UInt8) (crc : UInt32) :
    (crc32Byte data crc).toBitVec = run polynomial crc.toBitVec (byteBits data) := by
  have hshifts : (crc32Byte data crc).toBitVec =
      run polynomial (crc ^^^ (data.toUInt32 <<< 24)).toBitVec (List.replicate 8 false) := by
    have hfeed (c : BitVec 32) : feed polynomial c false = shift polynomial c := by
      rw [feed, top, if_neg (by decide), BitVec.xor_zero]
    have hloop (k : Nat) (c : UInt32) :
        ((List.range k).foldl (fun (crc : UInt32) (_ : Nat) =>
          if crc &&& 0x80000000 ≠ 0 then (crc <<< 1) ^^^ crc32Polynomial else crc <<< 1)
            c).toBitVec = run polynomial c.toBitVec (List.replicate k false) := by
      induction k with
      | zero => rfl
      | succ k ih =>
        rw [List.range_succ, List.foldl_append, List.foldl_cons, List.foldl_nil, shift_toBitVec, ih,
          List.replicate_succ', run_append]
        exact (hfeed _).symm
    exact hloop 8 _
  have hbits : run polynomial crc.toBitVec (byteBits data) =
      run polynomial crc.toBitVec (List.replicate 8 false) ^^^
        run polynomial 0#32 (byteBits data) := by
    have hlen : (List.replicate 8 false).length = (byteBits data).length := by
      rw [List.length_replicate, length_byteBits]
    rw [← run_xor hlen, BitVec.xor_zero, ← length_byteBits data, zipWith_xor_zeros]
  have hsplit : run polynomial (crc ^^^ (data.toUInt32 <<< 24)).toBitVec (List.replicate 8 false) =
      run polynomial crc.toBitVec (List.replicate 8 false) ^^^
        run polynomial (data.toUInt32 <<< 24).toBitVec (List.replicate 8 false) :=
    @run_xor 32 polynomial (List.replicate 8 false) (List.replicate 8 false) rfl _ _
  rw [hshifts, hsplit, hbits, run_byteBits_zero]

/-- **The CRC-32** is the complement of the register that all ones become. -/
theorem calculateCrc32_eq (data : List UInt8) : (calculateCrc32 data).toBitVec =
    ~~~ run polynomial (BitVec.allOnes 32) (bitsOf data) := by
  have hfold (crc : UInt32) : (data.foldl (fun crc byte => crc32Byte byte crc) crc).toBitVec =
      run polynomial crc.toBitVec (bitsOf data) := by
    induction data generalizing crc with
    | nil => rfl
    | cons b data ih => rw [List.foldl_cons, ih, crc32Byte_eq, bitsOf_cons, run_append]
  have hones : (0xFFFFFFFF : UInt32).toBitVec = BitVec.allOnes 32 := rfl
  rw [calculateCrc32, UInt32.toBitVec_not, hfold, hones]

/-! ## Bursts -/

theorem length_of_valid (h : validateCrc32 bytes = true) : 4 ≤ bytes.length := by
  by_contra hshort
  rw [validateCrc32, if_pos (not_le.mp hshort)] at h
  cases h

/-- The last four bytes of a valid string are its CRC. -/
theorem word_of_valid (h : validateCrc32 bytes = true) :
    word (bitsOf (bytes.drop (bytes.length - 4))) =
      ~~~ run polynomial (BitVec.allOnes 32) (bitsOf (bytes.take (bytes.length - 4))) := by
  have hlen := length_of_valid h
  have htail : (bytes.drop (bytes.length - 4)).length = 4 := by
    rw [List.length_drop]
    omega
  have hcrc := h
  rw [validateCrc32, if_neg (by omega), decide_eq_true_eq] at hcrc
  rw [← calculateCrc32_eq]
  apply BitVec.eq_of_getLsbD_eq
  intro i hi
  rw [getLsbD_word (by rw [length_bitsOf, htail]) hi, ← BitVec.testBit_toNat,
    UInt32.toNat_toBitVec, hcrc, testBit_ofBE (by omega), htail]

theorem run_of_valid (h : validateCrc32 bytes = true) (h' : validateCrc32 bytes' = true)
    (hlen : bytes.length = bytes'.length) :
    run polynomial 0#32 (List.zipWith xor (bitsOf bytes) (bitsOf bytes')) = 0#32 := by
  have h4 := length_of_valid h
  set n := bytes.length - 4 with hn
  have htail := word_of_valid h
  have htail' := word_of_valid h'
  rw [← hlen] at htail'
  have hsplit (bs : List UInt8) : bitsOf bs = bitsOf (bs.take n) ++ bitsOf (bs.drop n) := by
    rw [← bitsOf_append, List.take_append_drop]
  have hbody : (bitsOf (bytes.take n)).length = (bitsOf (bytes'.take n)).length := by
    rw [length_bitsOf, length_bitsOf, List.length_take, List.length_take, hlen]
  have hrest : (bitsOf (bytes.drop n)).length = 32 ∧ (bitsOf (bytes'.drop n)).length = 32 := by
    rw [length_bitsOf, length_bitsOf, List.length_drop, List.length_drop, ← hlen]
    omega
  have hbefore : run polynomial 0#32
      (List.zipWith xor (bitsOf (bytes.take n)) (bitsOf (bytes'.take n))) =
        word (List.zipWith xor (bitsOf (bytes.drop n)) (bitsOf (bytes'.drop n))) := by
    rw [word_xor (hrest.1.trans hrest.2.symm), htail, htail', ← BitVec.not_xor_left,
      ← BitVec.not_xor_right, BitVec.not_not, ← run_xor hbody, BitVec.xor_self]
  rw [hsplit bytes, hsplit bytes', List.zipWith_append hbody, run_append,
    run_eq_zero_iff (by decide) (by rw [List.length_zipWith, hrest.1, hrest.2]; decide), hbefore]

/-- **Valid strings that differ within 32 bits** are the same. -/
theorem eq_of_burst (h : validateCrc32 bytes = true) (h' : validateCrc32 bytes' = true) {k : Nat}
    (hagree : AgreeOutside k 32 (bitsOf bytes) (bitsOf bytes')) : bytes = bytes' := by
  have hlen : bytes.length = bytes'.length := by
    have heq := hagree.1
    rw [length_bitsOf, length_bitsOf] at heq
    omega
  exact bitsOf_injective (burst_detected (by decide) hagree (run_of_valid h h' hlen))

/-! ## The fields -/

/-- The fields hold values of their types: `data_rate_format` is one of two, `msg_byte_offset` has
32 bits. -/
def DataFrame.Typed (frame : DataFrame) : Prop :=
  frame.dataRateFormat < 2 ∧ frame.msgByteOffset < 2 ^ 32

/-- The first byte of a formatted frame. -/
def dataHeader (frame : DataFrame) : UInt8 :=
  (0x01 : UInt8) ||| (frame.dataRateFormat <<< 7) ||| ((frame.dataRate &&& 7) <<< 4)

/-- The bytes of a frame after the first one and before the CRC. -/
def dataFields (frame : DataFrame) : List UInt8 :=
  frame.interleaverLength :: frame.sequenceNumber ::
    toBE 4 frame.msgByteOffset ++ toBE 2 frame.data.length ++ frame.data

theorem formatDataFrame_eq {bufferSize : Nat} (h : frame.data.length + 20 ≤ bufferSize) :
    formatDataFrame frame bufferSize = some (appendCrc32 (dataHeader frame :: dataFields frame)) := by
  rw [formatDataFrame, if_neg (not_lt.mpr h)]
  rfl

theorem dataHeader_fields (hformat : frame.dataRateFormat < 2) (hrate : frame.dataRate < 8) :
    (dataHeader frame >>> 7) &&& 1 = frame.dataRateFormat ∧
      (dataHeader frame >>> 4) &&& 7 = frame.dataRate := by
  have hall : ∀ f < 2, ∀ r < 8,
      let header := (0x01 : UInt8) ||| (UInt8.ofNat f <<< 7) ||| ((UInt8.ofNat r &&& 7) <<< 4)
      (header >>> 7) &&& 1 = UInt8.ofNat f ∧ (header >>> 4) &&& 7 = UInt8.ofNat r := by
    decide
  have hfields := hall _ (UInt8.lt_iff_toNat_lt.mp hformat) _ (UInt8.lt_iff_toNat_lt.mp hrate)
  rw [UInt8.ofNat_toNat, UInt8.ofNat_toNat] at hfields
  exact hfields

/-- The data rate and its format are the four high bits of the header. -/
theorem dataHeader_high {header : UInt8} (hformat : frame.dataRateFormat = (header >>> 7) &&& 1)
    (hrate : frame.dataRate = (header >>> 4) &&& 7) :
    dataHeader frame &&& 0xF0 = header &&& 0xF0 := by
  have hall : ∀ n < 256,
      let header := UInt8.ofNat n
      ((0x01 : UInt8) ||| (((header >>> 7) &&& 1) <<< 7) |||
        ((((header >>> 4) &&& 7) &&& 7) <<< 4)) &&& 0xF0 = header &&& 0xF0 := by
    decide +kernel
  have hbyte := hall header.toNat header.toNat_lt
  rw [UInt8.ofNat_toNat] at hbyte
  rw [dataHeader, hformat, hrate]
  exact hbyte

/-- **What the parser reads** of a frame's fields under any first byte. -/
theorem parseDataFrame_fields (h : frame.data.length ≤ maxDataBlockLength) (header : UInt8) :
    parseDataFrame (appendCrc32 (header :: dataFields frame)) =
      some { frame with
        dataRateFormat := (header >>> 7) &&& 1, dataRate := (header >>> 4) &&& 7
        msgByteOffset := frame.msgByteOffset % 2 ^ 32 } := by
  set body := header :: dataFields frame with hbody
  have hlength : (appendCrc32 body).length = 9 + frame.data.length + 4 := by
    rw [length_appendCrc32, hbody, dataFields]
    simp
    omega
  have hfield : ofBE (((appendCrc32 body).drop 7).take 2) = frame.data.length := by
    have hwritten : ((appendCrc32 body).drop 7).take 2 = toBE 2 frame.data.length := rfl
    rw [hwritten, ofBE_toBE]
    unfold maxDataBlockLength at h
    omega
  have hoffset : ofBE (((appendCrc32 body).drop 3).take 4) = frame.msgByteOffset % 2 ^ 32 :=
    ofBE_toBE 4 _
  have hpayload : ((appendCrc32 body).drop 9).take frame.data.length = frame.data :=
    List.take_left
  rw [parseDataFrame, if_neg (by omega), validateCrc32_append, if_neg (by decide)]
  dsimp only
  rw [hfield, if_neg (by omega), hoffset, hpayload]
  rfl

/-- A valid string is its front with the CRC appended. -/
theorem eq_appendCrc32 (h : validateCrc32 bytes = true) :
    bytes = appendCrc32 (bytes.take (bytes.length - 4)) := by
  have hlen := length_of_valid h
  have htail : (bytes.drop (bytes.length - 4)).length = 4 := by
    rw [List.length_drop]
    omega
  have hcrc := toBE_ofBE (bytes.drop (bytes.length - 4))
  rw [validateCrc32, if_neg (by omega), decide_eq_true_eq] at h
  rw [htail, ← h] at hcrc
  rw [appendCrc32, hcrc, List.take_append_drop]

/-- **What the parser accepts** is the formatting of what it returns, but for the first byte. -/
theorem fields_of_parseDataFrame (h : parseDataFrame bytes = some frame) :
    ∃ header : UInt8, bytes = appendCrc32 (header :: dataFields frame) ∧
      frame.dataRateFormat = (header >>> 7) &&& 1 ∧ frame.dataRate = (header >>> 4) &&& 7 ∧
        frame.data.length ≤ maxDataBlockLength := by
  have hlong : 13 ≤ bytes.length := by
    by_contra hshort
    rw [parseDataFrame, if_pos (not_le.mp hshort)] at h
    cases h
  obtain ⟨b0, b1, b2, b3, b4, b5, b6, b7, b8, rest, hbytes⟩ : ∃ b0 b1 b2 b3 b4 b5 b6 b7 b8 rest,
      bytes = b0 :: b1 :: b2 :: b3 :: b4 :: b5 :: b6 :: b7 :: b8 :: rest := by
    match bytes, hlong with
    | b0 :: b1 :: b2 :: b3 :: b4 :: b5 :: b6 :: b7 :: b8 :: rest, _ =>
      exact ⟨b0, b1, b2, b3, b4, b5, b6, b7, b8, rest, rfl⟩
  rw [parseDataFrame, if_neg (not_lt.mpr hlong)] at h
  dsimp only at h
  split_ifs at h with hcrc hlength
  rw [Bool.not_eq_false] at hcrc
  rw [not_or, not_lt, not_not] at hlength
  obtain ⟨hmax, hexact⟩ := hlength
  have hfront := eq_appendCrc32 hcrc
  have hfield : (bytes.drop 7).take 2 = [b7, b8] := by rw [hbytes]; rfl
  rw [hfield] at h hmax hexact
  have hdata : (rest.take (ofBE [b7, b8])).length = ofBE [b7, b8] := by
    rw [hbytes] at hexact
    simp only [List.length_cons] at hexact
    rw [List.length_take]
    omega
  have htake : bytes.take (bytes.length - 4) =
      b0 :: b1 :: b2 :: b3 :: b4 :: b5 :: b6 :: b7 :: b8 :: rest.take (ofBE [b7, b8]) := by
    rw [← hexact, Nat.add_sub_cancel, hbytes, Nat.add_comm]
    rfl
  obtain rfl := Option.some.inj h
  refine ⟨b0, ?_, ?_, ?_, (List.length_take_le _ _).trans hmax⟩
  · rw [htake] at hfront
    refine hfront.trans (congrArg (fun fields => appendCrc32 (b0 :: fields)) ?_)
    have hoffset := toBE_ofBE [b3, b4, b5, b6]
    have hcount := toBE_ofBE [b7, b8]
    simp only [List.length_cons, List.length_nil] at hoffset hcount
    rw [hbytes, dataFields]
    simp only [List.drop_succ_cons, List.drop_zero, List.take_succ_cons, List.take_zero,
      List.getD_cons_succ, List.getD_cons_zero, hdata]
    rw [hoffset, hcount]
    rfl
  · rw [hbytes]
    rfl
  · rw [hbytes]
    rfl

/-! ## Data frames -/

/-- **Data frames.** A frame is read back from its formatting; what the parser accepts is the
formatting of the frame it returns, up to the four low bits of the first byte and the CRC over
them; and a formatting with a burst of 32 bits is not accepted. -/
theorem dataFrames :
    (∀ (frame : DataFrame) (bufferSize : Nat), frame.Typed → frame.dataRate < 8 →
      frame.data.length ≤ maxDataBlockLength → frame.data.length + 20 ≤ bufferSize →
        ∃ bytes, formatDataFrame frame bufferSize = some bytes ∧
          parseDataFrame bytes = some frame) ∧
    (∀ (bytes : List UInt8) (frame : DataFrame), parseDataFrame bytes = some frame →
      ∃ (sent header : UInt8) (fields : List UInt8),
        formatDataFrame frame (frame.data.length + 20) = some (appendCrc32 (sent :: fields)) ∧
          bytes = appendCrc32 (header :: fields) ∧ sent &&& 0xF0 = header &&& 0xF0) ∧
    ∀ (frame : DataFrame) (bufferSize k : Nat) (bytes corrupted : List UInt8),
      formatDataFrame frame bufferSize = some bytes → corrupted ≠ bytes →
        AgreeOutside k 32 (bitsOf bytes) (bitsOf corrupted) → parseDataFrame corrupted = none := by
  refine ⟨?_, ?_, ?_⟩
  · intro frame bufferSize htyped hrate hlength hsize
    refine ⟨_, formatDataFrame_eq hsize, ?_⟩
    obtain ⟨hformat, hrate⟩ := dataHeader_fields htyped.1 hrate
    rw [parseDataFrame_fields hlength, hformat, hrate, Nat.mod_eq_of_lt htyped.2]
  · intro bytes frame hparse
    obtain ⟨header, hbytes, hformat, hrate, -⟩ := fields_of_parseDataFrame hparse
    exact ⟨dataHeader frame, header, dataFields frame, formatDataFrame_eq le_rfl, hbytes,
      dataHeader_high hformat hrate⟩
  · intro frame bufferSize k bytes corrupted hformat hne hagree
    have hvalid : validateCrc32 bytes = true := by
      unfold formatDataFrame at hformat
      split_ifs at hformat
      rw [← Option.some.inj hformat, validateCrc32_append]
    have hinvalid : validateCrc32 corrupted = false := by
      by_contra hcrc
      exact hne (eq_of_burst hvalid (Bool.not_eq_false _ ▸ hcrc) hagree).symm
    rw [parseDataFrame, hinvalid, if_pos (rfl : false = false), ite_self]

/-- A frame of two bytes at 2400 bit/s. -/
theorem dataFrames_two : ∃ bytes,
    formatDataFrame { sequenceNumber := 7, msgByteOffset := 70000, data := [1, 2] } 22 = some bytes ∧
      parseDataFrame bytes =
        some { sequenceNumber := 7, msgByteOffset := 70000, data := [1, 2] } :=
  dataFrames.1 _ 22 ⟨by decide, by decide⟩ (by decide) (by decide) (by decide)

/-- Without the sync mismatch bit the empty frame is accepted, which no formatting leaves clear. -/
theorem dataFrames_sync : ¬ ∀ (bytes : List UInt8) (frame : DataFrame),
    parseDataFrame bytes = some frame →
      ∃ (sent header : UInt8) (fields : List UInt8),
        formatDataFrame frame (frame.data.length + 20) = some (appendCrc32 (sent :: fields)) ∧
          bytes = appendCrc32 (header :: fields) ∧ sent &&& 0xF3 = header &&& 0xF3 := by
  intro h
  obtain ⟨sent, header, fields, hformat, hbytes, hbits⟩ :=
    h (appendCrc32 (List.replicate 9 0)) { dataRate := 0, interleaverLength := 0 } (by decide +kernel)
  have hframe := @formatDataFrame_eq { dataRate := 0, interleaverLength := 0 } 20 (by decide)
  have hsent : appendCrc32 (1 :: _) = appendCrc32 (sent :: fields) :=
    Option.some.inj (hframe.symm.trans hformat)
  obtain rfl : 1 = sent := (List.cons.inj hsent).1
  obtain rfl : 0 = header := (List.cons.inj hbytes).1
  exact absurd hbits (by decide)

end OpenALE.Fs1052
