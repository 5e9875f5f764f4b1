import OpenALE.Fs1052.Memory

/-!
# FS-1052 reception and its buffers

Every access of `handle_received_frame` stays inside its buffer, except for a control frame that is
too short for its long addresses, and a block whose offset and length wrap at 32 bits.
-/

namespace OpenALE.Fs1052

open Bits

namespace Memory

variable {a : VariableARQ} {bytes : List UInt8}

/-- The bit of the header that tells a control frame. -/
def IsControl (bytes : List UInt8) : Prop := bytes.getD 0 0 &&& 0x02 ≠ 0

/-- The `data_length` field of a data frame. -/
def lengthField (bytes : List UInt8) : Nat := ofBE ((bytes.drop 7).take 2)

/-- The `msg_byte_offset` field of a data frame. -/
def offsetField (bytes : List UInt8) : Nat := ofBE ((bytes.drop 3).take 4)

/-- A control frame with a valid CRC has room for its addresses, and the block of a data frame with
a valid CRC and length that is not a duplicate ends below 4 GiB, if not inside the buffer. -/
structure Safe (a : VariableARQ) (bytes : List UInt8) : Prop where
  control : IsControl bytes → 10 ≤ bytes.length → Fs1052.validateCrc32 bytes = true →
    modeOf (bytes.getD 0 0) = .long → 37 ≤ bytes.length
  data : ¬ IsControl bytes → 13 ≤ bytes.length → Fs1052.validateCrc32 bytes = true →
    lengthField bytes ≤ maxDataBlockLength → 9 + lengthField bytes + 4 = bytes.length →
    a.rxBitmap (bytes.getD 2 0) = false → 0 < lengthField bytes →
    offsetField bytes + lengthField bytes ≤ a.rxBuffer.length ∨
      offsetField bytes + lengthField bytes < 2 ^ 32

/-- What makes a data frame acceptable, and what is read of it. -/
theorem of_parseDataFrame {frame : DataFrame} (h : Fs1052.parseDataFrame bytes = some frame) :
    (13 ≤ bytes.length ∧ Fs1052.validateCrc32 bytes = true ∧
      lengthField bytes ≤ maxDataBlockLength ∧ 9 + lengthField bytes + 4 = bytes.length) ∧
    frame.sequenceNumber = bytes.getD 2 0 ∧ frame.msgByteOffset = offsetField bytes ∧
    frame.data.length = lengthField bytes := by
  unfold Fs1052.parseDataFrame at h
  dsimp only at h
  split_ifs at h with hshort hvalid hlength
  obtain rfl := Option.some.inj h
  rw [not_or, not_lt, not_not] at hlength
  refine ⟨⟨not_lt.mp hshort, by simpa using hvalid, hlength⟩, rfl, rfl, ?_⟩
  have hsum := hlength.2
  rw [List.length_take, List.length_drop]
  exact Nat.min_eq_left (by omega)

theorem offsetField_lt (bytes : List UInt8) : offsetField bytes < 2 ^ 32 := by
  have hlt := ofBE_lt ((bytes.drop 3).take 4)
  have hlen : ((bytes.drop 3).take 4).length ≤ 4 := List.length_take_le 4 _
  exact hlt.trans_le (Nat.pow_le_pow_right (by decide) hlen)

/-- A control frame is read inside the buffer exactly if it has room for its addresses. -/
theorem control_ok_iff (hcontrol : IsControl bytes) (hne : ¬ bytes.length < 1) :
    (∃ a', handleReceivedFrame a bytes = .ok a') ↔
      (10 ≤ bytes.length → Fs1052.validateCrc32 bytes = true →
        modeOf (bytes.getD 0 0) = .long → 37 ≤ bytes.length) := by
  unfold IsControl at hcontrol
  unfold handleReceivedFrame
  rw [if_neg hne, readAt_eq (by omega), ok_bind, if_pos hcontrol]
  constructor
  · rintro ⟨a', ha⟩ hlong hvalid hmode
    by_contra hshort
    rw [parseControlFrame_fault hlong hvalid hmode (not_le.mp hshort)] at ha
    cases ha
  · intro h
    obtain ⟨out, hout, -⟩ := parseControlFrame_eq h
    rw [hout, ok_bind]
    cases out <;> exact ⟨_, rfl⟩

/-- A data frame is handled inside the buffers exactly if its block is placed inside. -/
theorem data_ok_iff (hdata : ¬ IsControl bytes) (hne : ¬ bytes.length < 1) :
    (∃ a', handleReceivedFrame a bytes = .ok a') ↔
      ∀ frame, Fs1052.parseDataFrame bytes = some frame → a.rxBitmap frame.sequenceNumber = false →
        ∃ rx, placeBlock a.rxBuffer frame.msgByteOffset frame.data = .ok rx := by
  unfold IsControl at hdata
  unfold handleReceivedFrame
  rw [if_neg hne, readAt_eq (by omega), ok_bind, if_neg hdata, parseDataFrame_eq, ok_bind]
  cases hparse : Fs1052.parseDataFrame bytes with
  | none => exact iff_of_true ⟨_, rfl⟩ nofun
  | some frame =>
    simp only [Option.some.injEq, forall_eq']
    unfold processDataFrame
    cases hdup : a.rxBitmap frame.sequenceNumber with
    | true => exact iff_of_true ⟨_, rfl⟩ nofun
    | false =>
      rw [if_neg (by decide)]
      cases placeBlock a.rxBuffer frame.msgByteOffset frame.data with
      | error e => exact iff_of_false (by rintro ⟨a', ha⟩; cases ha) (by
          intro h
          obtain ⟨rx, hrx⟩ := h rfl
          cases hrx)
      | ok rx => exact iff_of_true ⟨_, rfl⟩ fun _ => ⟨rx, rfl⟩

/-- **Reception stays inside its buffers exactly if the frame is safe.** -/
theorem handleReceivedFrame_ok_iff (a : VariableARQ) (bytes : List UInt8) :
    (∃ a', handleReceivedFrame a bytes = .ok a') ↔ Safe a bytes := by
  by_cases hne : bytes.length < 1
  · refine iff_of_true ⟨a, if_pos hne⟩ ⟨fun _ h => ?_, fun _ h => ?_⟩ <;> omega
  · by_cases hcontrol : IsControl bytes
    · rw [control_ok_iff hcontrol hne]
      exact ⟨fun h => ⟨fun _ => h, fun h' => absurd hcontrol h'⟩, fun h => h.control hcontrol⟩
    · rw [data_ok_iff hcontrol hne]
      constructor
      · intro h
        refine ⟨fun h' => absurd h' hcontrol, fun _ hlong hvalid hmax hsum hnew hpos => ?_⟩
        by_contra hbehind
        rw [not_or, not_le, not_lt] at hbehind
        cases hparse : Fs1052.parseDataFrame bytes with
        | none =>
          unfold Fs1052.parseDataFrame at hparse
          dsimp only at hparse
          rw [if_neg (not_lt.mpr hlong), hvalid, if_neg (by decide), if_neg] at hparse
          · cases hparse
          · exact not_or.mpr ⟨not_lt.mpr hmax, not_not.mpr hsum⟩
        | some frame =>
          obtain ⟨-, hseq, hoffset, hlen⟩ := of_parseDataFrame hparse
          rw [← hseq] at hnew
          obtain ⟨rx, hrx⟩ := h frame hparse hnew
          have hfault : placeBlock a.rxBuffer frame.msgByteOffset frame.data = .error .write :=
            placeBlock_fault (by rintro hnil; rw [hnil] at hlen; simp at hlen; omega)
              (by unfold maxDataBlockLength at hmax; omega)
              (by rw [hoffset]; exact offsetField_lt bytes) (by omega) (by omega)
          rw [hfault] at hrx
          cases hrx
      · rintro ⟨-, h⟩ frame hparse hnew
        obtain ⟨⟨hlong, hvalid, hmax, hsum⟩, hseq, hoffset, hlen⟩ := of_parseDataFrame hparse
        have hroom : frame.data = [] ∨
            frame.msgByteOffset + frame.data.length ≤ a.rxBuffer.length ∨
              frame.msgByteOffset + frame.data.length < 2 ^ 32 := by
          rw [← List.length_eq_zero_iff, hoffset, hlen]
          obtain hzero | hpos := Nat.eq_zero_or_pos (lengthField bytes)
          · exact .inl hzero
          · exact .inr (h hcontrol hlong hvalid hmax hsum (hseq ▸ hnew) hpos)
        obtain ⟨out, hout, -⟩ := placeBlock_eq a.rxBuffer hroom
        exact ⟨out, hout⟩

/-- A control frame of 10 bytes with long addresses and a valid CRC. -/
theorem handleReceivedFrame_fail : ¬ ∀ (a : VariableARQ) (bytes : List UInt8),
    ∃ a', handleReceivedFrame a bytes = .ok a' := by
  intro h
  have hok := h {} (appendCrc32 [0x83, 0, 0, 0, 0, 0])
  rw [control_ok_iff (by unfold IsControl; decide) (by decide)] at hok
  have hlen := hok (by decide) (validateCrc32_append _) (by decide)
  revert hlen
  decide

end Memory

end OpenALE.Fs1052
