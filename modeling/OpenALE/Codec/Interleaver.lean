import OpenALE.Library.Bits
import OpenALE.Codec.Golay
import OpenALE.Word.Basic

/-!
# Interleaving and the FEC of a word

Model of `src/FEC/word_interleaver.cpp`, `src/FEC/ale_fec_codec.cpp` and of `ALEWord::encode`
(`src/Word/ale_word.cpp`).

Results:
* `deinterleave_interleave`: the interleaver loses nothing.
* `deinterleaveWord_of_light`, `deinterleaveWord_of_heavy`: what the receiving side makes of a word
  with errors in either half.
-/

namespace OpenALE

open LinearCode

namespace WordInterleaver

/-- One round of the loops of `interleave`. -/
def interleaveBit (sequenceA sequenceB out k : Nat) : Nat :=
  let out := if (sequenceA >>> (23 - k)) &&& 1 ≠ 0 then out ||| 1 <<< (2 * k) else out
  if (sequenceB >>> (23 - k)) &&& 1 ≠ 0 then out ||| 1 <<< (2 * k + 1) else out

/-- `interleave`: the data bits, then the parity bits; bit 48 stays 0. -/
def interleave (sequenceA sequenceB : Nat) : Nat :=
  (List.range' 12 12).foldl (interleaveBit sequenceA sequenceB)
    ((List.range 12).foldl (interleaveBit sequenceA sequenceB) 0)

/-- One round of the loops of `deinterleave`. -/
def deinterleaveBit (transmitted : Nat) (seqs : Nat × Nat) (k : Nat) : Nat × Nat :=
  (if (transmitted >>> (2 * k)) &&& 1 ≠ 0 then seqs.1 ||| 1 <<< (23 - k) else seqs.1,
    if (transmitted >>> (2 * k + 1)) &&& 1 ≠ 0 then seqs.2 ||| 1 <<< (23 - k) else seqs.2)

/-- `deinterleave`. -/
def deinterleave (transmitted : Nat) : Nat × Nat :=
  (List.range' 12 12).foldl (deinterleaveBit transmitted)
    ((List.range 12).foldl (deinterleaveBit transmitted) (0, 0))

theorem range_eq : List.range 12 ++ List.range' 12 12 = List.range 24 := by decide

theorem testBit_interleave (a b j : Nat) : (interleave a b).testBit j =
    (decide (j < 48) && if j % 2 = 0 then a.testBit (23 - j / 2) else b.testBit (23 - j / 2)) := by
  have hround : ∀ out k j, (interleaveBit a b out k).testBit j =
      (out.testBit j || (a.testBit (23 - k) && decide (2 * k = j) ||
        b.testBit (23 - k) && decide (2 * k + 1 = j))) := by
    intro out k j
    unfold interleaveBit
    dsimp only
    rw [Bits.testBit_setIf, Bits.testBit_setIf, Bool.or_assoc]
    simp only [Bits.shiftRight_and_one_ne_zero, Bool.decide_eq_true]
  unfold interleave
  rw [← List.foldl_append, range_eq]
  refine (Bits.testBit_foldl (v := id) hround (List.range 24) 0 j).trans ?_
  rw [id, Nat.zero_testBit, Bool.false_or, Bool.eq_iff_iff, List.any_eq_true]
  simp only [List.mem_range, Bool.or_eq_true, Bool.and_eq_true, decide_eq_true_eq]
  constructor
  · rintro ⟨k, hk, ⟨hb, rfl⟩ | ⟨hb, rfl⟩⟩
    · refine ⟨by omega, ?_⟩
      rw [if_pos (by omega), show 2 * k / 2 = k by omega]
      exact hb
    · refine ⟨by omega, ?_⟩
      rw [if_neg (by omega), show (2 * k + 1) / 2 = k by omega]
      exact hb
  · rintro ⟨hj, hb⟩
    refine ⟨j / 2, by omega, ?_⟩
    split at hb
    · exact Or.inl ⟨hb, by omega⟩
    · exact Or.inr ⟨hb, by omega⟩

theorem testBit_deinterleave (t j : Nat) :
    (deinterleave t).1.testBit j = (decide (j < 24) && t.testBit (2 * (23 - j))) ∧
      (deinterleave t).2.testBit j = (decide (j < 24) && t.testBit (2 * (23 - j) + 1)) := by
  have hround1 : ∀ s k j, (deinterleaveBit t s k).1.testBit j =
      (s.1.testBit j || (t.testBit (2 * k) && decide (23 - k = j))) := by
    intro s k j
    unfold deinterleaveBit
    rw [Bits.testBit_setIf]
    simp only [Bits.shiftRight_and_one_ne_zero, Bool.decide_eq_true]
  have hround2 : ∀ s k j, (deinterleaveBit t s k).2.testBit j =
      (s.2.testBit j || (t.testBit (2 * k + 1) && decide (23 - k = j))) := by
    intro s k j
    unfold deinterleaveBit
    rw [Bits.testBit_setIf]
    simp only [Bits.shiftRight_and_one_ne_zero, Bool.decide_eq_true]
  have hany : ∀ f : Nat → Nat, (List.range 24).any (fun k => t.testBit (f k) && decide (23 - k = j)) =
      (decide (j < 24) && t.testBit (f (23 - j))) := by
    intro f
    rw [Bool.eq_iff_iff, List.any_eq_true]
    simp only [List.mem_range, Bool.and_eq_true, decide_eq_true_eq]
    constructor
    · rintro ⟨k, hk, hb, rfl⟩
      refine ⟨by omega, ?_⟩
      rw [show 23 - (23 - k) = k by omega]
      exact hb
    · rintro ⟨hj, hb⟩
      exact ⟨23 - j, by omega, hb, by omega⟩
  unfold deinterleave
  rw [← List.foldl_append, range_eq]
  refine ⟨?_, ?_⟩
  · rw [Bits.testBit_foldl (v := Prod.fst) hround1, hany (fun k => 2 * k), Nat.zero_testBit,
      Bool.false_or]
  · rw [Bits.testBit_foldl (v := Prod.snd) hround2, hany (fun k => 2 * k + 1), Nat.zero_testBit,
      Bool.false_or]

theorem deinterleave_lt (t : Nat) :
    (deinterleave t).1 < 2 ^ 24 ∧ (deinterleave t).2 < 2 ^ 24 := by
  refine ⟨Nat.lt_pow_two_of_testBit _ fun j hj => ?_, Nat.lt_pow_two_of_testBit _ fun j hj => ?_⟩
  · rw [(testBit_deinterleave t j).1, decide_eq_false (by omega), Bool.false_and]
  · rw [(testBit_deinterleave t j).2, decide_eq_false (by omega), Bool.false_and]

/-- Only the 48 low bits of a transmitted word matter. -/
theorem deinterleave_congr {t u : Nat} (h : ∀ j < 48, t.testBit j = u.testBit j) :
    deinterleave t = deinterleave u := by
  refine Prod.ext (Nat.eq_of_testBit_eq fun j => ?_) (Nat.eq_of_testBit_eq fun j => ?_)
  · rw [(testBit_deinterleave t j).1, (testBit_deinterleave u j).1, h _ (by omega)]
  · rw [(testBit_deinterleave t j).2, (testBit_deinterleave u j).2, h _ (by omega)]

/-- **The interleaver loses nothing.** -/
theorem deinterleave_interleave {a b : Nat} (ha : a < 2 ^ 24) (hb : b < 2 ^ 24) :
    deinterleave (interleave a b) = (a, b) := by
  have hlow : ∀ {x : Nat}, x < 2 ^ 24 → ∀ j, x.testBit j = (decide (j < 24) && x.testBit j) := by
    intro x hx j
    by_cases hj : j < 24
    · rw [decide_eq_true hj, Bool.true_and]
    · rw [decide_eq_false hj, Bool.false_and]
      exact Nat.testBit_lt_two_pow (hx.trans_le (Nat.pow_le_pow_right (by decide) (by omega)))
  refine Prod.ext (Nat.eq_of_testBit_eq fun j => ?_) (Nat.eq_of_testBit_eq fun j => ?_)
  · rw [(testBit_deinterleave _ j).1, testBit_interleave, hlow ha j]
    by_cases hj : j < 24
    · rw [decide_eq_true (show 2 * (23 - j) < 48 by omega), if_pos (by omega),
        show 23 - 2 * (23 - j) / 2 = j by omega, Bool.true_and]
    · rw [decide_eq_false hj, Bool.false_and, Bool.false_and]
  · rw [(testBit_deinterleave _ j).2, testBit_interleave, hlow hb j]
    by_cases hj : j < 24
    · rw [decide_eq_true (show 2 * (23 - j) + 1 < 48 by omega), if_neg (by omega),
        show 23 - (2 * (23 - j) + 1) / 2 = j by omega, Bool.true_and]
    · rw [decide_eq_false hj, Bool.false_and, Bool.false_and]

end WordInterleaver

/-! ## `ALEFECCodec` -/

namespace FECCodec

open Golay WordInterleaver

/-- `flip_coder_b_check_bits`: invert the 12 check bits. -/
def flipCoderBCheckBits (golayCodeword : Nat) : Nat :=
  (golayCodeword &&& 0xFFF000) ||| ((golayCodeword ^^^ 0xFFFFFFFF) &&& 0xFFF)

/-- `GolayCoded`. -/
structure GolayCoded where
  coderA : Nat
  coderB : Nat
  deriving Repr, DecidableEq

/-- `encode_word`. -/
def encodeWord (aleWord : Nat) : GolayCoded :=
  { coderA := encode ((aleWord >>> 12) &&& 0xFFF)
    coderB := flipCoderBCheckBits (encode (aleWord &&& 0xFFF)) }

/-- `interleave_word`. -/
def interleaveWord (coded : GolayCoded) : Nat := interleave coded.coderA coded.coderB

/-- `deinterleave_word`: the corrected word and the verdict on both halves. -/
def deinterleaveWord (transmitted : Nat) (mode : GolayMode) : Nat × DecodeResult :=
  let (seqA, seqB) := deinterleave transmitted
  let (upper, fecA) := decode seqA mode
  let (lower, fecB) := decode (flipCoderBCheckBits seqB) mode
  let fec : DecodeResult :=
    if fecA.flag = .detected ∨ fecB.flag = .detected then ⟨.detected, 0⟩
    else if fecA.flag = .corrected ∨ fecB.flag = .corrected then
      ⟨.corrected, fecA.errorsCorrected + fecB.errorsCorrected⟩
    else ⟨.ok, 0⟩
  ((upper <<< 12) ||| lower, fec)

theorem flip_eq {c : Nat} (hc : c < 2 ^ 24) : flipCoderBCheckBits c = c ^^^ 0xFFF := by
  refine Nat.eq_of_testBit_eq fun j => ?_
  have hlow : Nat.testBit 0xFFF j = decide (j < 12) := Nat.testBit_two_pow_sub_one 12 j
  have hhigh : Nat.testBit 0xFFF000 j = (decide (12 ≤ j) && decide (j - 12 < 12)) := by
    rw [show 0xFFF000 = (2 ^ 12 - 1) <<< 12 from rfl, Nat.testBit_shiftLeft,
      Nat.testBit_two_pow_sub_one]
  have hall : Nat.testBit 0xFFFFFFFF j = decide (j < 32) := Nat.testBit_two_pow_sub_one 32 j
  unfold flipCoderBCheckBits
  rw [Nat.testBit_or, Nat.testBit_and, Nat.testBit_and, Nat.testBit_xor, Nat.testBit_xor, hlow,
    hhigh, hall]
  rcases Nat.lt_or_ge j 12 with hj | hj
  · have h1 : ¬ 12 ≤ j := by omega
    have h2 : j < 32 := by omega
    simp [hj, h1, h2]
  rcases Nat.lt_or_ge j 24 with hj' | hj'
  · have h1 : ¬ j < 12 := by omega
    have h2 : j - 12 < 12 := by omega
    simp [hj, h1, h2]
  · have h1 : ¬ j < 12 := by omega
    have hbit : c.testBit j = false :=
      Nat.testBit_lt_two_pow (hc.trans_le (Nat.pow_le_pow_right (by decide) hj'))
    simp [h1, hbit]

theorem flip_lt {c : Nat} (hc : c < 2 ^ 24) : flipCoderBCheckBits c < 2 ^ 24 := by
  rw [flip_eq hc]
  exact Nat.xor_lt_two_pow hc (by decide)

/-- Inverting the check bits of both words leaves the errors where they were. -/
theorem flip_xor {c e : Nat} (hc : c < 2 ^ 24) (he : e < 2 ^ 24) :
    flipCoderBCheckBits (flipCoderBCheckBits c ^^^ e) = c ^^^ e := by
  rw [flip_eq (Nat.xor_lt_two_pow (flip_lt hc) he), flip_eq hc, Nat.xor_assoc, Nat.xor_assoc,
    Nat.xor_comm e, ← Nat.xor_assoc 0xFFF, Nat.xor_self, Nat.zero_xor]

section Word

variable {w t : Nat} {mode : GolayMode}

/-- The halves of a word as sent. -/
theorem halves_sent (w : Nat) : deinterleave (interleaveWord (encodeWord w)) =
    ((encodeWord w).coderA, (encodeWord w).coderB) := by
  have hinfo : ∀ x : Nat, x &&& 0xFFF < 2 ^ 12 := fun x => by
    rw [mask_low]
    exact Nat.mod_lt x (Nat.two_pow_pos 12)
  have hlt : ∀ x : Nat, encode (x &&& 0xFFF) < 2 ^ 24 := fun x => by
    rw [encode_eq (hinfo x)]
    exact golayCode.codeword_lt (hinfo x)
  exact deinterleave_interleave (hlt _) (flip_lt (hlt _))

/-- The bits of the A half that arrive wrong, and those of the B half. -/
def wrongBits (w t : Nat) : Nat × Nat :=
  (weight 24 ((deinterleave t).1 ^^^ (encodeWord w).coderA),
    weight 24 ((deinterleave t).2 ^^^ (encodeWord w).coderB))

/-- Both halves as received, in terms of their errors. -/
theorem halves_received (hw : w < 2 ^ 24) (t : Nat) :
    ∃ a b eA eB, a < 2 ^ 12 ∧ b < 2 ^ 12 ∧ eA < 2 ^ 24 ∧ eB < 2 ^ 24 ∧ w = (a <<< 12) ||| b ∧
      (deinterleave t).1 = encode a ^^^ eA ∧
      flipCoderBCheckBits (deinterleave t).2 = encode b ^^^ eB ∧
      wrongBits w t = (weight 24 eA, weight 24 eB) := by
  obtain ⟨hA, hB⟩ := deinterleave_lt t
  have hb : w % 2 ^ 12 < 2 ^ 12 := Nat.mod_lt w (Nat.two_pow_pos 12)
  have ha : w / 2 ^ 12 < 2 ^ 12 := by omega
  have hcodeA : encode (w / 2 ^ 12) < 2 ^ 24 := by
    rw [encode_eq ha]
    exact golayCode.codeword_lt ha
  have hcodeB : encode (w % 2 ^ 12) < 2 ^ 24 := by
    rw [encode_eq hb]
    exact golayCode.codeword_lt hb
  refine ⟨w / 2 ^ 12, w % 2 ^ 12, (deinterleave t).1 ^^^ encode (w / 2 ^ 12),
    (deinterleave t).2 ^^^ flipCoderBCheckBits (encode (w % 2 ^ 12)), ha, hb,
    Nat.xor_lt_two_pow hA hcodeA, Nat.xor_lt_two_pow hB (flip_lt hcodeB), ?_, ?_, ?_, ?_⟩
  · rw [← Nat.shiftLeft_add_eq_or_of_lt hb, Nat.shiftLeft_eq]
    omega
  · rw [Nat.xor_comm, Nat.xor_assoc, Nat.xor_self, Nat.xor_zero]
  · have hsplit : (deinterleave t).2 = flipCoderBCheckBits (encode (w % 2 ^ 12)) ^^^
        ((deinterleave t).2 ^^^ flipCoderBCheckBits (encode (w % 2 ^ 12))) := by
      rw [Nat.xor_comm, Nat.xor_assoc, Nat.xor_self, Nat.xor_zero]
    have hflip := flip_xor hcodeB (Nat.xor_lt_two_pow hB (flip_lt hcodeB))
    rwa [← hsplit] at hflip
  · unfold wrongBits encodeWord
    dsimp only
    rw [info_eq hw, mask_low]

/-- **A word with few errors in each half is recovered.** -/
theorem deinterleaveWord_of_light (hw : w < 2 ^ 24) (hA : (wrongBits w t).1 ≤ mode.code)
    (hB : (wrongBits w t).2 ≤ mode.code) :
    deinterleaveWord t mode =
      (w, ⟨if (wrongBits w t).1 + (wrongBits w t).2 = 0 then .ok else .corrected,
        (wrongBits w t).1 + (wrongBits w t).2⟩) := by
  obtain ⟨a, b, eA, eB, ha, hb, heA, heB, hsplit, hrA, hrB, hwrong⟩ := halves_received hw t
  rw [hwrong] at hA hB ⊢
  unfold deinterleaveWord
  dsimp only
  rw [hrA, hrB, decode_of_light ha heA hA, decode_of_light hb heB hB, hsplit]
  dsimp only
  by_cases h0A : weight 24 eA = 0
  · by_cases h0B : weight 24 eB = 0
    · simp [h0A, h0B]
    · simp [h0A, h0B]
  · have hne : ¬ weight 24 eA + weight 24 eB = 0 := by omega
    by_cases h0B : weight 24 eB = 0
    · simp [h0A, h0B]
    · simp [h0A, h0B]

/-- **A word with more errors in a half is refused**, as far as the distance allows. -/
theorem deinterleaveWord_of_heavy (hw : w < 2 ^ 24)
    (h : mode.code < (wrongBits w t).1 ∧ (wrongBits w t).1 ≤ 7 - mode.code ∨
      mode.code < (wrongBits w t).2 ∧ (wrongBits w t).2 ≤ 7 - mode.code) :
    (deinterleaveWord t mode).2 = ⟨.detected, 0⟩ := by
  obtain ⟨a, b, eA, eB, ha, hb, heA, heB, -, hrA, hrB, hwrong⟩ := halves_received hw t
  rw [hwrong] at h
  unfold deinterleaveWord
  dsimp only
  rw [hrA, hrB]
  rcases h with ⟨hn, hle⟩ | ⟨hn, hle⟩
  · rw [decode_of_heavy ha heA hn hle, if_pos (Or.inl rfl)]
  · rw [decode_of_heavy hb heB hn hle, if_pos (Or.inr rfl)]

end Word

end FECCodec

/-- `ALEWord::encode`: the 49 bits transmitted for a word. -/
def ALEWord.encode (w : ALEWord) : Nat :=
  FECCodec.interleaveWord
    (FECCodec.encodeWord ((w.type.code <<< 21) ||| (w.rawPayload &&& 0x1FFFFF)))

end OpenALE
