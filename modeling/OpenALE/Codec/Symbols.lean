import OpenALE.Codec.Interleaver

/-!
# Words on the air: symbols and the majority vote

Model of `src/Codec/ale_encoder.cpp` and `src/Codec/ale_decoder.cpp`: 49 tri-bit symbols carry the
49 bits of a word three times over; the receiving side votes on each bit.

A frame is the list of its symbol values; `ALEDecoder::decode` reads the three low bits of 49 of
them. `unanimous_votes_out` is a copy of `unanimous_votes` and left out.

Results:
* `vote_encodeTx49`: the vote gives back the 48 bits sent, all of them unanimous.
* `ALEDecoder.decode_guarantee`: what the decoder recovers and what it refuses.
-/

namespace OpenALE

open LinearCode

/-! ## `ALEEncoder` -/

namespace ALEEncoder

/-- Symbol `k` of `encode_tx49`. -/
def symbol (tx49 k : Nat) : Nat :=
  (List.range 3).foldl (fun sym b =>
    if (tx49 >>> ((k * 3 + b) % 49)) &&& 1 ≠ 0 then sym ||| 1 <<< (3 - 1 - b) else sym) 0

/-- `encode_tx49`. -/
def encodeTx49 (tx49 : Nat) : List Nat := (List.range 49).map (symbol tx49)

/-- `encode`. -/
def encode (word : ALEWord) : List Nat := encodeTx49 word.encode

theorem testBit_symbol (t k i : Nat) :
    (symbol t k).testBit i = (decide (i < 3) && t.testBit ((k * 3 + (2 - i)) % 49)) := by
  have hround : ∀ sym b i, (if (t >>> ((k * 3 + b) % 49)) &&& 1 ≠ 0 then sym ||| 1 <<< (3 - 1 - b)
      else sym).testBit i =
      (sym.testBit i || (t.testBit ((k * 3 + b) % 49) && decide (3 - 1 - b = i))) := by
    intro sym b i
    rw [Bits.testBit_setIf]
    simp only [Bits.shiftRight_and_one_ne_zero, Bool.decide_eq_true]
  unfold symbol
  refine (Bits.testBit_foldl (v := id) hround (List.range 3) 0 i).trans ?_
  rw [id, Nat.zero_testBit, Bool.false_or, Bool.eq_iff_iff, List.any_eq_true]
  simp only [List.mem_range, Bool.and_eq_true, decide_eq_true_eq]
  constructor
  · rintro ⟨b, hb, hbit, rfl⟩
    refine ⟨by omega, ?_⟩
    rwa [show 2 - (3 - 1 - b) = b by omega]
  · rintro ⟨hi, hbit⟩
    exact ⟨2 - i, by omega, hbit, by omega⟩

end ALEEncoder

/-! ## `ALEDecoder` -/

namespace ALEDecoder

/-- The on-air bit at position `p` of the 147. -/
def copyBit (symbols : List Nat) (p : Nat) : Nat :=
  (symbols.getD (p / 3) 0 >>> (3 - 1 - p % 3)) &&& 1

/-- The number of ones among the three copies of a bit. -/
def ones (symbols : List Nat) (bit : Nat) : Nat :=
  (List.range 3).foldl (fun n copy => n + copyBit symbols (bit + copy * 49)) 0

/-- The majority vote: the bits, and the number of unanimous ones. -/
def vote (symbols : List Nat) : Nat × Nat :=
  (List.range 48).foldl (fun v bit =>
    (if 3 < ones symbols bit * 2 then v.1 ||| 1 <<< bit else v.1,
      if ones symbols bit = 0 ∨ ones symbols bit = 3 then v.2 + 1 else v.2)) (0, 0)

/-- What `decode` returns: its verdict, the word and the FEC result. -/
structure Decoded where
  accepted : Bool
  out : ALEWord
  fec : Golay.DecodeResult
  deriving Repr, DecidableEq

/-- `decode`; `out` is the word the caller passed in. -/
def decode (symbols : List Nat) (mode : GolayMode) (out : ALEWord) : Decoded :=
  let (tx49, unanimousVotes) := vote symbols
  let (word24, fec) := FECCodec.deinterleaveWord tx49 mode
  let uncorrectable := decide (fec.flag ≠ .ok ∧ fec.flag ≠ .corrected)
  let out := { out with
    unanimousVotes := unanimousVotes
    fecErrors := fec.errorsCorrected
    golayUncorrectable := uncorrectable }
  if uncorrectable then { accepted := false, out := out, fec := fec }
  else
    let parsed := parseFromBits word24 0
    { accepted := parsed.valid
      out := { out with
        type := parsed.type
        rawPayload := parsed.rawPayload
        timestampMs := parsed.timestampMs
        address := parsed.address
        valid := parsed.valid }
      fec := fec }

/-- Bit `j` of the vote is its majority. -/
theorem testBit_vote (symbols : List Nat) (j : Nat) :
    (vote symbols).1.testBit j = (decide (j < 48) && decide (3 < ones symbols j * 2)) := by
  have hround : ∀ (v : Nat × Nat) bit j,
      ((if 3 < ones symbols bit * 2 then v.1 ||| 1 <<< bit else v.1,
        if ones symbols bit = 0 ∨ ones symbols bit = 3 then v.2 + 1 else v.2) : Nat × Nat).1.testBit j
      = (v.1.testBit j || (decide (3 < ones symbols bit * 2) && decide (bit = j))) :=
    fun v bit j => Bits.testBit_setIf _ _ _ _
  unfold vote
  rw [Bits.testBit_foldl (v := Prod.fst) hround, Nat.zero_testBit, Bool.false_or, Bool.eq_iff_iff,
    List.any_eq_true]
  simp only [List.mem_range, Bool.and_eq_true, decide_eq_true_eq]
  constructor
  · rintro ⟨bit, hbit, hv, rfl⟩
    exact ⟨hbit, hv⟩
  · rintro ⟨hj, hv⟩
    exact ⟨j, hj, hv, rfl⟩

theorem copyBit_encodeTx49 (t : Nat) {p : Nat} (hp : p < 147) :
    copyBit (ALEEncoder.encodeTx49 t) p = (t.testBit (p % 49)).toNat := by
  have hget : (ALEEncoder.encodeTx49 t).getD (p / 3) 0 = ALEEncoder.symbol t (p / 3) := by
    unfold ALEEncoder.encodeTx49
    rw [List.getD_eq_getElem _ _ (by rw [List.length_map, List.length_range]; omega),
      List.getElem_map, List.getElem_range]
  unfold copyBit
  rw [hget, Bits.shiftRight_and_one, ALEEncoder.testBit_symbol, decide_eq_true (by omega),
    Bool.true_and, show p / 3 * 3 + (2 - (3 - 1 - p % 3)) = p by omega]

theorem ones_encodeTx49 (t : Nat) {bit : Nat} (h : bit < 48) :
    ones (ALEEncoder.encodeTx49 t) bit = 3 * (t.testBit bit).toNat := by
  show 0 + copyBit _ (bit + 0 * 49) + copyBit _ (bit + 1 * 49) + copyBit _ (bit + 2 * 49) = _
  rw [copyBit_encodeTx49 t (by omega), copyBit_encodeTx49 t (by omega),
    copyBit_encodeTx49 t (by omega), show (bit + 0 * 49) % 49 = bit by omega,
    show (bit + 1 * 49) % 49 = bit by omega, show (bit + 2 * 49) % 49 = bit by omega]
  omega

/-- **The vote gives back the 48 bits sent.** -/
theorem vote_encodeTx49 (t : Nat) {j : Nat} (hj : j < 48) :
    (vote (ALEEncoder.encodeTx49 t)).1.testBit j = t.testBit j := by
  rw [testBit_vote, ones_encodeTx49 t hj, decide_eq_true hj, Bool.true_and]
  cases t.testBit j <;> decide

/-- The two halves of a frame: what comes out of the vote, de-interleaved. -/
def halves (symbols : List Nat) : Nat × Nat := WordInterleaver.deinterleave (vote symbols).1

/-- The number of bits two frames differ by, in the A half and in the B half. -/
def difference (received sent : List Nat) : Nat × Nat :=
  (weight 24 ((halves received).1 ^^^ (halves sent).1),
    weight 24 ((halves received).2 ^^^ (halves sent).2))

/-- The 24 bits of a word. -/
def bits24 (w : ALEWord) : Nat := (w.type.code <<< 21) ||| (w.rawPayload &&& 0x1FFFFF)

theorem halves_encode (w : ALEWord) : halves (ALEEncoder.encode w) =
    ((FECCodec.encodeWord (bits24 w)).coderA, (FECCodec.encodeWord (bits24 w)).coderB) := by
  unfold halves ALEEncoder.encode
  rw [WordInterleaver.deinterleave_congr (fun j hj => vote_encodeTx49 w.encode hj)]
  exact FECCodec.halves_sent (bits24 w)

theorem difference_eq (received : List Nat) (w : ALEWord) :
    difference received (ALEEncoder.encode w) =
      FECCodec.wrongBits (bits24 w) (vote received).1 := by
  unfold difference FECCodec.wrongBits
  rw [halves_encode]
  rfl

theorem difference_self (frame : List Nat) : difference frame frame = (0, 0) := by
  unfold difference
  rw [Nat.xor_self, Nat.xor_self, weight_zero]

section Guarantee

variable {w : ALEWord}

theorem bits24_eq (w : ALEWord) : bits24 w = w.type.code * 2 ^ 21 + w.rawPayload % 2 ^ 21 := by
  have hp : w.rawPayload &&& 0x1FFFFF = w.rawPayload % 2 ^ 21 :=
    Nat.and_two_pow_sub_one_eq_mod w.rawPayload 21
  unfold bits24
  rw [hp, ← Nat.shiftLeft_add_eq_or_of_lt (Nat.mod_lt _ (Nat.two_pow_pos 21)), Nat.shiftLeft_eq]

theorem code_lt (hw : w.type ≠ .unknown) : w.type.code < 2 ^ 3 := by
  cases h : w.type <;> first | decide | exact absurd h hw

theorem bits24_lt (hw : w.type ≠ .unknown) : bits24 w < 2 ^ 24 := by
  have hc := code_lt hw
  have hp := Nat.mod_lt w.rawPayload (Nat.two_pow_pos 21)
  rw [bits24_eq]
  omega

theorem extractPreamble_bits24 (hw : w.type ≠ .unknown) : extractPreamble (bits24 w) = w.type := by
  have hc := code_lt hw
  have hp := Nat.mod_lt w.rawPayload (Nat.two_pow_pos 21)
  unfold extractPreamble
  rw [bits24_eq, Nat.shiftRight_eq_div_pow, Nat.and_two_pow_sub_one_eq_mod _ 3,
    show (w.type.code * 2 ^ 21 + w.rawPayload % 2 ^ 21) / 2 ^ 21 % 2 ^ 3 = w.type.code by omega]
  cases w.type <;> rfl

theorem extractPayload_bits24 (w : ALEWord) :
    extractPayload (bits24 w) = w.rawPayload &&& 0x1FFFFF := by
  unfold extractPayload bits24
  rw [Nat.and_or_distrib_right, Nat.and_assoc, Nat.and_self]
  have h0 : (w.type.code <<< 21) &&& 0x1FFFFF = 0 := by
    rw [Nat.and_two_pow_sub_one_eq_mod _ 21, Nat.shiftLeft_eq, Nat.mul_mod_left]
  rw [h0, Nat.zero_or]

/-- `w` is recovered with `n` errors corrected; whether it is accepted is up to its characters. -/
structure Recovers (d : Decoded) (w : ALEWord) (n : Nat) : Prop where
  flag : d.fec.flag ≠ .detected
  correctable : d.out.golayUncorrectable = false
  type : d.out.type = w.type
  rawPayload : d.out.rawPayload = w.rawPayload &&& 0x1FFFFF
  errors : d.fec.errorsCorrected = n
  fecErrors : d.out.fecErrors = n
  address : d.out.address = (decodeAscii (w.rawPayload &&& 0x1FFFFF) w.type).1
  accepted : d.accepted = (decodeAscii (w.rawPayload &&& 0x1FFFFF) w.type).2
  valid : d.out.valid = d.accepted

/-- The word is reported uncorrectable. -/
structure Refuses (d : Decoded) : Prop where
  flag : d.fec.flag = .detected
  uncorrectable : d.out.golayUncorrectable = true
  accepted : d.accepted = false

theorem decode_recovers {symbols : List Nat} {mode : GolayMode} {f : Golay.DecodeFlag} {n : Nat}
    (hw : w.type ≠ .unknown) (out : ALEWord) (hf : f ≠ .detected)
    (h : FECCodec.deinterleaveWord (vote symbols).1 mode = (bits24 w, ⟨f, n⟩)) :
    Recovers (decode symbols mode out) w n := by
  have hu : decide (f ≠ .ok ∧ f ≠ .corrected) = false := by
    cases f <;> first | rfl | exact absurd rfl hf
  unfold decode
  rw [show vote symbols = ((vote symbols).1, (vote symbols).2) from rfl]
  dsimp only
  rw [h]
  dsimp only
  rw [hu, if_neg Bool.false_ne_true]
  unfold parseFromBits
  rw [extractPreamble_bits24 hw, extractPayload_bits24]
  exact ⟨hf, rfl, rfl, rfl, rfl, rfl, rfl, rfl, rfl⟩

theorem decode_refuses {symbols : List Nat} {mode : GolayMode} (out : ALEWord)
    (h : (FECCodec.deinterleaveWord (vote symbols).1 mode).2 = ⟨.detected, 0⟩) :
    Refuses (decode symbols mode out) := by
  unfold decode
  rw [show vote symbols = ((vote symbols).1, (vote symbols).2) from rfl]
  dsimp only
  rw [show FECCodec.deinterleaveWord (vote symbols).1 mode =
      ((FECCodec.deinterleaveWord (vote symbols).1 mode).1, ⟨.detected, 0⟩) from Prod.ext rfl h]
  exact ⟨rfl, rfl, rfl⟩

/-- Without a channel error every word is recovered. -/
theorem decode_encode (mode : GolayMode) (out : ALEWord) (hw : w.type ≠ .unknown) :
    Recovers (decode (ALEEncoder.encode w) mode out) w 0 := by
  have hwrong : FECCodec.wrongBits (bits24 w) (vote (ALEEncoder.encode w)).1 = (0, 0) := by
    rw [← difference_eq, difference_self]
  have h := FECCodec.deinterleaveWord_of_light (bits24_lt hw)
    (by rw [hwrong]; exact Nat.zero_le mode.code) (by rw [hwrong]; exact Nat.zero_le mode.code)
  rw [hwrong] at h
  exact decode_recovers hw out (by simp) h

/-- **The FEC of a word.** A frame that differs from a word's by `a` bits in one half and `b` in the
other gives back the word with `a + b` errors corrected where the mode corrects that many in each
half; one error too many in a half is reported as long as `a` or `b` is at most 7 less the mode's
power, so no such frame is taken for another word. -/
theorem decode_guarantee (mode : GolayMode) (w out : ALEWord) (received : List Nat)
    (hw : w.type ≠ .unknown) :
    let (a, b) := difference received (ALEEncoder.encode w)
    let d := decode received mode out
    (a ≤ mode.code ∧ b ≤ mode.code → Recovers d w (a + b)) ∧
      (mode.code < a ∧ a ≤ 7 - mode.code ∨ mode.code < b ∧ b ≤ 7 - mode.code → Refuses d) ∧
      (a ≤ 7 - mode.code ∧ b ≤ 7 - mode.code → Recovers d w (a + b) ∨ Refuses d) := by
  rw [difference_eq]
  dsimp only
  generalize ha : (FECCodec.wrongBits (bits24 w) (vote received).1).1 = a
  generalize hb : (FECCodec.wrongBits (bits24 w) (vote received).1).2 = b
  have hlight : a ≤ mode.code ∧ b ≤ mode.code → Recovers (decode received mode out) w (a + b) := by
    rintro ⟨hA, hB⟩
    have h := FECCodec.deinterleaveWord_of_light (bits24_lt hw) (by rw [ha]; exact hA)
      (by rw [hb]; exact hB)
    rw [ha, hb] at h
    refine decode_recovers hw out ?_ h
    split <;> decide
  have hheavy : mode.code < a ∧ a ≤ 7 - mode.code ∨ mode.code < b ∧ b ≤ 7 - mode.code →
      Refuses (decode received mode out) := fun h =>
    decode_refuses out (FECCodec.deinterleaveWord_of_heavy (bits24_lt hw) (by rw [ha, hb]; exact h))
  refine ⟨hlight, hheavy, fun ⟨hA, hB⟩ => ?_⟩
  by_cases h : a ≤ mode.code ∧ b ≤ mode.code
  · exact Or.inl (hlight h)
  · exact Or.inr (hheavy (by omega))

/-- `TO ABC` without a channel error. -/
theorem decode_guarantee_abc : let w := makeWord .to ['A', 'B', 'C']
    Recovers (decode (ALEEncoder.encode w) .mode3_4 {}) w 0 := by
  have h := decode_guarantee .mode3_4 (makeWord .to ['A', 'B', 'C']) {}
    (ALEEncoder.encode (makeWord .to ['A', 'B', 'C'])) (by decide)
  rw [difference_self] at h
  exact h.1 ⟨Nat.zero_le _, Nat.zero_le _⟩

end Guarantee

end ALEDecoder

end OpenALE
