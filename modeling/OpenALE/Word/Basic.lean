import Mathlib

/-!
# ALE words: preambles, character sets and `WordParser`

Model of `include/Word/ale_word.h`, `src/Word/ale_word.cpp` and of `trim_ale_address`
(`include/Word/address_encoder.h`).

* `Str` is `std::string`: a list of characters, each standing for one byte.
* `ALEWord.address` is `char address[4]` without its terminator: three characters, `'\x00'` where
  the constructor zeroes them.
* `rawPayload` and the 24-bit words are `Nat` with Lean's bit operations; nothing here comes near
  2³². `0xFFFFFFFF` stays the error value of `encode_ascii`.
* `sinad_db` is left out: a float that only the link-quality database reads.

Results:
* `validBasic38_iff`, `validExpanded64_iff`: what the table `ASCII_SET` accepts.
* `makeWord_eq`: a word built from three characters of its type's set is valid and holds exactly
  them.
-/

namespace OpenALE

/-- `std::string`. -/
abbrev Str := List Char

/-- `PreambleType`, Table A-II. -/
inductive PreambleType where
  | data
  | thru
  | to
  | twas
  /-- `FROM`. -/
  | frm
  | tis
  | cmd
  | rep
  | unknown
  deriving Repr, DecidableEq

/-- The enumerator's value, `UNKNOWN = 0xFF`. -/
def PreambleType.code : PreambleType → Nat
  | .data => 0
  | .thru => 1
  | .to => 2
  | .twas => 3
  | .frm => 4
  | .tis => 5
  | .cmd => 6
  | .rep => 7
  | .unknown => 0xFF

/-- `static_cast<PreambleType>` of a byte. -/
def PreambleType.ofCode : Nat → PreambleType
  | 0 => .data
  | 1 => .thru
  | 2 => .to
  | 3 => .twas
  | 4 => .frm
  | 5 => .tis
  | 6 => .cmd
  | 7 => .rep
  | _ => .unknown

/-- A `DATA` or `REP` word. -/
def PreambleType.isExt (t : PreambleType) : Bool := t == .data || t == .rep

/-- `ALEWord`; the defaults are those of its constructor. -/
structure ALEWord where
  type : PreambleType := .unknown
  address : Str := ['\x00', '\x00', '\x00']
  rawPayload : Nat := 0
  fecErrors : Nat := 0
  unanimousVotes : Nat := 0
  golayUncorrectable : Bool := false
  valid : Bool := false
  timestampMs : UInt32 := 0
  deriving Repr, DecidableEq

/-- An `address` field read as a C string. -/
def cstr (raw : Str) : Str := raw.takeWhile (· != '\x00')

/-- `trim_ale_address`: drop trailing blanks and `'@'` fillers. -/
def trimAleAddress (raw : Str) : Str := raw.rdropWhile fun c => c == ' ' || c == '@'

/-! ## Character sets -/

/-- `ASCII_SET`: 0 = not ALE, 1 = Expanded-64 only, 2 = Basic-38. -/
def asciiSet : List Nat :=
  [0, 0, 0, 0, 0, 0, 0, 0, 0, 0, 0, 0, 0, 0, 0, 0,
   0, 0, 0, 0, 0, 0, 0, 0, 0, 0, 0, 0, 0, 0, 0, 0,
   1, 1, 1, 1, 1, 1, 1, 1, 1, 1, 1, 1, 1, 1, 1, 1,
   2, 2, 2, 2, 2, 2, 2, 2, 2, 2, 1, 1, 1, 1, 1, 2,
   2, 2, 2, 2, 2, 2, 2, 2, 2, 2, 2, 2, 2, 2, 2, 2,
   2, 2, 2, 2, 2, 2, 2, 2, 2, 2, 2, 1, 1, 1, 1, 1,
   0, 0, 0, 0, 0, 0, 0, 0, 0, 0, 0, 0, 0, 0, 0, 0,
   0, 0, 0, 0, 0, 0, 0, 0, 0, 0, 0, 0, 0, 0, 0, 0]

/-- `is_valid_basic38_char`. -/
def validBasic38 (c : Char) : Bool :=
  if 128 ≤ c.toNat then false else asciiSet.getD c.toNat 0 == 2

/-- `is_valid_expanded64_char`. -/
def validExpanded64 (c : Char) : Bool :=
  if 128 ≤ c.toNat then false else asciiSet.getD c.toNat 0 != 0

/-- `uses_basic38`. -/
def usesBasic38 (t : PreambleType) : Bool := t != .data && t != .rep

/-- The predicate `decode_ascii` and `encode_ascii` pick for a word type. -/
def validChar (t : PreambleType) : Char → Bool :=
  if usesBasic38 t then validBasic38 else validExpanded64

/-- The Basic-38 set is `0-9`, `?`, `@` and `A-Z`. -/
theorem validBasic38_iff (c : Char) :
    validBasic38 c = true ↔
      (0x30 ≤ c.toNat ∧ c.toNat ≤ 0x39) ∨ (0x3F ≤ c.toNat ∧ c.toNat ≤ 0x5A) := by
  unfold validBasic38
  split
  · rename_i h
    simp only [Bool.false_eq_true, false_iff]
    omega
  · rename_i h
    have key : ∀ n < 128, (asciiSet.getD n 0 == 2) = true ↔
        (0x30 ≤ n ∧ n ≤ 0x39) ∨ (0x3F ≤ n ∧ n ≤ 0x5A) := by decide
    exact key c.toNat (by omega)

/-- The Expanded-64 set is `0x20-0x5F`. -/
theorem validExpanded64_iff (c : Char) :
    validExpanded64 c = true ↔ 0x20 ≤ c.toNat ∧ c.toNat ≤ 0x5F := by
  unfold validExpanded64
  split
  · rename_i h
    simp only [Bool.false_eq_true, false_iff]
    omega
  · rename_i h
    have key : ∀ n < 128, (asciiSet.getD n 0 != 0) = true ↔ 0x20 ≤ n ∧ n ≤ 0x5F := by decide
    exact key c.toNat (by omega)

theorem validExpanded64_of_basic38 {c : Char} (h : validBasic38 c = true) :
    validExpanded64 c = true := by
  rw [validBasic38_iff] at h
  rw [validExpanded64_iff]
  omega

/-- A Basic-38 character may stand in a word of any type. -/
theorem validChar_of_basic38 (t : PreambleType) {c : Char} (h : validBasic38 c = true) :
    validChar t c = true := by
  unfold validChar
  split
  · exact h
  · exact validExpanded64_of_basic38 h

/-- Every accepted character is a 7-bit code. -/
theorem lt_128_of_validChar {t : PreambleType} {c : Char} (h : validChar t c = true) :
    c.toNat < 128 := by
  unfold validChar at h
  split at h
  · have := (validBasic38_iff c).mp h
    omega
  · have := (validExpanded64_iff c).mp h
    omega

/-! ## `WordParser` -/

/-- `extract_preamble`. -/
def extractPreamble (wordBits : Nat) : PreambleType :=
  PreambleType.ofCode ((wordBits >>> 21) &&& 0x07)

/-- `extract_payload`. -/
def extractPayload (wordBits : Nat) : Nat := wordBits &&& 0x1FFFFF

/-- The three characters of a 21-bit payload. -/
def payloadChars (payload : Nat) : Str :=
  [Char.ofNat ((payload >>> 14) &&& 0x7F), Char.ofNat ((payload >>> 7) &&& 0x7F),
    Char.ofNat (payload &&& 0x7F)]

/-- `decode_ascii`: the characters and whether they are valid for the type. A command word is
accepted as it is. -/
def decodeAscii (payload : Nat) (t : PreambleType) : Str × Bool :=
  if t = .cmd then (payloadChars payload, true)
  else if (payloadChars payload).all (validChar t) then (payloadChars payload, true)
  else (['?', '?', '?'], false)

/-- `encode_ascii`'s error value. -/
def badPayload : Nat := 0xFFFFFFFF

/-- `encode_ascii` on exactly three characters. -/
def encodeAscii (c0 c1 c2 : Char) (t : PreambleType) : Nat :=
  if validChar t c0 && validChar t c1 && validChar t c2 then
    (((c0.toNat &&& 0x7F) <<< 14) ||| ((c1.toNat &&& 0x7F) <<< 7) ||| (c2.toNat &&& 0x7F))
      &&& 0x1FFFFF
  else badPayload

/-- `parse_from_bits`. -/
def parseFromBits (wordBits : Nat) (timestampMs : UInt32) : ALEWord :=
  let t := extractPreamble wordBits
  let d := decodeAscii (extractPayload wordBits) t
  { type := t, address := d.1, rawPayload := extractPayload wordBits,
    timestampMs := timestampMs, valid := d.2 }

/-- `make_word`, for a three-character string; a shorter one cannot be passed. -/
def makeWord (t : PreambleType) : Str → ALEWord
  | [c0, c1, c2] =>
    let payload := encodeAscii c0 c1 c2 t
    if payload = badPayload then {}
    else parseFromBits ((t.code <<< 21) ||| payload) 0
  | _ => {}

/-! ### Encoding three characters and reading them back -/

theorem encodeAscii_eq {c0 c1 c2 : Char} {t : PreambleType} (h0 : validChar t c0 = true)
    (h1 : validChar t c1 = true) (h2 : validChar t c2 = true) :
    encodeAscii c0 c1 c2 t = c0.toNat * 2 ^ 14 + c1.toNat * 2 ^ 7 + c2.toNat := by
  have l0 : c0.toNat < 2 ^ 7 := lt_128_of_validChar h0
  have l1 : c1.toNat < 2 ^ 7 := lt_128_of_validChar h1
  have l2 : c2.toNat < 2 ^ 7 := lt_128_of_validChar h2
  have m : ∀ n, n &&& 0x7F = n % 2 ^ 7 := fun n => Nat.and_two_pow_sub_one_eq_mod n 7
  have m21 : ∀ n, n &&& 0x1FFFFF = n % 2 ^ 21 := fun n => Nat.and_two_pow_sub_one_eq_mod n 21
  unfold encodeAscii
  rw [h0, h1, h2]
  simp only [Bool.and_self, if_true]
  rw [m, m, m, m21, Nat.mod_eq_of_lt l0, Nat.mod_eq_of_lt l1, Nat.mod_eq_of_lt l2,
    ← Nat.shiftLeft_add_eq_or_of_lt (show c1.toNat <<< 7 < 2 ^ 14 by
      rw [Nat.shiftLeft_eq]; omega)]
  have e : c0.toNat <<< 14 + c1.toNat <<< 7 = (c0.toNat * 2 ^ 7 + c1.toNat) <<< 7 := by
    rw [Nat.shiftLeft_eq, Nat.shiftLeft_eq, Nat.shiftLeft_eq]
    omega
  rw [e, ← Nat.shiftLeft_add_eq_or_of_lt (show c2.toNat < 2 ^ 7 by omega), Nat.shiftLeft_eq]
  omega

theorem payloadChars_eq {c0 c1 c2 : Char} (l0 : c0.toNat < 128) (l1 : c1.toNat < 128)
    (l2 : c2.toNat < 128) :
    payloadChars (c0.toNat * 2 ^ 14 + c1.toNat * 2 ^ 7 + c2.toNat) = [c0, c1, c2] := by
  have m : ∀ n, n &&& 0x7F = n % 2 ^ 7 := fun n => Nat.and_two_pow_sub_one_eq_mod n 7
  unfold payloadChars
  rw [m, m, m, Nat.shiftRight_eq_div_pow, Nat.shiftRight_eq_div_pow,
    show (c0.toNat * 2 ^ 14 + c1.toNat * 2 ^ 7 + c2.toNat) / 2 ^ 14 % 2 ^ 7 = c0.toNat by omega,
    show (c0.toNat * 2 ^ 14 + c1.toNat * 2 ^ 7 + c2.toNat) / 2 ^ 7 % 2 ^ 7 = c1.toNat by omega,
    show (c0.toNat * 2 ^ 14 + c1.toNat * 2 ^ 7 + c2.toNat) % 2 ^ 7 = c2.toNat by omega,
    Char.ofNat_toNat, Char.ofNat_toNat, Char.ofNat_toNat]

/-- **A word built from characters of its type's set is valid and holds exactly them.** -/
theorem makeWord_eq {t : PreambleType} (ht : t ≠ .unknown) {c0 c1 c2 : Char}
    (h0 : validChar t c0 = true) (h1 : validChar t c1 = true) (h2 : validChar t c2 = true) :
    makeWord t [c0, c1, c2] =
      { type := t, address := [c0, c1, c2],
        rawPayload := c0.toNat * 2 ^ 14 + c1.toNat * 2 ^ 7 + c2.toNat, valid := true } := by
  have l0 := lt_128_of_validChar h0
  have l1 := lt_128_of_validChar h1
  have l2 := lt_128_of_validChar h2
  have hp := encodeAscii_eq h0 h1 h2
  have hlt : c0.toNat * 2 ^ 14 + c1.toNat * 2 ^ 7 + c2.toNat < 2 ^ 21 := by omega
  have hne : ¬ c0.toNat * 2 ^ 14 + c1.toNat * 2 ^ 7 + c2.toNat = badPayload := by
    unfold badPayload; omega
  have hpay : extractPayload (t.code <<< 21 ||| (c0.toNat * 2 ^ 14 + c1.toNat * 2 ^ 7 + c2.toNat))
      = c0.toNat * 2 ^ 14 + c1.toNat * 2 ^ 7 + c2.toNat := by
    have m21 : ∀ n, n &&& 0x1FFFFF = n % 2 ^ 21 := fun n => Nat.and_two_pow_sub_one_eq_mod n 21
    unfold extractPayload
    rw [← Nat.shiftLeft_add_eq_or_of_lt hlt, Nat.shiftLeft_eq, m21]
    omega
  have hpre : extractPreamble
      (t.code <<< 21 ||| (c0.toNat * 2 ^ 14 + c1.toNat * 2 ^ 7 + c2.toNat)) = t := by
    have m3 : ∀ n, n &&& 0x07 = n % 2 ^ 3 := fun n => Nat.and_two_pow_sub_one_eq_mod n 3
    unfold extractPreamble
    rw [← Nat.shiftLeft_add_eq_or_of_lt hlt, Nat.shiftLeft_eq, Nat.shiftRight_eq_div_pow, m3,
      show (t.code * 2 ^ 21 + (c0.toNat * 2 ^ 14 + c1.toNat * 2 ^ 7 + c2.toNat)) / 2 ^ 21
        = t.code by omega]
    cases t <;> first | rfl | exact absurd rfl ht
  have hdec : decodeAscii (c0.toNat * 2 ^ 14 + c1.toNat * 2 ^ 7 + c2.toNat) t
      = ([c0, c1, c2], true) := by
    unfold decodeAscii
    rw [payloadChars_eq l0 l1 l2]
    simp [h0, h1, h2]
  simp only [makeWord]
  rw [hp, if_neg hne]
  unfold parseFromBits
  simp only [hpay, hpre, hdec]

end OpenALE
