import Mathlib

/-!
# Base64

Encoding with padding, and a lenient decoding that knows both alphabets and skips every other
character.

Results:
* `decode_encode`: the decoding reads back what the encoding wrote.
-/

namespace Base64

/-! ## Encoding -/

/-- The characters of the standard alphabet. -/
def alphabet : List Char :=
  "ABCDEFGHIJKLMNOPQRSTUVWXYZabcdefghijklmnopqrstuvwxyz0123456789+/".toList

/-- The character of a value. -/
def digit (n : Nat) : Char := alphabet.getD n '='

/-- Three bytes as four characters; the last group is padded. -/
def encode : List UInt8 → List Char
  | a :: b :: c :: rest =>
    let n := a.toNat * 2 ^ 16 + b.toNat * 2 ^ 8 + c.toNat
    digit (n / 2 ^ 18 % 64) :: digit (n / 2 ^ 12 % 64) :: digit (n / 2 ^ 6 % 64) ::
      digit (n % 64) :: encode rest
  | [a, b] =>
    let n := a.toNat * 2 ^ 16 + b.toNat * 2 ^ 8
    [digit (n / 2 ^ 18 % 64), digit (n / 2 ^ 12 % 64), digit (n / 2 ^ 6 % 64), '=']
  | [a] =>
    let n := a.toNat * 2 ^ 16
    [digit (n / 2 ^ 18 % 64), digit (n / 2 ^ 12 % 64), '=', '=']
  | [] => []

/-! ## Decoding -/

/-- The value of a character of either alphabet. -/
def value (c : Char) : Option Nat :=
  if 'A' ≤ c ∧ c ≤ 'Z' then some (c.toNat - 'A'.toNat)
  else if 'a' ≤ c ∧ c ≤ 'z' then some (c.toNat - 'a'.toNat + 26)
  else if '0' ≤ c ∧ c ≤ '9' then some (c.toNat - '0'.toNat + 52)
  else if c = '+' ∨ c = '-' then some 62
  else if c = '/' ∨ c = '_' then some 63
  else none

/-- The bytes of groups of six bits; what does not make a byte is dropped. -/
def bytes : List Nat → List UInt8
  | a :: b :: c :: d :: rest =>
    UInt8.ofNat (a * 4 + b / 16) :: UInt8.ofNat (b * 16 + c / 4) :: UInt8.ofNat (c * 64 + d) ::
      bytes rest
  | [a, b, c] => [UInt8.ofNat (a * 4 + b / 16), UInt8.ofNat (b * 16 + c / 4)]
  | [a, b] => [UInt8.ofNat (a * 4 + b / 16)]
  | _ => []

/-- The lenient decoding. -/
def decode (text : List Char) : List UInt8 := bytes (text.filterMap value)

/-! ## There and back -/

theorem value_digit {n : Nat} (h : n < 64) : value (digit n) = some n := by
  have hall : ∀ n < 64, value (digit n) = some n := by decide +kernel
  exact hall n h

theorem value_pad : value '=' = none := by decide

theorem ofNat_eq {a : UInt8} {n : Nat} (h : n % 256 = a.toNat) : UInt8.ofNat n = a := by
  apply UInt8.toNat_inj.mp
  rw [UInt8.toNat_ofNat']
  exact h

/-- **The decoding reads back** what the encoding wrote. -/
theorem decode_encode (data : List UInt8) : decode (encode data) = data := by
  unfold decode
  fun_induction encode data with
  | case1 a b c rest n ih =>
    have ha := a.toNat_lt
    have hb := b.toNat_lt
    have hc := c.toNat_lt
    have hd := Nat.mod_lt n (show 64 > 0 by decide)
    rw [List.filterMap_cons_some (value_digit (Nat.mod_lt _ (by decide))),
      List.filterMap_cons_some (value_digit (Nat.mod_lt _ (by decide))),
      List.filterMap_cons_some (value_digit (Nat.mod_lt _ (by decide))),
      List.filterMap_cons_some (value_digit hd), bytes, ih]
    congr 1
    · exact ofNat_eq (by omega)
    · congr 1
      · exact ofNat_eq (by omega)
      · congr 1
        exact ofNat_eq (by omega)
  | case2 a b n =>
    have ha := a.toNat_lt
    have hb := b.toNat_lt
    rw [List.filterMap_cons_some (value_digit (Nat.mod_lt _ (by decide))),
      List.filterMap_cons_some (value_digit (Nat.mod_lt _ (by decide))),
      List.filterMap_cons_some (value_digit (Nat.mod_lt _ (by decide))),
      List.filterMap_cons_none value_pad, List.filterMap_nil, bytes]
    congr 1
    · exact ofNat_eq (by omega)
    · congr 1
      exact ofNat_eq (by omega)
  | case3 a n =>
    have ha := a.toNat_lt
    rw [List.filterMap_cons_some (value_digit (Nat.mod_lt _ (by decide))),
      List.filterMap_cons_some (value_digit (Nat.mod_lt _ (by decide))),
      List.filterMap_cons_none value_pad, List.filterMap_cons_none value_pad, List.filterMap_nil,
      bytes]
    congr 1
    exact ofNat_eq (by omega)
  | case4 => rfl

end Base64
