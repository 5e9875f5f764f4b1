import Mathlib

/-!
# Decimal numerals

`Nat.toDigits 10` read back digit by digit.

Results:
* `value_digits`, `digits_injective`: a numeral has one value and a number one numeral.
* `value_pad`, `length_pad`: leading zeros up to a width.
-/

namespace Decimal

/-- The numeral of a number. -/
def digits (n : Nat) : List Char := Nat.toDigits 10 n

/-- One more digit. -/
def shift (acc : Nat) (c : Char) : Nat := 10 * acc + (c.toNat - 48)

/-- The value of a string of digits. -/
def value (cs : List Char) : Nat := cs.foldl shift 0

theorem value_digits (n : Nat) : value (digits n) = n := by
  unfold value digits
  induction n using Nat.strong_induction_on with
  | _ n ih =>
    by_cases h : n < 10
    · rw [Nat.toDigits_of_lt_base h]
      simp [shift, Nat.toNat_digitChar_sub_48_of_lt_ten h]
    · have hdiv : n / 10 < n := by omega
      have hmod : n % 10 < 10 := Nat.mod_lt n (by omega)
      rw [Nat.toDigits_of_base_le (by omega) (by omega), List.foldl_append, ih _ hdiv]
      simp only [List.foldl_cons, List.foldl_nil, shift,
        Nat.toNat_digitChar_sub_48_of_lt_ten hmod]
      omega

theorem digits_injective : Function.Injective digits := by
  intro m n h
  rw [← value_digits m, h, value_digits n]

theorem digits_ne_nil (n : Nat) : digits n ≠ [] := by
  unfold digits
  exact List.ne_nil_of_length_pos Nat.length_toDigits_pos

theorem isDigit_of_mem {n : Nat} {c : Char} (h : c ∈ digits n) : c.isDigit = true :=
  Nat.isDigit_of_mem_toDigits (by omega) (by omega) h

/-! ## Numerals of a fixed width -/

/-- A numeral with leading zeros. -/
def pad (n w : Nat) : List Char := List.replicate (w - (digits n).length) '0' ++ digits n

theorem foldl_shift_lt {cs : List Char} (h : ∀ c ∈ cs, c.isDigit = true) {acc k : Nat}
    (hacc : acc < k) : cs.foldl shift acc < k * 10 ^ cs.length := by
  induction cs generalizing acc k with
  | nil => simpa using hacc
  | cons c cs ih =>
    have hc : c.toNat - 48 ≤ 9 := by
      have hdigit := h c List.mem_cons_self
      simp only [Char.isDigit, Bool.and_eq_true, decide_eq_true_eq] at hdigit
      have hhigh : c.toNat ≤ 57 := hdigit.2
      omega
    have hstep : shift acc c < k * 10 := by
      unfold shift
      omega
    rw [List.foldl_cons, List.length_cons, Nat.pow_succ', ← Nat.mul_assoc]
    exact ih (fun x hx => h x (List.mem_cons_of_mem _ hx)) hstep

/-- A string of digits stands for a number of no more digits. -/
theorem value_lt {cs : List Char} (h : ∀ c ∈ cs, c.isDigit = true) : value cs < 10 ^ cs.length := by
  simpa [value] using foldl_shift_lt h Nat.zero_lt_one

theorem value_pad (n w : Nat) : value (pad n w) = n := by
  have hzeros (k : Nat) : (List.replicate k '0').foldl shift 0 = 0 := by
    induction k with
    | zero => rfl
    | succ k ih => rw [List.replicate_succ, List.foldl_cons]; exact ih
  rw [pad, value, List.foldl_append, hzeros]
  exact value_digits n

theorem isDigit_of_mem_pad {n w : Nat} {c : Char} (h : c ∈ pad n w) : c.isDigit = true := by
  obtain h | h := List.mem_append.mp h
  · rw [List.eq_of_mem_replicate h]
    decide
  · exact isDigit_of_mem h

theorem length_digits_le {n w : Nat} (hw : 0 < w) : (digits n).length ≤ w ↔ n < 10 ^ w :=
  Nat.length_toDigits_le_iff (by decide) hw

theorem length_pad {n w : Nat} (hw : 0 < w) (h : n < 10 ^ w) : (pad n w).length = w := by
  have hlen := (length_digits_le hw).mpr h
  rw [pad, List.length_append, List.length_replicate]
  omega

end Decimal
