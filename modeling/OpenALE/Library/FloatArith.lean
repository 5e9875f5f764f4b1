import Mathlib

/-!
# Arithmetic in double precision

A double is the rational it stands for, and an operation rounds its exact result. What IEEE 754 and
the C library promise of the rounding, as far as no result overflows, is the structure `FloatArith`;
exact arithmetic is one instance.

Results:
* `halfAway_near`, `halfAway_nonneg_iff`, `halfAway_lt_iff`: rounding to the nearest integer.
* `rnd_mem`, `rnd_near`: a rounded result keeps integer bounds and is close to the exact one.
-/

/-- The nearest integer, of two the one farther from zero. -/
def halfAway (x : ℚ) : ℤ := if x < 0 then -⌊-x + 1 / 2⌋ else ⌊x + 1 / 2⌋

theorem halfAway_near (x : ℚ) : |(halfAway x : ℚ) - x| ≤ 1 / 2 := by
  unfold halfAway
  split
  · have hlow := Int.floor_le (-x + 1 / 2)
    have hhigh := Int.lt_floor_add_one (-x + 1 / 2)
    rw [abs_le]
    push_cast
    constructor <;> linarith
  · have hlow := Int.floor_le (x + 1 / 2)
    have hhigh := Int.lt_floor_add_one (x + 1 / 2)
    rw [abs_le]
    constructor <;> linarith

theorem halfAway_zero : halfAway 0 = 0 := by norm_num [halfAway]

theorem halfAway_nonneg_iff {x : ℚ} : 0 ≤ halfAway x ↔ -1 / 2 < x := by
  unfold halfAway
  split
  · rename_i hneg
    rw [Left.nonneg_neg_iff, ← Int.lt_add_one_iff, Int.floor_lt]
    push_cast
    constructor <;> intro h <;> linarith
  · rename_i hpos
    have hle : 0 ≤ x := not_lt.mp hpos
    refine iff_of_true (Int.floor_nonneg.mpr (by linarith)) (by linarith)

theorem halfAway_lt_iff {x : ℚ} {n : ℕ} (h : 0 < n) : halfAway x < n ↔ x < n - 1 / 2 := by
  have hn : (1 : ℚ) ≤ n := by exact_mod_cast h
  unfold halfAway
  split
  · rename_i hneg
    have hfloor : 0 ≤ ⌊-x + 1 / 2⌋ := Int.floor_nonneg.mpr (by linarith)
    refine iff_of_true (by omega) (by linarith)
  · rw [Int.floor_lt]
    push_cast
    constructor <;> intro h <;> linarith

/-- Double precision: the rounding of a result, and `std::lround` on a `long` of at least 32 bits. -/
structure FloatArith where
  rnd : ℚ → ℚ
  mono : ∀ x y, |x| ≤ 2 ^ 53 → |y| ≤ 2 ^ 53 → x ≤ y → rnd x ≤ rnd y
  int_exact : ∀ n : ℤ, |n| ≤ 2 ^ 53 → rnd n = n
  near : ∀ x, |x| ≤ 2 ^ 53 → |rnd x - x| ≤ |x| / 2 ^ 53 + 1 / 2 ^ 1074
  lround : ℚ → ℤ
  lround_eq : ∀ x, |x| < 2 ^ 31 - 1 → lround x = halfAway x

namespace FloatArith

/-- Arithmetic without rounding. -/
def exact : FloatArith where
  rnd := id
  mono := fun _ _ _ _ h => h
  int_exact := fun _ _ => rfl
  near := fun x _ => by
    rw [id, sub_self, abs_zero]
    positivity
  lround := halfAway
  lround_eq := fun _ _ => rfl

variable (a : FloatArith) {x : ℚ} {n : ℕ}

theorem rnd_natCast (h : n ≤ 2 ^ 53) : a.rnd n = n := by
  have hint : |(n : ℤ)| ≤ 2 ^ 53 := by
    rw [Nat.abs_cast]
    exact_mod_cast h
  exact_mod_cast a.int_exact n hint

/-- A rounded result keeps integer bounds. -/
theorem rnd_mem (hn : n ≤ 2 ^ 53) (h0 : 0 ≤ x) (hx : x ≤ n) : 0 ≤ a.rnd x ∧ a.rnd x ≤ n := by
  have hcast : (n : ℚ) ≤ 2 ^ 53 := by exact_mod_cast hn
  have habs : |x| ≤ 2 ^ 53 := by
    rw [abs_of_nonneg h0]
    exact hx.trans hcast
  have hzero : a.rnd 0 = 0 := by exact_mod_cast a.rnd_natCast (n := 0) (Nat.zero_le _)
  constructor
  · rw [← hzero]
    exact a.mono 0 x (by rw [abs_zero]; positivity) habs h0
  · rw [← a.rnd_natCast hn]
    exact a.mono x n habs (by rwa [Nat.abs_cast]) hx

theorem rnd_near (hn : n ≤ 2 ^ 53) (h0 : 0 ≤ x) (hx : x ≤ n) :
    |a.rnd x - x| ≤ n / 2 ^ 53 + 1 / 2 ^ 60 := by
  have hcast : (n : ℚ) ≤ 2 ^ 53 := by exact_mod_cast hn
  have habs : |x| ≤ n := by rwa [abs_of_nonneg h0]
  have htiny : (1 : ℚ) / 2 ^ 1074 ≤ 1 / 2 ^ 60 :=
    one_div_pow_le_one_div_pow_of_le one_le_two (by norm_num)
  calc |a.rnd x - x| ≤ |x| / 2 ^ 53 + 1 / 2 ^ 1074 := a.near x (habs.trans hcast)
    _ ≤ n / 2 ^ 53 + 1 / 2 ^ 60 := by gcongr

end FloatArith
