import Mathlib

/-!
# Doubles

A finite double is the rational it stands for: a magnitude is rounded to 53 binary digits, fewer
below the smallest normal number, to the nearest and of two to the even one.

Results:
* `nearest_near`, `nearest_eq`: rounding to the nearest integer.
* `rnd_near`: a normal magnitude is moved by no more than its 2^53rd part.
* `rnd_rnd`: a rounded magnitude stays.
* `rnd_natCast`: an integer rounds to an integer.
-/

namespace Binary64

/-- The nearest integer, of two the even one. -/
def nearest (x : ℚ) : ℤ :=
  let n := ⌊x⌋
  if x - n < 1 / 2 then n
  else if 1 / 2 < x - n then n + 1
  else if n % 2 = 0 then n else n + 1

variable {x q : ℚ} {n : ℤ}

theorem nearest_near (x : ℚ) : |(nearest x : ℚ) - x| ≤ 1 / 2 := by
  have hlow := Int.floor_le x
  have hhigh := Int.lt_floor_add_one x
  unfold nearest
  dsimp only
  rw [abs_le]
  split_ifs
  all_goals
    push_cast
    constructor <;> linarith

/-- **What is nearer than a half** to an integer rounds to it. -/
theorem nearest_eq (h : |x - n| < 1 / 2) : nearest x = n := by
  have hnear := nearest_near x
  have hsum : |(nearest x : ℚ) - n| < 1 := by
    calc |(nearest x : ℚ) - n| = |((nearest x : ℚ) - x) + (x - n)| := by congr 1; ring
      _ ≤ |(nearest x : ℚ) - x| + |x - n| := abs_add_le _ _
      _ < 1 := by linarith
  have hint : |nearest x - n| < 1 := by exact_mod_cast hsum
  rw [Int.abs_lt_one_iff] at hint
  omega

theorem nearest_intCast (n : ℤ) : nearest n = n :=
  nearest_eq (by norm_num)

/-- The place of the last binary digit of a magnitude. -/
def lastPlace (q : ℚ) : ℤ := max (Int.log 2 q) (-1022) - 52

/-- The double next to a magnitude; what does not fit is for the caller to see. -/
def rnd (q : ℚ) : ℚ := nearest (q / 2 ^ lastPlace q) * 2 ^ lastPlace q

theorem two_zpow_pos (k : ℤ) : (0 : ℚ) < 2 ^ k := by positivity

theorem rnd_zero : rnd 0 = 0 := by
  have hzero := nearest_intCast 0
  rw [Int.cast_zero] at hzero
  rw [rnd, zero_div, hzero, Int.cast_zero, zero_mul]

/-- **A normal magnitude** is moved by no more than its 2^53rd part. -/
theorem rnd_near (h : (2 : ℚ) ^ (-1022 : ℤ) ≤ q) : |rnd q - q| ≤ q / 2 ^ 53 := by
  have hpos : 0 < q := (two_zpow_pos _).trans_le h
  have hlog : -1022 ≤ Int.log 2 q := (Int.zpow_le_iff_le_log (by decide) hpos).mp (by exact_mod_cast h)
  have hplace : lastPlace q = Int.log 2 q - 52 := by rw [lastPlace, max_eq_left hlog]
  have hle : ((2 : ℕ) : ℚ) ^ Int.log 2 q ≤ q := Int.zpow_log_le_self (by decide) hpos
  have hulp : (2 : ℚ) ^ lastPlace q ≤ q / 2 ^ 52 := by
    rw [hplace, zpow_sub₀ (by norm_num)]
    have hcast : (2 : ℚ) ^ Int.log 2 q ≤ q := by exact_mod_cast hle
    exact div_le_div_of_nonneg_right hcast (by norm_num)
  have hnear := nearest_near (q / 2 ^ lastPlace q)
  have hscale : rnd q - q =
      ((nearest (q / 2 ^ lastPlace q) : ℚ) - q / 2 ^ lastPlace q) * 2 ^ lastPlace q := by
    rw [rnd, sub_mul, div_mul_cancel₀ _ (two_zpow_pos _).ne']
  rw [hscale, abs_mul, abs_of_pos (two_zpow_pos _)]
  calc |(nearest (q / 2 ^ lastPlace q) : ℚ) - q / 2 ^ lastPlace q| * 2 ^ lastPlace q
      ≤ 1 / 2 * (q / 2 ^ 52) := mul_le_mul hnear hulp (two_zpow_pos _).le (by norm_num)
    _ = q / 2 ^ 53 := by ring

/-- A multiple of the last place stays. -/
theorem rnd_of_multiple (h : q = n * 2 ^ lastPlace q) : rnd q = q := by
  have hdiv : q / 2 ^ lastPlace q = n := by
    rw [div_eq_iff (two_zpow_pos _).ne']
    exact h
  rw [rnd, hdiv, nearest_intCast]
  exact h.symm

theorem nearest_nonneg (h : 0 ≤ x) : 0 ≤ nearest x := by
  have hfloor := Int.floor_nonneg.mpr h
  unfold nearest
  dsimp only
  split_ifs <;> omega

theorem nearest_le (h : x < n) : nearest x ≤ n := by
  have hfloor := Int.floor_lt.mpr h
  unfold nearest
  dsimp only
  split_ifs <;> omega

theorem rnd_nonneg (h : 0 ≤ q) : 0 ≤ rnd q :=
  mul_nonneg (by exact_mod_cast nearest_nonneg (div_nonneg h (two_zpow_pos _).le))
    (two_zpow_pos _).le

/-- A magnitude has no more than 53 digits up to its last place. -/
theorem div_lastPlace_lt (q : ℚ) : q / 2 ^ lastPlace q < (2 ^ 53 : ℤ) := by
  have hlog : q < ((2 : ℕ) : ℚ) ^ (Int.log 2 q + 1) := Int.lt_zpow_succ_log_self (by decide) q
  have hle : Int.log 2 q ≤ lastPlace q + 52 := by
    rw [lastPlace, sub_add_cancel]
    exact le_max_left _ _
  have hbound : q < 2 ^ (lastPlace q + 53) := by
    calc q < (2 : ℚ) ^ (Int.log 2 q + 1) := by exact_mod_cast hlog
      _ ≤ 2 ^ (lastPlace q + 53) := zpow_le_zpow_right₀ (by norm_num) (by omega)
  rw [div_lt_iff₀ (two_zpow_pos _)]
  calc q < (2 : ℚ) ^ (lastPlace q + 53) := hbound
    _ = ((2 ^ 53 : ℤ) : ℚ) * 2 ^ lastPlace q := by
      rw [zpow_add₀ (by norm_num), mul_comm]
      norm_num

/-- **A rounded magnitude stays.** -/
theorem rnd_rnd (h : 0 ≤ q) : rnd (rnd q) = rnd q := by
  obtain hzero | hpos := (rnd_nonneg h).eq_or_lt
  · rw [← hzero, rnd_zero]
  set k := lastPlace q with hk
  set m := nearest (q / 2 ^ k) with hm
  have hr : rnd q = m * 2 ^ k := rfl
  have hm53 : m ≤ 2 ^ 53 := nearest_le (div_lastPlace_lt q)
  set k' := lastPlace (rnd q) with hk'
  obtain hle | hlt := le_or_gt k' k
  · -- the last place has moved down
    obtain ⟨j, hj⟩ := Int.eq_ofNat_of_zero_le (sub_nonneg.mpr hle)
    have hsplit : (2 : ℚ) ^ k = 2 ^ j * 2 ^ k' := by
      rw [← zpow_natCast, ← zpow_add₀ (by norm_num)]
      congr 1
      omega
    have hmultiple : rnd q = ((m * 2 ^ j : ℤ) : ℚ) * 2 ^ k' := by
      rw [hr, hsplit]
      push_cast
      ring
    exact rnd_of_multiple hmultiple
  · -- it has moved up by one, to a power of two
    have hplace : k' = Int.log 2 (rnd q) - 52 := by
      have hmax : k = max (Int.log 2 q) (-1022) - 52 := hk
      have hmax' : k' = max (Int.log 2 (rnd q)) (-1022) - 52 := hk'
      omega
    have hlow : (2 : ℚ) ^ (k' + 52) ≤ rnd q := by
      have hlog : ((2 : ℕ) : ℚ) ^ Int.log 2 (rnd q) ≤ rnd q :=
        Int.zpow_log_le_self (by decide) hpos
      rw [hplace, sub_add_cancel]
      exact_mod_cast hlog
    have hhigh : rnd q ≤ 2 ^ (k + 53) := by
      rw [hr, zpow_add₀ (by norm_num), mul_comm]
      refine mul_le_mul_of_nonneg_left ?_ (two_zpow_pos _).le
      exact_mod_cast hm53
    have hsucc : k' = k + 1 := by
      have hexp := (zpow_le_zpow_iff_right₀ (by norm_num : (1 : ℚ) < 2)).mp (hlow.trans hhigh)
      omega
    have hpower : rnd q = ((2 ^ 52 : ℤ) : ℚ) * 2 ^ k' := by
      have heq : rnd q = 2 ^ (k' + 52) := by
        refine le_antisymm ?_ hlow
        rw [hsucc, add_assoc]
        exact hhigh
      rw [heq, zpow_add₀ (by norm_num), mul_comm]
      norm_num
    exact rnd_of_multiple hpower

/-- **An integer rounds to an integer.** -/
theorem rnd_natCast (n : ℕ) : ∃ m : ℕ, rnd n = m := by
  set k := lastPlace (n : ℚ) with hk
  obtain hneg | hnonneg := lt_or_ge k 0
  · obtain ⟨j, hj⟩ := Int.eq_ofNat_of_zero_le (neg_nonneg.mpr hneg.le)
    have hmultiple : (n : ℚ) = ((n * 2 ^ j : ℤ) : ℚ) * 2 ^ k := by
      have hk' : k = -(j : ℤ) := by omega
      rw [hk', zpow_neg, zpow_natCast]
      push_cast
      rw [mul_assoc, mul_inv_cancel₀ (by positivity), mul_one]
    exact ⟨n, rnd_of_multiple hmultiple⟩
  · obtain ⟨j, hj⟩ := Int.eq_ofNat_of_zero_le hnonneg
    have hm : 0 ≤ nearest ((n : ℚ) / 2 ^ k) := nearest_nonneg (by positivity)
    obtain ⟨m, hm⟩ := Int.eq_ofNat_of_zero_le hm
    refine ⟨m * 2 ^ j, ?_⟩
    have hrnd : rnd n = (nearest ((n : ℚ) / 2 ^ k) : ℚ) * 2 ^ k := rfl
    rw [hrnd, hm, hj]
    push_cast
    rw [zpow_natCast]

/-! ## Doubles -/

/-- The first power of two beyond the doubles. -/
def limit : ℚ := 2 ^ (1024 : ℤ)

/-- A rational that is a double. -/
def IsDouble (x : ℚ) : Prop := rnd |x| = |x| ∧ |x| < limit

instance (x : ℚ) : Decidable (IsDouble x) := inferInstanceAs (Decidable (_ ∧ _))

theorem isDouble_rnd {q : ℚ} (h : rnd |q| < limit) : IsDouble (rnd |q|) := by
  have habs : abs (rnd |q|) = rnd |q| := abs_of_nonneg (rnd_nonneg (abs_nonneg q))
  unfold IsDouble
  rw [habs, rnd_rnd (abs_nonneg q)]
  exact ⟨rfl, h⟩

theorem IsDouble.neg {x : ℚ} (h : IsDouble x) : IsDouble (-x) := by
  unfold IsDouble
  rw [abs_neg]
  exact h

/-- A double; the two zeros are one. -/
inductive Double where
  | finite (x : ℚ) (isDouble : IsDouble x)
  | infinite (negative : Bool)
  | nan

/-- The double next to a magnitude. -/
def Double.ofRat (q : ℚ) : Double :=
  if h : rnd |q| < limit then .finite (rnd |q|) (isDouble_rnd h) else .infinite false

def Double.neg : Double → Double
  | .finite x h => .finite (-x) h.neg
  | .infinite negative => .infinite !negative
  | .nan => .nan

end Binary64
