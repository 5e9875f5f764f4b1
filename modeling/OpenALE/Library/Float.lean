import Mathlib

/-!
# Bytes of small floats

What `Float32.toUInt8` makes of a value that is not above a bound, from the kernel's model of
binary32: a float is a sign, a mantissa and an exponent, and a normal mantissa has 24 bits.

Results:
* `lt_iff`: the order of floats is the lexicographic one of sign, exponent and mantissa.
* `toUInt8_le`: a value not above the bound `c` truncates to no more than `c`'s own integer part.
-/

namespace Float32

open Float.Model Float.Model.UnpackedFloat

theorem mantissa_shiftRight (em : ExtendedMantissa) (n : Nat) :
    (em >>> n).mantissa = em.mantissa / 2 ^ n := by
  induction n with
  | zero => simp [HShiftRight.hShiftRight, Nat.repeat]
  | succ n ih =>
    have hstep : (em >>> (n + 1)).mantissa = (em >>> n).mantissa / 2 := rfl
    rw [hstep, ih, Nat.div_div_eq_div_mul, Nat.pow_succ]

/-- A float below 1 in its last place loses what is behind the point. -/
theorem roundToInt_positive (m : Nat) {e : Int} (he : e ≤ 0) :
    roundToInt .positive m e = (m / 2 ^ (-e).toNat : Nat) := by
  have h0 : (e - 0).toNat = 0 := by omega
  unfold roundToInt decreaseExponent shiftToExponent
  dsimp only
  rw [h0]
  simp only [Sign.apply, mantissa_shiftRight, Nat.shiftLeft_zero, Int.ofNat_zero, Int.sub_zero,
    zero_sub]
  rfl

/-- The mantissa of a binary32 value has 24 bits. -/
theorem mantissa_lt {f : Float32.Model} {s : Sign} {m : Nat} {e : Int} {h : 0 < m}
    (hu : f.unpack = .finite s m e h) : m < 2 ^ 24 := by
  unfold Float32.Model.unpack UnpackedFloat.unpack at hu
  dsimp only at hu
  split_ifs at hu with h1 h2 h3 h4
  · -- a subnormal mantissa
    rw [UnpackedFloat.finite.injEq] at hu
    rw [← hu.2.1]
    exact (BitVec.isLt _).trans (by decide)
  · rw [UnpackedFloat.finite.injEq] at hu
    rw [← hu.2.1]
    exact (BitVec.isLt _).trans_le (by decide)

/-- A mantissa and an exponent not above those of a normal bound, cut behind the point. -/
theorem cut_le {m n : Nat} {e k : Int} (hm : 2 ^ 23 ≤ m) (hn : n < 2 ^ 24) (he : e ≤ 0)
    (hle : k < e ∨ k = e ∧ n ≤ m) : n / 2 ^ (-k).toNat ≤ m / 2 ^ (-e).toNat := by
  obtain hlt | ⟨rfl, hnm⟩ := hle
  · have hstep : (-k).toNat = (-e).toNat + 1 + ((-k).toNat - (-e).toNat - 1) := by omega
    have hhalf : n / 2 ≤ m := by omega
    calc n / 2 ^ (-k).toNat
        ≤ n / 2 ^ ((-e).toNat + 1) :=
          Nat.div_le_div_left (Nat.pow_le_pow_right (by decide) (by omega)) (by positivity)
      _ = n / 2 / 2 ^ (-e).toNat := by rw [Nat.div_div_eq_div_mul, Nat.pow_succ, Nat.mul_comm]
      _ ≤ m / 2 ^ (-e).toNat := Nat.div_le_div_right hhalf
  · exact Nat.div_le_div_right hnm

/-- The place of a value in the order, NaN left out: sign and size, exponent, mantissa. -/
def place : UnpackedFloat → ℤ ×ₗ ℤ ×ₗ ℤ
  | .notANumber => toLex (0, toLex (0, 0))
  | .infinity .negative => toLex (-2, toLex (0, 0))
  | .finite .negative m e _ => toLex (-1, toLex (-e, -m))
  | .zero _ => toLex (0, toLex (0, 0))
  | .finite .positive m e _ => toLex (1, toLex (e, m))
  | .infinity .positive => toLex (2, toLex (0, 0))

theorem compare_eq_lt {a b : UnpackedFloat} : a.compare b = some .lt ↔
    a ≠ .notANumber ∧ b ≠ .notANumber ∧ place a < place b := by
  have hsign : compare Sign.negative Sign.positive = .lt ∧
      compare Sign.positive Sign.negative = .gt := ⟨rfl, rfl⟩
  obtain (_ | _) | _ | s | ⟨(_ | _), m, e, h⟩ := a <;>
    obtain (_ | _) | _ | t | ⟨(_ | _), n, k, h'⟩ := b <;>
      simp [place, UnpackedFloat.compare, Prod.Lex.lt_iff, Ordering.then_eq_lt, hsign,
        Int.compare_eq_lt, Nat.compare_eq_lt, Ordering.swap_then, Int.compare_swap,
        Nat.compare_swap]
  -- exponents and mantissas of two values of one sign
  all_goals omega

theorem lt_iff {x y : Float32} : x < y ↔ x.toModel.unpack ≠ .notANumber ∧
    y.toModel.unpack ≠ .notANumber ∧ place x.toModel.unpack < place y.toModel.unpack := by
  have hlt : x < y ↔ (x.toModel.unpack.compare y.toModel.unpack == some .lt) = true :=
    ⟨fun h => of_decide_eq_true h, fun h => decide_eq_true h⟩
  rw [hlt, beq_iff_eq, compare_eq_lt]

/-- The order of floats is asymmetric. -/
theorem lt_asymm {x y : Float32} (h : x < y) : ¬ y < x := fun h' =>
  (lt_iff.mp h).2.2.asymm (lt_iff.mp h').2.2

/-- The order of floats is transitive. -/
theorem lt_trans {x y z : Float32} (h : x < y) (h' : y < z) : x < z := by
  obtain ⟨hx, -, hxy⟩ := lt_iff.mp h
  obtain ⟨-, hz, hyz⟩ := lt_iff.mp h'
  exact lt_iff.mpr ⟨hx, hz, hxy.trans hyz⟩

theorem toNat_ofNatClamp_le {k : Int} {n : Nat} (hk : k ≤ n) :
    (UInt8.ofNatClamp k.toNat).toNat ≤ n := by
  have hsize : UInt8.size = 256 := rfl
  unfold UInt8.ofNatClamp
  split
  · rw [UInt8.toNat_ofNatLT]
    omega
  · rw [UInt8.toNat_ofNatLT]
    omega

/-- **A value that is not above `c` truncates to no more than the integer part of `c`.** -/
theorem toUInt8_le {c x : Float32} {m : Nat} {e : Int} {h : 0 < m}
    (hc : c.toModel.unpack = .finite .positive m e h) (hm : 2 ^ 23 ≤ m) (he : e ≤ 0)
    (hx : ¬ c < x) : x.toUInt8.toNat ≤ m / 2 ^ (-e).toNat := by
  have hx' : ¬ (c.toModel.unpack.compare x.toModel.unpack == some .lt) = true := by
    intro hlt
    exact hx (decide_eq_true hlt)
  refine toNat_ofNatClamp_le ?_
  rw [hc] at hx'
  cases hu : x.toModel.unpack with
  | notANumber => exact Int.natCast_nonneg _
  | zero s => exact Int.natCast_nonneg _
  | infinity s =>
    cases s with
    | negative => exact Int.natCast_nonneg _
    | positive =>
      rw [hu] at hx'
      exact absurd rfl hx'
  | finite s n k hn =>
    cases s with
    | negative =>
      exact (Int.neg_nonpos_of_nonneg (Int.natCast_nonneg _)).trans (Int.natCast_nonneg _)
    | positive =>
      rw [hu] at hx'
      have hlex : k < e ∨ k = e ∧ n ≤ m := by
        by_contra hnot
        refine hx' ?_
        have hthen : (Ord.compare e k).then (Ord.compare m n) = .lt := by
          obtain hek | rfl | hek := lt_trichotomy e k
          · rw [Int.compare_eq_lt.mpr hek]
            rfl
          · have hmn : m < n := by omega
            rw [Int.compare_eq_eq.mpr rfl, Nat.compare_eq_lt.mpr hmn]
            rfl
          · exact absurd (Or.inl hek) hnot
        unfold UnpackedFloat.compare
        rw [hthen]
        rfl
      have hk : k ≤ 0 := by omega
      have hcut := cut_le hm (mantissa_lt hu) he hlex
      unfold UnpackedFloat.toInt
      dsimp only
      rw [roundToInt_positive n hk]
      exact Int.ofNat_le.mpr hcut

end Float32
