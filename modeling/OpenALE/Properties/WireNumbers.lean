import OpenALE.Bridge.MiniJson

/-!
# Numbers on the wire

An integer in the range of `long long` is written with all its digits, any other number with six:
it comes back if it is the double next to a decimal of six digits.

Results:
* `readBack_iff`: the numbers that come back.
-/

namespace OpenALE.MiniJson

open Binary64

variable {x : ℚ} {n : ℤ} {d : Double} {text : Str}

/-- What a number is read as after it was written. -/
def readBack (d : Double) : Option Double := (dumpNumber d).bind (Strtod.stod doubles)

/-- A number that comes back: in the range of the cast, and an integer or next to a decimal of six
digits that is not below the normal numbers. -/
def Survives (d : Double) : Prop :=
  ∃ x h, d = .finite x h ∧ (-2 ^ 63 ≤ truncate x ∧ truncate x < 2 ^ 63) ∧
    ((∃ n : ℤ, x = n) ∨
      ∃ (m : ℕ) (k : ℤ), m < 10 ^ 6 ∧ 2 ^ (-1022 : ℤ) ≤ (m * 10 ^ k : ℚ) ∧ |x| = rnd (m * 10 ^ k))

/-! ## Integers -/

theorem truncate_intCast (n : ℤ) : truncate n = n := by
  unfold truncate
  rw [← Int.cast_neg, Int.floor_intCast, Int.floor_intCast, neg_neg, ite_self]

theorem natAbs_abs (n : ℤ) : |(n : ℚ)| = n.natAbs := by
  rw [Nat.cast_natAbs, Int.cast_abs]

/-- The cast to `long long` and back keeps the integers among the doubles, and no others. -/
theorem eq_toDouble_iff (h : IsDouble x) : x = toDouble (truncate x) ↔ ∃ n : ℤ, x = n := by
  constructor
  · intro heq
    obtain ⟨m, hm⟩ := rnd_natCast (truncate x).natAbs
    unfold toDouble at heq
    rw [hm] at heq
    split_ifs at heq
    · exact ⟨-m, by rw [heq]; push_cast; rfl⟩
    · exact ⟨m, by rw [heq]; push_cast; rfl⟩
  · rintro ⟨n, rfl⟩
    have hstays : rnd (n.natAbs : ℚ) = n.natAbs := by
      have h1 := h.1
      rwa [natAbs_abs] at h1
    rw [truncate_intCast, toDouble, hstays]
    split_ifs with hneg
    · have hcast : (n : ℚ) = -((n.natAbs : ℤ) : ℚ) := by
        rw [← Int.cast_neg]
        congr 1
        omega
      rw [hcast, Int.cast_natCast]
    · have hcast : (n : ℚ) = ((n.natAbs : ℤ) : ℚ) := by
        congr 1
        omega
      rw [hcast, Int.cast_natCast]

/-- A magnitude with its sign. -/
theorem stod_of_sign {q : ℚ} {negative : Bool}
    (h : Strtod.strtod text = some (negative, .finite q)) : Strtod.stod doubles text =
      if inRange q then some (if negative then (Double.ofRat q).neg else Double.ofRat q) else none :=
  Strtod.stod_of_magnitude h

/-- The double of a magnitude that rounds to `|x|`, with the sign of `x`. -/
theorem ofRat_eq_iff (h : IsDouble x) {q : ℚ} (hq : 0 ≤ q) (hlt : rnd q < limit) :
    (if decide (x < 0) = true then (Double.ofRat q).neg else Double.ofRat q) = .finite x h ↔
      |x| = rnd q := by
  have hof : Double.ofRat q = .finite (rnd |q|) (isDouble_rnd (by rwa [abs_of_nonneg hq])) := by
    rw [Double.ofRat, dif_pos (by rwa [abs_of_nonneg hq])]
  have hnonneg := rnd_nonneg hq
  rw [hof]
  by_cases hneg : x < 0
  · rw [if_pos (decide_eq_true hneg), Double.neg, Double.finite.injEq, abs_of_nonneg hq,
      abs_of_neg hneg]
    constructor <;> intro heq <;> linarith
  · rw [if_neg (mt of_decide_eq_true hneg), Double.finite.injEq, abs_of_nonneg hq,
      abs_of_nonneg (not_lt.mp hneg)]
    exact eq_comm

theorem inRange_iff {q : ℚ} : inRange q = true ↔ q = 0 ∨ 2 ^ (-1022 : ℤ) ≤ q ∧ rnd q < limit := by
  rw [inRange, Bool.or_eq_true, Bool.and_eq_true, decide_eq_true_eq, decide_eq_true_eq,
    decide_eq_true_eq]

theorem one_le_normal {m : ℕ} (h : 0 < m) : (2 : ℚ) ^ (-1022 : ℤ) ≤ m := by
  have hone : (1 : ℚ) ≤ m := by exact_mod_cast h
  exact (zpow_le_one_of_nonpos₀ (by norm_num) (by norm_num)).trans hone

/-- **An integer comes back.** -/
theorem stod_toText (h : IsDouble n) :
    Strtod.stod doubles (toText n) = some (.finite n h) := by
  obtain ⟨hstays, hlt⟩ := id h
  rw [natAbs_abs] at hstays hlt
  have hstrtod : Strtod.strtod (toText n) = some (decide ((n : ℚ) < 0), .finite (n.natAbs : ℚ)) := by
    have hmagnitude := Strtod.magnitude_digits (fun c => @Decimal.isDigit_of_mem n.natAbs c)
      (Decimal.digits_ne_nil n.natAbs)
    rw [Decimal.value_digits] at hmagnitude
    have hsign : decide ((n : ℚ) < 0) = decide (n < 0) := decide_eq_decide.mpr Int.cast_lt_zero
    rw [hsign]
    unfold toText
    split_ifs with hneg
    · rw [Strtod.strtod_minus, hmagnitude, decide_eq_true hneg]
      rfl
    · obtain ⟨c, s, hs⟩ := List.exists_cons_of_ne_nil (Decimal.digits_ne_nil n.natAbs)
      have hc : c.isDigit = true := @Decimal.isDigit_of_mem n.natAbs c (hs ▸ List.mem_cons_self)
      rw [hs] at hmagnitude ⊢
      rw [Strtod.strtod_of_digit hc, hmagnitude, decide_eq_false hneg]
      rfl
  have hrange : inRange (n.natAbs : ℚ) = true := by
    rw [inRange_iff, hstays]
    obtain hzero | hpos := Nat.eq_zero_or_pos n.natAbs
    · exact .inl (by rw [hzero, Nat.cast_zero])
    · exact .inr ⟨one_le_normal hpos, hlt⟩
  rw [stod_of_sign hstrtod, if_pos hrange]
  congr 1
  rw [ofRat_eq_iff h (Nat.cast_nonneg _) (by rwa [hstays]), hstays, natAbs_abs]

/-! ## Other numbers -/

theorem strtod_formatG (hx : x ≠ 0) : Strtod.strtod (formatG x) =
    some (decide (x < 0), .finite (FormatG.rounded |x|)) := by
  obtain ⟨hplus, hminus⟩ := FormatG.strtod_formatG (abs_pos.mpr hx)
  unfold formatG
  split_ifs with hneg
  · rw [hminus, decide_eq_true hneg]
  · rw [hplus, decide_eq_false hneg]

theorem rounded_pos (hx : x ≠ 0) : 0 < FormatG.rounded |x| := by
  obtain ⟨hlow, -⟩ := FormatG.six_bounds (abs_pos.mpr hx)
  have hsix : (0 : ℚ) < FormatG.six |x| := by
    have hpos : 0 < FormatG.six |x| := by omega
    exact_mod_cast hpos
  exact mul_pos hsix (FormatG.ten_zpow_pos _)

/-- **A number of six digits comes back**, and no other. -/
theorem stod_formatG_iff (h : IsDouble x) (hx : x ≠ 0) :
    Strtod.stod doubles (formatG x) = some (.finite x h) ↔
      ∃ (m : ℕ) (k : ℤ), m < 10 ^ 6 ∧ 2 ^ (-1022 : ℤ) ≤ (m * 10 ^ k : ℚ) ∧
        |x| = rnd (m * 10 ^ k) := by
  have hpos := rounded_pos hx
  rw [stod_of_sign (strtod_formatG hx)]
  constructor
  · intro heq
    by_cases hrange : inRange (FormatG.rounded |x|) = true
    swap
    · rw [if_neg hrange] at heq
      cases heq
    rw [if_pos hrange] at heq
    obtain hzero | ⟨hnormal, hlt⟩ := inRange_iff.mp hrange
    · exact absurd hzero hpos.ne'
    · have hround := (ofRat_eq_iff h hpos.le hlt).mp (Option.some.inj heq)
      obtain ⟨m, k, hm, hrounded⟩ := FormatG.rounded_eq (abs_pos.mpr hx)
      rw [hrounded] at hnormal hround
      exact ⟨m, k, hm, hnormal, hround⟩
  · rintro ⟨m, k, hm, hnormal, hround⟩
    have hq : (0 : ℚ) < m * 10 ^ k := (two_zpow_pos _).trans_le hnormal
    have hnear : |(|x| - m * 10 ^ k : ℚ)| ≤ m * 10 ^ k / 2 ^ 53 := hround ▸ rnd_near hnormal
    have hrounded := FormatG.six_of_near rfl hm hq hnear
    have hlt : rnd (m * 10 ^ k) < limit := hround ▸ h.2
    rw [hrounded, if_pos (inRange_iff.mpr (.inr ⟨hnormal, hlt⟩))]
    exact congrArg some ((ofRat_eq_iff h hq.le hlt).mpr hround)

/-! ## All numbers -/

/-- **The numbers that come back.** -/
theorem readBack_iff : readBack d = some d ↔ Survives d := by
  cases d with
  | infinite negative => exact iff_of_false (fun h => nomatch h) fun ⟨_, _, h, _⟩ => nomatch h
  | nan => exact iff_of_false (fun h => nomatch h) fun ⟨_, _, h, _⟩ => nomatch h
  | finite x h =>
    have hsurvives : Survives (.finite x h) ↔ (-2 ^ 63 ≤ truncate x ∧ truncate x < 2 ^ 63) ∧
        ((∃ n : ℤ, x = n) ∨ ∃ (m : ℕ) (k : ℤ), m < 10 ^ 6 ∧
          2 ^ (-1022 : ℤ) ≤ (m * 10 ^ k : ℚ) ∧ |x| = rnd (m * 10 ^ k)) := by
      constructor
      · rintro ⟨y, hy, heq, hrest⟩
        obtain rfl := (Double.finite.injEq _ _ _ _).mp heq
        exact hrest
      · exact fun hrest => ⟨x, h, rfl, hrest⟩
    rw [hsurvives, readBack, dumpNumber]
    split_ifs with hcast hint
    · refine iff_of_false (fun h => nomatch h) fun hrest => ?_
      omega
    · obtain ⟨n, rfl⟩ := (eq_toDouble_iff h).mp hint
      rw [truncate_intCast, not_or, not_lt, not_le] at hcast
      rw [truncate_intCast, Option.bind_some, stod_toText h]
      exact iff_of_true rfl ⟨hcast, .inl ⟨n, rfl⟩⟩
    · have hnot : ¬ ∃ n : ℤ, x = n := fun hn => hint ((eq_toDouble_iff h).mpr hn)
      have hx : x ≠ 0 := fun hzero => hnot ⟨0, by rw [hzero, Int.cast_zero]⟩
      rw [not_or, not_lt, not_le] at hcast
      rw [Option.bind_some, stod_formatG_iff h hx, or_iff_right hnot, and_iff_right hcast]

end OpenALE.MiniJson
