import OpenALE.Library.Binary64
import OpenALE.Library.Strtod

/-!
# Six significant digits

What `printf("%g")` writes of a positive number: six significant digits without the zeros behind
them, in plain notation for exponents from -4 to 5 and with an exponent otherwise.

Results:
* `six_of_near`: a number that is very near to one of six digits rounds to it.
* `strtod_formatG`: what is written is read as the rounded number.
-/

namespace FormatG

open Strtod Binary64

variable {a q : ℚ} {ds : List Char}

/-- The number rounded to six digits, in units of the sixth. -/
def six (a : ℚ) : ℕ := (nearest (a / 10 ^ (Int.log 10 a - 5))).toNat

/-- The number that six digits leave. -/
def rounded (a : ℚ) : ℚ := six a * 10 ^ (Int.log 10 a - 5)

/-- The six digits and the exponent of the first of them. -/
def scientific (a : ℚ) : ℕ × ℤ :=
  if six a = 10 ^ 6 then (10 ^ 5, Int.log 10 a + 1) else (six a, Int.log 10 a)

/-- The zeros at the end go. -/
def strip (ds : List Char) : List Char := ds.rdropWhile fun c => c = '0'

/-- A point before the digits that are left, if any are. -/
def withPoint (int frac : List Char) : List Char :=
  if strip frac = [] then int else int ++ '.' :: strip frac

/-- `e`, a sign and at least two digits. -/
def exponentText (e : ℤ) : List Char :=
  'e' :: (if e < 0 then '-' else '+') :: Decimal.pad e.natAbs 2

/-- `%g` of a positive number. -/
def formatG (a : ℚ) : List Char :=
  let (m, e) := scientific a
  let ds := Decimal.digits m
  if -4 ≤ e ∧ e < 6 then
    if 0 ≤ e then withPoint (ds.take (e + 1).toNat) (ds.drop (e + 1).toNat)
    else withPoint ['0'] (List.replicate (-e - 1).toNat '0' ++ ds)
  else withPoint (ds.take 1) (ds.drop 1) ++ exponentText e

/-! ## Rounding -/

theorem ten_zpow_pos (k : ℤ) : (0 : ℚ) < 10 ^ k := by positivity

/-- Between powers of ten. -/
theorem log_bounds (h : 0 < a) :
    (10 : ℚ) ^ Int.log 10 a ≤ a ∧ a < 10 ^ (Int.log 10 a + 1) := by
  have hlow : ((10 : ℕ) : ℚ) ^ Int.log 10 a ≤ a := Int.zpow_log_le_self (by decide) h
  have hhigh : a < ((10 : ℕ) : ℚ) ^ (Int.log 10 a + 1) := Int.lt_zpow_succ_log_self (by decide) a
  exact ⟨by exact_mod_cast hlow, by exact_mod_cast hhigh⟩

theorem log_eq {e : ℤ} (h : (10 : ℚ) ^ e ≤ a) (h' : a < 10 ^ (e + 1)) : Int.log 10 a = e := by
  have hpos : 0 < a := (ten_zpow_pos e).trans_le h
  have hlow : e ≤ Int.log 10 a := (Int.zpow_le_iff_le_log (by decide) hpos).mp (by exact_mod_cast h)
  have hhigh : Int.log 10 a < e + 1 :=
    (Int.lt_zpow_iff_log_lt (by decide) hpos).mp (by exact_mod_cast h')
  omega

theorem ten_zpow_add (k : ℤ) (n : ℕ) : (10 : ℚ) ^ (k + n) = 10 ^ n * 10 ^ k := by
  rw [zpow_add₀ (by norm_num), zpow_natCast, mul_comm]

/-- In units of its sixth digit a number is one of six digits. -/
theorem div_bounds (h : 0 < a) :
    10 ^ 5 ≤ a / 10 ^ (Int.log 10 a - 5) ∧ a / 10 ^ (Int.log 10 a - 5) < 10 ^ 6 := by
  obtain ⟨hlow, hhigh⟩ := log_bounds h
  have hsplit : (10 : ℚ) ^ Int.log 10 a = 10 ^ 5 * 10 ^ (Int.log 10 a - 5) := by
    rw [← ten_zpow_add]
    congr 1
    ring
  have hsplit' : (10 : ℚ) ^ (Int.log 10 a + 1) = 10 ^ 6 * 10 ^ (Int.log 10 a - 5) := by
    rw [← ten_zpow_add]
    congr 1
    ring
  rw [le_div_iff₀ (ten_zpow_pos _), div_lt_iff₀ (ten_zpow_pos _)]
  exact ⟨hsplit ▸ hlow, hsplit' ▸ hhigh⟩

theorem six_bounds (h : 0 < a) : 10 ^ 5 ≤ six a ∧ six a ≤ 10 ^ 6 := by
  obtain ⟨hlow, hhigh⟩ := div_bounds h
  have hfloor : (10 ^ 5 : ℤ) ≤ ⌊a / 10 ^ (Int.log 10 a - 5)⌋ := Int.le_floor.mpr (by exact_mod_cast hlow)
  have hnearest : (10 ^ 5 : ℤ) ≤ nearest (a / 10 ^ (Int.log 10 a - 5)) := by
    unfold nearest
    dsimp only
    split_ifs <;> omega
  have hle : nearest (a / 10 ^ (Int.log 10 a - 5)) ≤ (10 ^ 6 : ℤ) :=
    nearest_le (by exact_mod_cast hhigh)
  unfold six
  omega

/-- What six digits leave is a number of six digits. -/
theorem rounded_eq (h : 0 < a) : ∃ (m : ℕ) (k : ℤ), m < 10 ^ 6 ∧ rounded a = m * 10 ^ k := by
  obtain ⟨hlow, hhigh⟩ := six_bounds h
  by_cases hcarry : six a = 10 ^ 6
  · refine ⟨1, Int.log 10 a + 1, by decide, ?_⟩
    have hsplit : (10 : ℚ) ^ (Int.log 10 a + 1) = 10 ^ 6 * 10 ^ (Int.log 10 a - 5) := by
      rw [← ten_zpow_add]
      congr 1
      ring
    rw [rounded, hcarry, hsplit]
    norm_num
  · exact ⟨six a, Int.log 10 a - 5, by omega, rfl⟩

theorem rounded_scientific (a : ℚ) :
    rounded a = (scientific a).1 * 10 ^ ((scientific a).2 - 5) := by
  unfold scientific
  split_ifs with hcarry
  · have hsplit : (10 : ℚ) ^ (Int.log 10 a + 1 - 5) = 10 * 10 ^ (Int.log 10 a - 5) := by
      have hadd := ten_zpow_add (Int.log 10 a - 5) 1
      rw [pow_one] at hadd
      rw [← hadd]
      congr 1
      push_cast
      ring
    rw [rounded, hcarry, hsplit]
    push_cast
    ring
  · rfl

theorem scientific_bounds (h : 0 < a) : 10 ^ 5 ≤ (scientific a).1 ∧ (scientific a).1 < 10 ^ 6 := by
  obtain ⟨hlow, hhigh⟩ := six_bounds h
  unfold scientific
  split_ifs with hcarry
  · exact ⟨le_rfl, by norm_num⟩
  · exact ⟨hlow, hhigh.lt_of_ne hcarry⟩

/-- A number of six digits is a multiple of its sixth digit's unit. -/
theorem multiple_of_six {m : ℕ} {k : ℤ} (hq : q = m * 10 ^ k) (hm : m < 10 ^ 6) (hpos : 0 < q) :
    ∃ n : ℕ, q = n * 10 ^ (Int.log 10 q - 5) := by
  have hlog : Int.log 10 q < k + 6 := by
    refine (Int.lt_zpow_iff_log_lt (by decide) hpos).mp ?_
    have hsplit := ten_zpow_add k 6
    have hm' : (m : ℚ) < 10 ^ 6 := by exact_mod_cast hm
    push_cast at hsplit ⊢
    rw [hsplit, hq]
    exact mul_lt_mul_of_pos_right hm' (ten_zpow_pos k)
  obtain ⟨j, hj⟩ := Int.eq_ofNat_of_zero_le (show 0 ≤ k - (Int.log 10 q - 5) by omega)
  have hsplit := ten_zpow_add (Int.log 10 q - 5) j
  refine ⟨m * 10 ^ j, ?_⟩
  push_cast
  rw [mul_assoc, ← hsplit]
  have hk : Int.log 10 q - 5 + j = k := by omega
  rw [hk]
  exact hq

/-- What is very near to a multiple of a unit rounds to it. -/
theorem nearest_mul_eq {n : ℕ} {u : ℚ} (hu : 0 < u) (hn : n ≤ 10 ^ 6)
    (hnear : |a - n * u| ≤ n * u / 2 ^ 53) : nearest (a / u) = n := by
  refine nearest_eq ?_
  have hdiff : a / u - (n : ℤ) = (a - n * u) / u := by
    rw [sub_div, mul_div_assoc, div_self hu.ne', mul_one]
    rfl
  have hn' : (n : ℚ) ≤ 10 ^ 6 := by exact_mod_cast hn
  rw [hdiff, abs_div, abs_of_pos hu, div_lt_iff₀ hu]
  calc |a - n * u| ≤ n * u / 2 ^ 53 := hnear
    _ = n / 2 ^ 53 * u := by ring
    _ < 1 / 2 * u := by
      refine mul_lt_mul_of_pos_right ?_ hu
      rw [div_lt_iff₀ (by norm_num)]
      linarith

/-- **A number very near to one of six digits** rounds to it. -/
theorem six_of_near {m : ℕ} {k : ℤ} (hq : q = m * 10 ^ k) (hm : m < 10 ^ 6) (hpos : 0 < q)
    (hnear : |a - q| ≤ q / 2 ^ 53) : rounded a = q := by
  obtain ⟨n, hn⟩ := multiple_of_six hq hm hpos
  obtain ⟨hlow, hhigh⟩ := div_bounds hpos
  set e := Int.log 10 q with he
  set u : ℚ := 10 ^ (e - 5) with hu
  have hupos : 0 < u := ten_zpow_pos _
  have hdiv : q / u = n := by
    rw [hn, mul_div_assoc, div_self hupos.ne', mul_one]
  rw [hdiv] at hlow hhigh
  have hn5 : 10 ^ 5 ≤ n := by exact_mod_cast hlow
  have hn6 : n < 10 ^ 6 := by exact_mod_cast hhigh
  obtain ⟨hbelow, habove⟩ := abs_le.mp hnear
  have hn6' : (n : ℚ) + 1 ≤ 10 ^ 6 := by exact_mod_cast hn6
  have hupper : a < 10 ^ (e + 1) := by
    have hsplit : (10 : ℚ) ^ (e + 1) = 10 ^ 6 * u := by
      rw [hu, ← ten_zpow_add]
      congr 1
      ring
    rw [hsplit]
    nlinarith
  obtain hn5eq | hn5lt := hn5.eq_or_lt
  · -- a power of ten, from which the number may be just below
    have hq5 : q = 10 ^ 5 * u := by
      rw [hn, ← hn5eq]
      norm_num
    have hpow : (10 : ℚ) ^ e = q := by
      rw [hq5, hu, ← ten_zpow_add]
      congr 1
      ring
    obtain hlt | hge := lt_or_ge a q
    · have hlog : Int.log 10 a = e - 1 := by
        refine log_eq ?_ (by rw [sub_add_cancel, hpow]; exact hlt)
        have hsplit : (10 : ℚ) ^ e = 10 * 10 ^ (e - 1) := by
          have hadd := ten_zpow_add (e - 1) 1
          push_cast at hadd
          rw [sub_add_cancel, pow_one] at hadd
          exact hadd
        rw [← hpow, hsplit] at hbelow
        have hpos' := ten_zpow_pos (e - 1)
        linarith
      have hunit : u = 10 * 10 ^ (Int.log 10 a - 5) := by
        have hadd := ten_zpow_add (e - 1 - 5) 1
        rw [pow_one] at hadd
        rw [hlog, hu, ← hadd]
        congr 1
        push_cast
        ring
      have hmultiple : q = (10 ^ 6 : ℕ) * 10 ^ (Int.log 10 a - 5) := by
        rw [hq5, hunit]
        push_cast
        ring
      have hsix := @nearest_mul_eq a (10 ^ 6) _ (ten_zpow_pos (Int.log 10 a - 5)) le_rfl
        (hmultiple ▸ hnear)
      rw [rounded, six, hsix]
      exact hmultiple.symm
    · have hlog : Int.log 10 a = e := log_eq (hpow ▸ hge) hupper
      have hsix := @nearest_mul_eq a n u hupos hn6.le (hn ▸ hnear)
      rw [rounded, six, hlog, hsix]
      exact hn.symm
  · have hlower : (10 : ℚ) ^ e ≤ a := by
      have hsplit : (10 : ℚ) ^ e = 10 ^ 5 * u := by
        rw [hu, ← ten_zpow_add]
        congr 1
        ring
      have hn5' : (10 : ℚ) ^ 5 + 1 ≤ n := by exact_mod_cast hn5lt
      rw [hsplit]
      nlinarith
    have hlog : Int.log 10 a = e := log_eq hlower hupper
    have hsix := @nearest_mul_eq a n u hupos hn6.le (hn ▸ hnear)
    rw [rounded, six, hlog, hsix]
    exact hn.symm

/-! ## What is written -/

theorem foldl_shift (ds : List Char) (acc : ℕ) :
    ds.foldl Decimal.shift acc = acc * 10 ^ ds.length + Decimal.value ds := by
  induction ds using List.reverseRecOn with
  | nil => simp [Decimal.value]
  | append_singleton ds d ih =>
    have hvalue : Decimal.value (ds ++ [d]) = Decimal.shift (Decimal.value ds) d := by
      rw [Decimal.value, List.foldl_append]
      rfl
    rw [List.foldl_append, List.foldl_cons, List.foldl_nil, ih, hvalue, List.length_append,
      Decimal.shift, Decimal.shift, List.length_singleton, pow_succ]
    ring

theorem value_append (ds ds' : List Char) : Decimal.value (ds ++ ds') =
    Decimal.value ds * 10 ^ ds'.length + Decimal.value ds' := by
  rw [Decimal.value, List.foldl_append, foldl_shift]
  rfl

theorem value_zeros (k : ℕ) : Decimal.value (List.replicate k '0') = 0 := by
  induction k with
  | zero => rfl
  | succ k ih =>
    rw [List.replicate_succ, Decimal.value, List.foldl_cons]
    exact ih

theorem strip_append (ds : List Char) : ∃ k, ds = strip ds ++ List.replicate k '0' := by
  induction ds using List.reverseRecOn with
  | nil => exact ⟨0, rfl⟩
  | append_singleton ds d ih =>
    by_cases hd : d = '0'
    · obtain ⟨k, hk⟩ := ih
      refine ⟨k + 1, ?_⟩
      rw [strip, List.rdropWhile_concat_pos _ _ _ (by simpa using hd), List.replicate_succ',
        ← List.append_assoc]
      have hds : ds = List.rdropWhile (fun c => decide (c = '0')) ds ++ List.replicate k '0' := hk
      rw [← hds, hd]
    · exact ⟨0, by rw [strip, List.rdropWhile_concat_neg _ _ _ (by simpa using hd)]; simp⟩

/-- The digits of a numeral without and with the zeros behind its fraction say the same. -/
theorem fixed_strip (int frac : List Char) : fixed int (strip frac) = fixed int frac := by
  obtain ⟨k, hk⟩ := strip_append frac
  have hpow : (10 : ℚ) ^ (-((strip frac).length : ℤ)) = 10 ^ k * 10 ^ (-(frac.length : ℤ)) := by
    have hlen : frac.length = (strip frac).length + k := by
      conv_lhs => rw [hk, List.length_append, List.length_replicate]
    rw [← ten_zpow_add, hlen]
    congr 1
    push_cast
    ring
  have hvalue : Decimal.value (int ++ frac) = Decimal.value (int ++ strip frac) * 10 ^ k := by
    conv_lhs => rw [hk, ← List.append_assoc, value_append, value_zeros, List.length_replicate,
      Nat.add_zero]
  rw [fixed, fixed, hvalue, hpow]
  push_cast
  ring

theorem mem_strip {c : Char} (h : c ∈ strip ds) : c ∈ ds :=
  (List.rdropWhile_prefix _ _).subset h

/-- What is read of digits with a point, if there is a fraction. -/
theorem decimal_withPoint {int frac rest : List Char} (hint : ∀ c ∈ int, c.isDigit = true)
    (hne : int ≠ []) (hfrac : ∀ c ∈ frac, c.isDigit = true)
    (hrest : ∀ c ∈ rest.head?, c.isDigit = false ∧ c ≠ '.') :
    decimal (withPoint int frac ++ rest) =
      some (fixed int frac * 10 ^ exponent 'e' 'E' rest) := by
  have hstrip : ∀ c ∈ strip frac, c.isDigit = true := fun c hc => hfrac c (mem_strip hc)
  unfold withPoint
  split_ifs with hnil
  · rw [decimal_digits hint hne hrest, ← fixed_strip int frac, hnil, fixed, List.append_nil]
    simp
  · rw [List.append_assoc, List.cons_append,
      decimal_point hint hne hstrip fun c hc => (hrest c hc).1, fixed_strip]

theorem exponent_exponentText (e : ℤ) : exponent 'e' 'E' (exponentText e) = e := by
  have hall : ∀ c ∈ Decimal.pad e.natAbs 2, c.isDigit = true := fun c => Decimal.isDigit_of_mem_pad
  have htake : (Decimal.pad e.natAbs 2).takeWhile Char.isDigit = Decimal.pad e.natAbs 2 :=
    List.takeWhile_eq_self_iff.mpr hall
  have hminus (u : List Char) :
      exponent 'e' 'E' ('e' :: '-' :: u) = -Decimal.value (u.takeWhile Char.isDigit) := rfl
  have hplus (u : List Char) :
      exponent 'e' 'E' ('e' :: '+' :: u) = Decimal.value (u.takeWhile Char.isDigit) := rfl
  unfold exponentText
  split_ifs with hneg
  · rw [hminus, htake, Decimal.value_pad]
    omega
  · rw [hplus, htake, Decimal.value_pad]
    omega

/-- The parts of what is written. -/
structure Shape (text : List Char) (q : ℚ) (int frac rest : List Char) : Prop where
  parts : text = withPoint int frac ++ rest
  isDigit : ∀ c ∈ int, c.isDigit = true
  ne_nil : int ≠ []
  isDigit' : ∀ c ∈ frac, c.isDigit = true
  ends : rest = [] ∨ ∃ e, rest = exponentText e
  value : fixed int frac * 10 ^ exponent 'e' 'E' rest = q

theorem fixed_take_drop (ds : List Char) (k : ℕ) :
    fixed (ds.take k) (ds.drop k) = Decimal.value ds * 10 ^ (-((ds.length - k : ℕ) : ℤ)) := by
  rw [fixed, List.take_append_drop, List.length_drop]

/-- **What is written** is the rounded number. -/
theorem shape_formatG (h : 0 < a) : ∃ int frac rest, Shape (formatG a) (rounded a) int frac rest := by
  obtain ⟨hlow, hhigh⟩ := scientific_bounds h
  have hrounded := rounded_scientific a
  set m := (scientific a).1 with hm
  set e := (scientific a).2 with he
  have hlen : (Decimal.digits m).length = 6 := by
    have hle := (Decimal.length_digits_le (n := m) (by decide : 0 < 6)).mpr hhigh
    have hgt := mt (Decimal.length_digits_le (n := m) (by decide : 0 < 5)).mp (by omega)
    omega
  have hdigits : ∀ c ∈ Decimal.digits m, c.isDigit = true := fun c => Decimal.isDigit_of_mem
  have hnone : exponent 'e' 'E' [] = 0 := rfl
  have hformat : formatG a = if -4 ≤ e ∧ e < 6 then
      if 0 ≤ e then withPoint ((Decimal.digits m).take (e + 1).toNat)
        ((Decimal.digits m).drop (e + 1).toNat)
      else withPoint ['0'] (List.replicate (-e - 1).toNat '0' ++ Decimal.digits m)
    else withPoint ((Decimal.digits m).take 1) ((Decimal.digits m).drop 1) ++ exponentText e := rfl
  rw [hformat]
  split_ifs with hplain hpoint
  · refine ⟨_, _, [], (List.append_nil _).symm, fun c hc => hdigits c (List.mem_of_mem_take hc), ?_,
      fun c hc => hdigits c (List.mem_of_mem_drop hc), .inl rfl, ?_⟩
    · refine List.ne_nil_of_length_pos ?_
      rw [List.length_take, hlen]
      omega
    · rw [hnone, zpow_zero, mul_one, fixed_take_drop, Decimal.value_digits, hlen, hrounded]
      congr 2
      omega
  · refine ⟨['0'], _, [], (List.append_nil _).symm, fun c hc => ?_, List.cons_ne_nil _ _,
      fun c hc => ?_, .inl rfl, ?_⟩
    · rw [List.mem_singleton.mp hc]
      rfl
    · obtain hc | hc := List.mem_append.mp hc
      · rw [List.eq_of_mem_replicate hc]
        decide
      · exact hdigits c hc
    · have hzeros : Decimal.value (['0'] ++ (List.replicate (-e - 1).toNat '0' ++ Decimal.digits m)) =
          m := by
        rw [← List.append_assoc, value_append, Decimal.value_digits, ← List.replicate_one,
          ← List.replicate_add, value_zeros, Nat.zero_mul, Nat.zero_add]
      rw [hnone, zpow_zero, mul_one, fixed, hzeros, List.length_append, List.length_replicate, hlen,
        hrounded]
      congr 2
      omega
  · refine ⟨_, _, exponentText e, rfl, fun c hc => hdigits c (List.mem_of_mem_take hc), ?_,
      fun c hc => hdigits c (List.mem_of_mem_drop hc), .inr ⟨e, rfl⟩, ?_⟩
    · refine List.ne_nil_of_length_pos ?_
      rw [List.length_take, hlen]
      decide
    · rw [exponent_exponentText, fixed_take_drop, Decimal.value_digits, hlen, hrounded, mul_assoc,
        ← zpow_add₀ (by norm_num)]
      congr 2
      push_cast
      ring

variable {text int frac rest : List Char}

theorem Shape.head_rest (h : Shape text q int frac rest) :
    ∀ c ∈ rest.head?, c = 'e' := by
  intro c hc
  obtain hnil | ⟨e, he⟩ := h.ends
  · rw [hnil] at hc
    cases hc
  · rw [he] at hc
    exact (Option.some.inj hc).symm

/-- **What is written is read.** -/
theorem Shape.magnitude (h : Shape text q int frac rest) :
    magnitude text = some (.finite q) ∧ ∃ c s, text = c :: s ∧ c.isDigit = true := by
  have hrest : ∀ c ∈ rest.head?, c.isDigit = false ∧ c ≠ '.' := by
    intro c hc
    rw [h.head_rest c hc]
    decide
  have hdecimal := decimal_withPoint h.isDigit h.ne_nil h.isDigit' hrest
  rw [← h.parts, h.value] at hdecimal
  obtain ⟨c, cs, rfl⟩ := List.exists_cons_of_ne_nil h.ne_nil
  have hdigits := List.forall_mem_cons.mp h.isDigit
  have htext : ∃ s, text = c :: s ∧ ∀ x ∈ s.head?, x.isDigit = true ∨ x = '.' ∨ x = 'e' := by
    have hparts := h.parts
    unfold withPoint at hparts
    split_ifs at hparts
    · refine ⟨cs ++ rest, hparts, fun x hx => ?_⟩
      cases cs with
      | nil => exact .inr (.inr (h.head_rest x hx))
      | cons d ds => exact .inl (hdigits.2 x (List.mem_of_mem_head? hx))
    · refine ⟨cs ++ '.' :: strip frac ++ rest, hparts, fun x hx => ?_⟩
      cases cs with
      | nil => exact .inr (.inl (Option.some.inj hx).symm)
      | cons d ds =>
        obtain rfl := Option.some.inj hx
        exact .inl (hdigits.2 d List.mem_cons_self)
  obtain ⟨s, hs, hnext⟩ := htext
  rw [hs] at hdecimal ⊢
  refine ⟨?_, c, s, rfl, hdigits.1⟩
  rw [magnitude_of_digit hdigits.1 fun x hx => toLower_ne_x (hnext x hx), hdecimal]
  rfl

/-- **What is written** is read as the rounded number, behind a minus and without one. -/
theorem strtod_formatG (h : 0 < a) :
    strtod (formatG a) = some (false, .finite (rounded a)) ∧
      strtod ('-' :: formatG a) = some (true, .finite (rounded a)) := by
  obtain ⟨int, frac, rest, hshape⟩ := shape_formatG h
  obtain ⟨hmagnitude, c, s, hs, hc⟩ := hshape.magnitude
  rw [strtod_minus, hmagnitude]
  refine ⟨?_, rfl⟩
  rw [hs] at hmagnitude ⊢
  rw [strtod_of_digit hc, hmagnitude]
  rfl

/-- The characters that are written. -/
theorem mem_formatG (h : 0 < a) {c : Char} (hc : c ∈ formatG a) :
    c.isDigit = true ∨ c = '.' ∨ c = 'e' ∨ c = '+' ∨ c = '-' := by
  obtain ⟨int, frac, rest, hshape⟩ := shape_formatG h
  rw [hshape.parts] at hc
  obtain hc | hc := List.mem_append.mp hc
  · unfold withPoint at hc
    split_ifs at hc
    · exact .inl (hshape.isDigit c hc)
    · obtain hc | hc := List.mem_append.mp hc
      · exact .inl (hshape.isDigit c hc)
      · obtain rfl | hc := List.mem_cons.mp hc
        · exact .inr (.inl rfl)
        · exact .inl (hshape.isDigit' c (mem_strip hc))
  · obtain hnil | ⟨e, he⟩ := hshape.ends
    · rw [hnil] at hc
      cases hc
    · rw [he, exponentText] at hc
      obtain rfl | hc := List.mem_cons.mp hc
      · exact .inr (.inr (.inl rfl))
      · obtain hsign | hc := List.mem_cons.mp hc
        · split_ifs at hsign
          · exact .inr (.inr (.inr (.inr hsign)))
          · exact .inr (.inr (.inr (.inl hsign)))
        · exact .inl (Decimal.isDigit_of_mem_pad hc)

end FormatG
