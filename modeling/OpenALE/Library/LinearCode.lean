import Mathlib

/-!
# Binary linear codes

Words of `n` bits are natural numbers below `2 ^ n`, added by exclusive or. A systematic code
appends to `k` information bits `r` check bits, which are linear in them. Its decoder looks the
syndrome of a received word up in a table of coset leaders.

Results:
* `weight_xor_le`, `exists_lowest_bit`: the weight, and how a word of given weight is put together.
* `spanTable_xor`: a table made by doubling from a basis is linear.
* `firstTable_sound`, `firstTable_complete`: a table filled on a first-come basis.
* `Leaders.of_light`, `Leaders.of_heavy`: what bounded-distance decoding finds.
-/

namespace LinearCode

/-! ## Weight -/

/-- The number of ones among the low `n` bits. -/
def weight : Nat → Nat → Nat
  | 0, _ => 0
  | n + 1, x => x % 2 + weight n (x / 2)

@[simp] theorem weight_zero (n : Nat) : weight n 0 = 0 := by
  induction n with
  | zero => rfl
  | succ n ih => simp [weight, ih]

theorem weight_xor_le (n x y : Nat) : weight n (x ^^^ y) ≤ weight n x + weight n y := by
  induction n generalizing x y with
  | zero => exact Nat.le_refl _
  | succ n ih =>
    simp only [weight, Nat.xor_div_two]
    have h := ih (x / 2) (y / 2)
    have hb : (x ^^^ y) % 2 ≤ x % 2 + y % 2 := by
      rw [Nat.xor_mod_two_eq]
      omega
    omega

theorem eq_zero_of_weight {n x : Nat} (hx : x < 2 ^ n) (h : weight n x = 0) : x = 0 := by
  induction n generalizing x with
  | zero => simpa using hx
  | succ n ih =>
    simp only [weight] at h
    have hd : x / 2 = 0 := ih (by omega) (by omega)
    omega

theorem xor_self_cancel (x y : Nat) : x ^^^ (x ^^^ y) = y := by
  rw [← Nat.xor_assoc, Nat.xor_self, Nat.zero_xor]

theorem testBit_two_mul_succ (y i : Nat) : (2 * y).testBit (i + 1) = y.testBit i := by
  rw [Nat.testBit_succ, Nat.mul_div_cancel_left y (by decide)]

/-- A word with a one has a lowest one; the rest lies above it. -/
theorem exists_lowest_bit {n w x : Nat} (hx : x < 2 ^ n) (h : weight n x = w + 1) :
    ∃ b y, b < n ∧ y < 2 ^ n ∧ weight n y = w ∧ x = 1 <<< b ||| y ∧ ∀ i ≤ b, y.testBit i = false := by
  induction n generalizing x with
  | zero => exact absurd h (by simp [weight])
  | succ n ih =>
    simp only [weight] at h
    rcases Nat.mod_two_eq_zero_or_one x with h0 | h1
    · obtain ⟨b, y, hb, hy, hw, hxy, hlow⟩ := ih (by omega : x / 2 < 2 ^ n) (by omega)
      refine ⟨b + 1, 2 * y, by omega, by omega, ?_, ?_, fun i hi => ?_⟩
      · simp only [weight]
        rw [Nat.mul_mod_right, Nat.mul_div_cancel_left y (by decide), hw, Nat.zero_add]
      · refine Nat.eq_of_testBit_eq fun i => ?_
        rw [Nat.testBit_or, Nat.one_shiftLeft]
        cases i with
        | zero => simp [Nat.testBit_zero, h0, Nat.pow_succ]
        | succ i =>
          rw [Nat.testBit_succ x, hxy, Nat.testBit_or, Nat.one_shiftLeft, testBit_two_mul_succ]
          simp [Nat.testBit_two_pow]
      · cases i with
        | zero => simp [Nat.testBit_zero]
        | succ i =>
          rw [testBit_two_mul_succ]
          exact hlow i (by omega)
    · refine ⟨0, 2 * (x / 2), by omega, by omega, ?_, ?_, fun i hi => ?_⟩
      · simp only [weight]
        rw [Nat.mul_mod_right, Nat.mul_div_cancel_left _ (by decide)]
        omega
      · refine Nat.eq_of_testBit_eq fun i => ?_
        rw [Nat.testBit_or, Nat.one_shiftLeft]
        cases i with
        | zero => simp [Nat.testBit_zero, h1]
        | succ i =>
          rw [Nat.testBit_succ x, testBit_two_mul_succ]
          simp [Nat.testBit_succ]
      · obtain rfl : i = 0 := by omega
        simp [Nat.testBit_zero]

/-- The lowest one of the rest comes later. -/
theorem lt_of_lowest_bit {b c y z : Nat} (hlow : ∀ i ≤ b, y.testBit i = false)
    (hy : y = 1 <<< c ||| z) : b < c := by
  by_contra hle
  have h := hlow c (by omega)
  rw [hy, Nat.testBit_or, Nat.one_shiftLeft, Nat.testBit_two_pow_self] at h
  exact absurd h (by simp)

/-! ## Tables of a linear map -/

/-- The table of the linear map that takes the unit vectors, from the highest bit down, to the
vectors listed. -/
def spanTable : List Nat → List Nat
  | [] => [0]
  | b :: bs => spanTable bs ++ (spanTable bs).map (b ^^^ ·)

theorem length_spanTable (bs : List Nat) : (spanTable bs).length = 2 ^ bs.length := by
  induction bs with
  | nil => rfl
  | cons b bs ih =>
    simp only [spanTable, List.length_append, List.length_map, ih, List.length_cons]
    omega

/-- The highest bit of the index adds its vector. -/
theorem spanTable_getD (b : Nat) (bs : List Nat) {x : Nat} (hx : x < 2 ^ (bs.length + 1)) :
    (spanTable (b :: bs)).getD x 0 =
      (if x.testBit bs.length then b else 0) ^^^ (spanTable bs).getD (x % 2 ^ bs.length) 0 := by
  have hlen := length_spanTable bs
  have hpow : 2 ^ (bs.length + 1) = 2 * 2 ^ bs.length := by omega
  rcases Nat.lt_or_ge x (2 ^ bs.length) with hlt | hge
  · rw [Nat.testBit_lt_two_pow hlt, Nat.mod_eq_of_lt hlt, spanTable, List.getD_append _ _ _ _ (by omega)]
    simp
  · have hmod : x % 2 ^ bs.length = x - 2 ^ bs.length := by
      rw [Nat.mod_eq_sub_mod hge, Nat.mod_eq_of_lt (by omega)]
    have hbit : x.testBit bs.length = true := by
      rw [Nat.testBit_eq_decide_div_mod_eq, decide_eq_true_eq,
        Nat.div_eq_of_lt_le (k := 1) (by omega) (by omega)]
    rw [hbit, hmod, spanTable, List.getD_append_right _ _ _ _ (by omega), hlen]
    have hin : x - 2 ^ bs.length < (spanTable bs).length := by omega
    simp [List.getD_eq_getElem?_getD, hin]

theorem spanTable_lt {r : Nat} {bs : List Nat} (hb : ∀ b ∈ bs, b < 2 ^ r) {x : Nat}
    (hx : x < 2 ^ bs.length) : (spanTable bs).getD x 0 < 2 ^ r := by
  induction bs generalizing x with
  | nil =>
    obtain rfl : x = 0 := by simpa using hx
    exact Nat.two_pow_pos r
  | cons b bs ih =>
    rw [spanTable_getD b bs hx]
    refine Nat.xor_lt_two_pow ?_ (ih (fun c hc => hb c (List.mem_cons_of_mem b hc))
      (Nat.mod_lt x (Nat.two_pow_pos _)))
    split
    · exact hb b List.mem_cons_self
    · exact Nat.two_pow_pos r

/-- **A table made by doubling is linear.** -/
theorem spanTable_xor (bs : List Nat) {x y : Nat} (hx : x < 2 ^ bs.length)
    (hy : y < 2 ^ bs.length) : (spanTable bs).getD (x ^^^ y) 0 =
      (spanTable bs).getD x 0 ^^^ (spanTable bs).getD y 0 := by
  induction bs generalizing x y with
  | nil =>
    obtain rfl : x = 0 := by simpa using hx
    obtain rfl : y = 0 := by simpa using hy
    rfl
  | cons b bs ih =>
    have hm : ∀ z, z % 2 ^ bs.length < 2 ^ bs.length := fun z =>
      Nat.mod_lt z (Nat.two_pow_pos _)
    rw [spanTable_getD b bs hx, spanTable_getD b bs hy,
      spanTable_getD b bs (Nat.xor_lt_two_pow hx hy), Nat.xor_mod_two_pow, ih (hm x) (hm y),
      Nat.testBit_xor]
    cases x.testBit bs.length <;> cases y.testBit bs.length <;>
      simp [Nat.xor_assoc, Nat.xor_left_comm]

/-! ## Tables filled on a first-come basis -/

section FirstTable

variable (key : Nat → Nat) (free : Nat)

/-- Write `e` into its slot, if that is still free. -/
def put (t : Nat → Nat) (e : Nat) : Nat → Nat :=
  if t (key e) = free then Function.update t (key e) e else t

variable {key free} {t : Nat → Nat} {es : List Nat}

/-- A slot of the table was there before, or it holds an entry with its key. -/
theorem firstTable_sound {s : Nat} (h : es.foldl (put key free) t s ≠ t s) :
    es.foldl (put key free) t s ∈ es ∧ key (es.foldl (put key free) t s) = s := by
  induction es generalizing t with
  | nil => exact absurd rfl h
  | cons e es ih =>
    rw [List.foldl_cons] at h ⊢
    by_cases hs : es.foldl (put key free) (put key free t e) s = put key free t e s
    · rw [hs] at h ⊢
      unfold put at h ⊢
      by_cases hf : t (key e) = free
      · rw [if_pos hf] at h ⊢
        by_cases hk : s = key e
        · subst hk
          rw [Function.update_self]
          exact ⟨List.mem_cons_self, rfl⟩
        · rw [Function.update_of_ne hk] at h
          exact absurd rfl h
      · rw [if_neg hf] at h
        exact absurd rfl h
    · obtain ⟨hm, hk⟩ := ih hs
      exact ⟨List.mem_cons_of_mem e hm, hk⟩

/-- A slot that is taken stays so. -/
theorem firstTable_taken {s : Nat} (h : t s ≠ free) : es.foldl (put key free) t s = t s := by
  induction es generalizing t with
  | nil => rfl
  | cons e es ih =>
    have hp : put key free t e s = t s := by
      unfold put
      split
      · rename_i hf
        exact Function.update_of_ne (fun hs => h (by rw [hs, hf])) _ _
      · rfl
    rw [List.foldl_cons, ih (by rwa [hp]), hp]

/-- The slot of every entry is taken. -/
theorem firstTable_complete (hfree : free ∉ es) {e : Nat} (he : e ∈ es) :
    es.foldl (put key free) t (key e) ≠ free := by
  induction es generalizing t with
  | nil => exact absurd he List.not_mem_nil
  | cons a es ih =>
    rw [List.foldl_cons]
    rcases List.mem_cons.mp he with rfl | hm
    · have hp : put key free t e (key e) ≠ free := by
        unfold put
        split
        · rw [Function.update_self]
          rintro rfl
          exact hfree List.mem_cons_self
        · assumption
      rwa [firstTable_taken hp]
    · exact ih (fun h => hfree (List.mem_cons_of_mem a h)) hm

end FirstTable

/-! ## Systematic codes -/

/-- `k` information bits with `r` check bits, at distance `d`. -/
structure SystematicCode (k r d : Nat) where
  check : Nat → Nat
  check_lt : ∀ {a}, a < 2 ^ k → check a < 2 ^ r
  linear : ∀ {a b}, a < 2 ^ k → b < 2 ^ k → check (a ^^^ b) = check a ^^^ check b
  distance : ∀ {a}, a < 2 ^ k → a ≠ 0 → d ≤ weight (k + r) (a * 2 ^ r + check a)

namespace SystematicCode

variable {k r d : Nat} (C : SystematicCode k r d)

/-- Information bits, then check bits. -/
def codeword (a : Nat) : Nat := a * 2 ^ r + C.check a

/-- What the check bits received differ by from those due. -/
def syndrome (y : Nat) : Nat := y % 2 ^ r ^^^ C.check (y / 2 ^ r)

variable {a e x y : Nat}

theorem codeword_lt (ha : a < 2 ^ k) : C.codeword a < 2 ^ (k + r) := by
  have hc := C.check_lt ha
  unfold codeword
  rw [Nat.pow_add]
  calc a * 2 ^ r + C.check a < a * 2 ^ r + 2 ^ r := by omega
    _ = (a + 1) * 2 ^ r := by rw [Nat.add_mul, Nat.one_mul]
    _ ≤ 2 ^ k * 2 ^ r := Nat.mul_le_mul_right _ ha

theorem codeword_div (ha : a < 2 ^ k) : C.codeword a / 2 ^ r = a := by
  unfold codeword
  rw [Nat.mul_comm, Nat.mul_add_div (Nat.two_pow_pos r), Nat.div_eq_of_lt (C.check_lt ha),
    Nat.add_zero]

theorem codeword_mod (ha : a < 2 ^ k) : C.codeword a % 2 ^ r = C.check a := by
  unfold codeword
  rw [Nat.mul_comm, Nat.mul_add_mod, Nat.mod_eq_of_lt (C.check_lt ha)]

theorem div_lt (hx : x < 2 ^ (k + r)) : x / 2 ^ r < 2 ^ k := by
  rw [Nat.div_lt_iff_lt_mul (Nat.two_pow_pos r), ← Nat.pow_add]
  exact hx

theorem syndrome_xor (hx : x < 2 ^ (k + r)) (hy : y < 2 ^ (k + r)) :
    C.syndrome (x ^^^ y) = C.syndrome x ^^^ C.syndrome y := by
  unfold syndrome
  rw [Nat.xor_mod_two_pow, Nat.xor_div_two_pow, C.linear (div_lt hx) (div_lt hy)]
  simp only [Nat.xor_assoc, Nat.xor_left_comm]

theorem syndrome_codeword (ha : a < 2 ^ k) : C.syndrome (C.codeword a) = 0 := by
  unfold syndrome
  rw [C.codeword_div ha, C.codeword_mod ha, Nat.xor_self]

/-- The words of syndrome zero are the codewords. -/
theorem codeword_of_syndrome (h : C.syndrome x = 0) : x = C.codeword (x / 2 ^ r) := by
  have hc : x % 2 ^ r = C.check (x / 2 ^ r) := Nat.xor_eq_zero_iff.mp h
  unfold codeword
  rw [← hc, Nat.mul_comm, Nat.div_add_mod]

/-- Two words of one syndrome are equal or far apart. -/
theorem eq_or_far (hx : x < 2 ^ (k + r)) (hy : y < 2 ^ (k + r)) (h : C.syndrome x = C.syndrome y) :
    x = y ∨ d ≤ weight (k + r) x + weight (k + r) y := by
  have hxy : x ^^^ y < 2 ^ (k + r) := Nat.xor_lt_two_pow hx hy
  have hs : C.syndrome (x ^^^ y) = 0 := by
    rw [C.syndrome_xor hx hy, h, Nat.xor_self]
  have hc := C.codeword_of_syndrome hs
  by_cases h0 : (x ^^^ y) / 2 ^ r = 0
  · left
    have hz : C.check 0 = 0 := by
      have hl := C.linear (Nat.two_pow_pos k) (Nat.two_pow_pos k)
      rwa [Nat.xor_self, Nat.xor_self] at hl
    rw [h0] at hc
    have hxy0 : x ^^^ y = 0 := by
      rw [hc]
      unfold codeword
      rw [hz]
      simp
    exact Nat.xor_eq_zero_iff.mp hxy0
  · right
    have hd := C.distance (div_lt hxy) h0
    rw [show _ * 2 ^ r + _ = x ^^^ y from hc.symm] at hd
    exact hd.trans (weight_xor_le _ x y)

/-- A table of coset leaders: one of weight at most `t` for each syndrome that has one. -/
structure Leaders (t : Nat) (leader : Nat → Option Nat) : Prop where
  sound : ∀ {s e}, leader s = some e →
    e < 2 ^ (k + r) ∧ C.syndrome e = s ∧ weight (k + r) e ≤ t
  complete : ∀ {e}, e < 2 ^ (k + r) → weight (k + r) e ≤ t → leader (C.syndrome e) ≠ none

variable {C} {t n : Nat} {leader : Nat → Option Nat}

/-- **A light error is its own leader.** -/
theorem Leaders.of_light (h : C.Leaders t leader) (hd : 2 * t < d) (he : e < 2 ^ (k + r))
    (hw : weight (k + r) e ≤ t) : leader (C.syndrome e) = some e := by
  cases hl : leader (C.syndrome e) with
  | none => exact absurd hl (h.complete he hw)
  | some f =>
    obtain ⟨hf, hs, hwf⟩ := h.sound hl
    rcases C.eq_or_far hf he hs with rfl | hfar
    · rfl
    · omega

/-- **The leader of a heavier error outweighs `n`**, as far as the distance allows. -/
theorem Leaders.of_heavy (h : C.Leaders t leader) (he : e < 2 ^ (k + r))
    (hn : n < weight (k + r) e) (hw : weight (k + r) e + n < d) {f : Nat}
    (hl : leader (C.syndrome e) = some f) : n < weight (k + r) f := by
  obtain ⟨hf, hs, -⟩ := h.sound hl
  by_contra hle
  rcases C.eq_or_far hf he hs with rfl | hfar <;> omega

end SystematicCode

end LinearCode
