import Mathlib

/-!
# Loops that set bits

A loop over positions that only ever sets bits of an accumulator is known by the bits each round
sets.
-/

namespace Bits

/-- The test of a bit as shift and mask. -/
theorem shiftRight_and_one (x i : Nat) : (x >>> i) &&& 1 = (x.testBit i).toNat := by
  rw [Nat.and_one_is_mod, Nat.shiftRight_eq_div_pow, Nat.toNat_testBit]

theorem shiftRight_and_one_ne_zero (x i : Nat) : (x >>> i) &&& 1 ≠ 0 ↔ x.testBit i = true := by
  rw [shiftRight_and_one]
  cases x.testBit i <;> decide

/-- One conditional bit. -/
theorem testBit_setIf (c : Prop) [Decidable c] (out i j : Nat) :
    (if c then out ||| 1 <<< i else out).testBit j =
      (out.testBit j || (decide c && decide (i = j))) := by
  by_cases h : c
  · simp [h, Nat.one_shiftLeft, Nat.testBit_two_pow]
  · simp [h]

section Loop

variable {α σ : Type*} {step : σ → α → σ} {v : σ → Nat} {sets : α → Nat → Bool}

/-- **The bits after a loop** are those before it and those its rounds set. -/
theorem testBit_foldl (h : ∀ s a j, (v (step s a)).testBit j = ((v s).testBit j || sets a j))
    (as : List α) (s : σ) (j : Nat) :
    (v (as.foldl step s)).testBit j = ((v s).testBit j || as.any (sets · j)) := by
  induction as generalizing s with
  | nil => simp
  | cons a as ih => rw [List.foldl_cons, ih, h, List.any_cons, Bool.or_assoc]

end Loop

/-- **Bits shifted in**, the first one highest. -/
theorem testBit_shiftIn (f : Nat → Bool) (n i : Nat) :
    ((List.range n).foldl (fun val b => (val <<< 1) ||| (f b).toNat) 0).testBit i =
      (decide (i < n) && f (n - 1 - i)) := by
  induction n generalizing i with
  | zero => simp
  | succ n ih =>
    rw [List.range_succ, List.foldl_append, List.foldl_cons, List.foldl_nil, Nat.testBit_or,
      Nat.testBit_shiftLeft]
    cases i with
    | zero => cases hf : f n <;> simp [hf]
    | succ i =>
      have hz : Nat.testBit (f n).toNat (i + 1) = false := by
        cases f n <;> simp [Nat.testBit_succ]
      rw [hz, Nat.add_sub_cancel, ih, show n + 1 - 1 - (i + 1) = n - 1 - i by omega]
      simp

/-- **A list cut into rows of `n`**, read back by its rows. -/
theorem flatMap_rows {α : Type*} (d : α) (n k : Nat) {l : List α} (hl : l.length = k * n) :
    ((List.range k).flatMap fun w => (List.range n).map fun i => l.getD (w * n + i) d) = l := by
  induction k generalizing l with
  | zero => simpa [eq_comm] using hl
  | succ k ih =>
    have hlen : l.length = k * n + n := by rw [hl, Nat.succ_mul]
    have hrest := @ih (l.drop n) (by rw [List.length_drop, hlen, Nat.add_sub_cancel])
    have hrow : (List.range n).map (fun i => l.getD (0 * n + i) d) = l.take n := by
      apply List.ext_getElem
      · simp [hlen]
      · intro i hi _
        simp only [List.length_map, List.length_range] at hi
        simp [List.getD_eq_getElem?_getD, List.getElem?_eq_getElem (show i < l.length by omega)]
    have hshift : ∀ w i, (l.drop n).getD (w * n + i) d = l.getD ((w + 1) * n + i) d := by
      intro w i
      simp only [List.getD_eq_getElem?_getD, List.getElem?_drop]
      congr 2
      rw [Nat.succ_mul]
      omega
    rw [List.range_succ_eq_map, List.flatMap_cons, hrow, List.flatMap_map]
    simp only [hshift] at hrest
    calc l.take n ++ _ = l.take n ++ l.drop n := congrArg (l.take n ++ ·) hrest
      _ = l := List.take_append_drop n l

/-! ## Numbers as bytes, the highest first -/

/-- The `k` low bytes of `n`. -/
def toBE : Nat → Nat → List UInt8
  | 0, _ => []
  | k + 1, n => UInt8.ofNat (n / 256 ^ k) :: toBE k n

/-- The number that bytes write. -/
def ofBE (bs : List UInt8) : Nat := bs.foldl (fun n b => n * 256 + b.toNat) 0

@[simp] theorem length_toBE (k n : Nat) : (toBE k n).length = k := by
  induction k with
  | zero => rfl
  | succ k ih => rw [toBE, List.length_cons, ih]

/-- **Written and read back**, up to what `k` bytes hold. -/
theorem ofBE_toBE (k n : Nat) : ofBE (toBE k n) = n % 256 ^ k := by
  have hfold : ∀ k m, (toBE k n).foldl (fun n b => n * 256 + b.toNat) m =
      m * 256 ^ k + n % 256 ^ k := by
    intro k
    induction k with
    | zero =>
      intro m
      simp [toBE, Nat.mod_one]
    | succ k ih =>
      intro m
      rw [toBE, List.foldl_cons, ih, UInt8.toNat_ofNat', pow_succ 256 k, Nat.mod_mul]
      ring
  have h0 := hfold k 0
  rwa [Nat.zero_mul, Nat.zero_add] at h0

theorem ofBE_cons (b : UInt8) (bs : List UInt8) :
    ofBE (b :: bs) = b.toNat * 256 ^ bs.length + ofBE bs := by
  have hfold : ∀ (bs : List UInt8) (m : Nat), bs.foldl (fun n b => n * 256 + b.toNat) m =
      m * 256 ^ bs.length + ofBE bs := by
    intro bs
    induction bs with
    | nil =>
      intro m
      simp [ofBE]
    | cons b bs ih =>
      intro m
      have hb := ih (0 * 256 + b.toNat)
      rw [ofBE, List.foldl_cons, List.foldl_cons, ih, hb, List.length_cons, pow_succ']
      ring
  have hb := hfold bs (0 * 256 + b.toNat)
  rw [Nat.zero_mul, Nat.zero_add] at hb
  rw [ofBE, List.foldl_cons, Nat.zero_mul, Nat.zero_add]
  exact hb

theorem ofBE_lt (bs : List UInt8) : ofBE bs < 256 ^ bs.length := by
  induction bs with
  | nil => decide
  | cons b bs ih =>
    have hb : b.toNat < 256 := b.toNat_lt
    have hmul : b.toNat * 256 ^ bs.length ≤ 255 * 256 ^ bs.length :=
      Nat.mul_le_mul_right _ (by omega)
    rw [ofBE_cons, List.length_cons, pow_succ']
    omega

/-- **Read and written back.** -/
theorem toBE_ofBE (bs : List UInt8) : toBE bs.length (ofBE bs) = bs := by
  induction bs with
  | nil => rfl
  | cons b bs ih =>
    have hlt := ofBE_lt bs
    have hpos : 0 < 256 ^ bs.length := by positivity
    have hdiv : ofBE (b :: bs) / 256 ^ bs.length = b.toNat := by
      rw [ofBE_cons, Nat.mul_comm, Nat.mul_add_div hpos, Nat.div_eq_of_lt hlt, Nat.add_zero]
    have hlow (k m : Nat) (hk : k ≤ bs.length) :
        toBE k (m * 256 ^ bs.length + ofBE bs) = toBE k (ofBE bs) := by
      induction k with
      | zero => rfl
      | succ k ihk =>
        have hpow : 256 ^ bs.length = 256 ^ k * (256 * 256 ^ (bs.length - (k + 1))) := by
          rw [← pow_succ', ← pow_add]
          congr 1
          omega
        have hbyte : (m * 256 ^ bs.length + ofBE bs) / 256 ^ k =
            m * 256 ^ (bs.length - (k + 1)) * 256 + ofBE bs / 256 ^ k := by
          have hk0 : 0 < 256 ^ k := by positivity
          have hassoc : m * (256 ^ k * (256 * 256 ^ (bs.length - (k + 1)))) =
              256 ^ k * (m * 256 ^ (bs.length - (k + 1)) * 256) := by ring
          rw [hpow, hassoc, Nat.mul_add_div hk0]
        have hcast : UInt8.ofNat ((m * 256 ^ bs.length + ofBE bs) / 256 ^ k) =
            UInt8.ofNat (ofBE bs / 256 ^ k) := by
          apply UInt8.toNat_inj.mp
          rw [UInt8.toNat_ofNat', UInt8.toNat_ofNat', hbyte]
          omega
        rw [toBE, toBE, hcast, ihk (by omega)]
    rw [List.length_cons, toBE, hdiv, ofBE_cons, hlow bs.length b.toNat le_rfl, ih,
      UInt8.ofNat_toNat]

/-! ## Bytes as bits, the highest first -/

/-- The bits of a byte. -/
def byteBits (b : UInt8) : List Bool := (List.range 8).map fun i => b.toNat.testBit (7 - i)

/-- The bits of a string of bytes. -/
def bitsOf (bs : List UInt8) : List Bool := bs.flatMap byteBits

@[simp] theorem length_byteBits (b : UInt8) : (byteBits b).length = 8 := by
  rw [byteBits, List.length_map, List.length_range]

theorem bitsOf_cons (b : UInt8) (bs : List UInt8) : bitsOf (b :: bs) = byteBits b ++ bitsOf bs :=
  List.flatMap_cons

theorem bitsOf_append (bs bs' : List UInt8) : bitsOf (bs ++ bs') = bitsOf bs ++ bitsOf bs' :=
  List.flatMap_append

@[simp] theorem length_bitsOf (bs : List UInt8) : (bitsOf bs).length = 8 * bs.length := by
  induction bs with
  | nil => rfl
  | cons b bs ih =>
    rw [bitsOf_cons, List.length_append, length_byteBits, ih, List.length_cons]
    omega

theorem two_pow_bytes (n : Nat) : 256 ^ n = 2 ^ (8 * n) := by
  rw [pow_mul]
  norm_num

/-- **The bits of the number** that bytes write. -/
theorem testBit_ofBE {bs : List UInt8} {i : Nat} (h : i < 8 * bs.length) :
    (ofBE bs).testBit i = (bitsOf bs).getD (8 * bs.length - 1 - i) false := by
  induction bs with
  | nil => exact absurd h (Nat.not_lt_zero _)
  | cons b bs ih =>
    have hlt := ofBE_lt bs
    have hpow := two_pow_bytes bs.length
    rw [hpow] at hlt
    rw [List.length_cons] at h
    rw [ofBE_cons, hpow, Nat.mul_comm, Nat.testBit_two_pow_mul_add _ hlt, bitsOf_cons,
      List.getD_eq_getElem?_getD, List.length_cons]
    split_ifs with hi
    · have hat : 8 * (bs.length + 1) - 1 - i = 8 + (8 * bs.length - 1 - i) := by omega
      rw [ih hi, hat, List.getElem?_append_right (by simp), length_byteBits, Nat.add_sub_cancel_left,
        List.getD_eq_getElem?_getD]
    · have hat : 8 * (bs.length + 1) - 1 - i < 8 := by omega
      have hbit : 7 - (8 * (bs.length + 1) - 1 - i) = i - 8 * bs.length := by omega
      rw [List.getElem?_append_left (by rwa [length_byteBits]), byteBits, List.getElem?_map,
        List.getElem?_range hat, Option.map_some, Option.getD_some, hbit]

theorem bitsOf_injective {bs bs' : List UInt8} (h : bitsOf bs = bitsOf bs') : bs = bs' := by
  have hlen : bs.length = bs'.length := by
    have heq := congrArg List.length h
    rw [length_bitsOf, length_bitsOf] at heq
    omega
  have hvalue : ofBE bs = ofBE bs' := by
    apply Nat.eq_of_testBit_eq
    intro i
    by_cases hi : i < 8 * bs.length
    · rw [testBit_ofBE hi, testBit_ofBE (hlen ▸ hi), h, hlen]
    · have hhigh (x : List UInt8) (hx : x.length = bs.length) : (ofBE x).testBit i = false := by
        apply Nat.testBit_lt_two_pow
        calc ofBE x < 256 ^ x.length := ofBE_lt x
          _ = 2 ^ (8 * bs.length) := by rw [hx, two_pow_bytes]
          _ ≤ 2 ^ i := Nat.pow_le_pow_right (by decide) (by omega)
      rw [hhigh bs rfl, hhigh bs' hlen.symm]
  rw [← toBE_ofBE bs, ← toBE_ofBE bs', hvalue, hlen]

end Bits
