import Mathlib

/-!
# Cyclic redundancy checks

The register of a CRC of `w` bits, fed with the bits of a message, the highest bit first. The
polynomial has the term 1, so that no step loses a register.

Results:
* `run_xor`: the register is linear in the register before and the bits.
* `run_eq_zero_iff`: no more than `w` bits clear a register only if they are its highest bits.
* `burst_detected`: messages that differ within `w` consecutive bits leave different registers.
-/

namespace Crc

variable {w : Nat} (poly : BitVec w)

/-- One shift of the register. -/
def shift (c : BitVec w) : BitVec w := if c.msb then (c <<< 1) ^^^ poly else c <<< 1

/-- A bit at the top of the register. -/
def top (b : Bool) : BitVec w := if b then BitVec.intMin w else 0#w

/-- One bit of the message. -/
def feed (c : BitVec w) (b : Bool) : BitVec w := shift poly (c ^^^ top b)

/-- The bits of a message. -/
def run (c : BitVec w) (bits : List Bool) : BitVec w := bits.foldl (feed poly) c

variable {poly} {c d : BitVec w} {b : Bool} {bits bits' : List Bool}

/-! ## Linearity -/

theorem shift_zero : shift poly 0#w = 0#w := by
  simp [shift]

theorem shift_xor (c d : BitVec w) : shift poly (c ^^^ d) = shift poly c ^^^ shift poly d := by
  unfold shift
  rw [BitVec.msb_xor, BitVec.shiftLeft_xor_distrib]
  cases c.msb <;> cases d.msb
  · rfl
  · exact BitVec.xor_assoc _ _ _
  · simp only [Bool.xor_false, if_true, Bool.false_eq_true, if_false]
    rw [BitVec.xor_assoc, BitVec.xor_assoc, BitVec.xor_comm _ poly]
  · simp only [Bool.xor_self, Bool.false_eq_true, if_false, if_true]
    rw [BitVec.xor_assoc, ← BitVec.xor_assoc poly, BitVec.xor_comm poly, BitVec.xor_assoc,
      BitVec.xor_self, BitVec.xor_zero]

theorem top_xor (b b' : Bool) : top (b ^^ b') = (top b ^^^ top b' : BitVec w) := by
  cases b <;> cases b' <;> simp [top]

theorem run_xor (h : bits.length = bits'.length) (c d : BitVec w) :
    run poly (c ^^^ d) (List.zipWith xor bits bits') = run poly c bits ^^^ run poly d bits' := by
  induction bits generalizing bits' c d with
  | nil =>
    cases bits' with
    | nil => rfl
    | cons b' bits' => cases h
  | cons b bits ih =>
    cases bits' with
    | nil => cases h
    | cons b' bits' =>
      have hstep : feed poly (c ^^^ d) (b ^^ b') = feed poly c b ^^^ feed poly d b' := by
        unfold feed
        rw [← shift_xor, top_xor]
        congr 1
        ac_rfl
      rw [List.zipWith_cons_cons, run, List.foldl_cons, hstep]
      exact ih (Nat.succ.inj h) _ _

theorem zipWith_xor_zeros (bits : List Bool) :
    List.zipWith xor (List.replicate bits.length false) bits = bits := by
  induction bits with
  | nil => rfl
  | cons b bits ih =>
    rw [List.length_cons, List.replicate_succ, List.zipWith_cons_cons, ih, Bool.false_xor]

theorem run_append (c : BitVec w) (bits bits' : List Bool) :
    run poly c (bits ++ bits') = run poly (run poly c bits) bits' := List.foldl_append

/-! ## What clears the register -/

section invertible

variable (hpoly : poly.getLsbD 0 = true)
include hpoly

/-- A polynomial with the term 1 is not of width 0. -/
theorem width_pos : 0 < w := by
  by_contra h
  rw [BitVec.getLsbD_of_ge poly 0 (by omega)] at hpoly
  cases hpoly

theorem shift_eq_zero (h : shift poly c = 0#w) : c = 0#w := by
  have hw := width_pos hpoly
  have hlow : (c <<< 1).getLsbD 0 = false := by simp
  unfold shift at h
  split_ifs at h with hmsb
  · have heq : c <<< 1 = poly := BitVec.xor_eq_zero_iff.mp h
    rw [heq, hpoly] at hlow
    cases hlow
  · apply BitVec.eq_of_getLsbD_eq
    intro i hi
    rw [BitVec.getLsbD_zero]
    obtain hlast | hlt : i = w - 1 ∨ i + 1 < w := by omega
    · rw [BitVec.msb_eq_getLsbD_last] at hmsb
      rw [hlast]
      simpa using hmsb
    · have hbit : (c <<< 1).getLsbD (i + 1) = false := by
        rw [h]
        exact BitVec.getLsbD_zero
      rw [BitVec.getLsbD_shiftLeft, decide_eq_true hlt, Bool.true_and] at hbit
      exact hbit

theorem shift_injective {c d : BitVec w} (h : shift poly c = shift poly d) : c = d := by
  have hzero : shift poly (c ^^^ d) = 0#w := by rw [shift_xor, h, BitVec.xor_self]
  have hxor := shift_eq_zero hpoly hzero
  exact BitVec.xor_eq_zero_iff.mp hxor

theorem run_zeros_eq_zero {k : Nat} (h : run poly c (List.replicate k false) = 0#w) : c = 0#w := by
  induction k generalizing c with
  | zero => exact h
  | succ k ih =>
    have hstep := ih h
    have hfeed : feed poly c false = shift poly c := by
      rw [feed, top, if_neg (by decide), BitVec.xor_zero]
    rw [hfeed] at hstep
    exact shift_eq_zero hpoly hstep

end invertible

/-- Bits as the highest ones of a register. -/
def word : List Bool → BitVec w
  | [] => 0#w
  | b :: bits => (word bits >>> 1) ^^^ top b

theorem word_low {i : Nat} (h : i + bits.length < w) : (word bits : BitVec w).getLsbD i = false := by
  induction bits generalizing i with
  | nil => exact BitVec.getLsbD_zero
  | cons b bits ih =>
    rw [List.length_cons] at h
    have htop : (top b : BitVec w).getLsbD i = false := by
      unfold top
      split_ifs
      · rw [BitVec.getLsbD_intMin]
        simp
        omega
      · exact BitVec.getLsbD_zero
    rw [word, BitVec.getLsbD_xor, htop, BitVec.getLsbD_ushiftRight, ih (by omega)]
    rfl

theorem word_xor (h : bits.length = bits'.length) :
    (word (List.zipWith xor bits bits') : BitVec w) = word bits ^^^ word bits' := by
  induction bits generalizing bits' with
  | nil =>
    rw [List.length_eq_zero_iff.mp h.symm]
    exact BitVec.xor_self.symm
  | cons b bits ih =>
    cases bits' with
    | nil => cases h
    | cons b' bits' =>
      rw [List.zipWith_cons_cons, word, word, word, ih (Nat.succ.inj h),
        BitVec.ushiftRight_xor_distrib, top_xor]
      ac_rfl

theorem getLsbD_word (h : bits.length ≤ w) {i : Nat} (hi : i < w) :
    (word bits : BitVec w).getLsbD i = bits.getD (w - 1 - i) false := by
  induction bits generalizing i with
  | nil => exact BitVec.getLsbD_zero
  | cons b bits ih =>
    rw [List.length_cons] at h
    have htop : (top b : BitVec w).getLsbD i = (decide (i = w - 1) && b) := by
      cases b with
      | false => simp [top]
      | true =>
        rw [top, if_pos rfl, BitVec.getLsbD_intMin, Bool.and_true]
        exact decide_eq_decide.mpr (by omega)
    rw [word, BitVec.getLsbD_xor, BitVec.getLsbD_ushiftRight, htop]
    obtain rfl | hlow : i = w - 1 ∨ i < w - 1 := by omega
    · rw [BitVec.getLsbD_of_ge _ _ (by omega), decide_eq_true rfl, Nat.sub_self]
      exact Bool.false_xor b
    · have hat : w - 1 - i = w - 1 - (1 + i) + 1 := by omega
      rw [ih (by omega) (by omega), decide_eq_false (by omega), hat, List.getD_cons_succ,
        Bool.false_and, Bool.xor_false]

/-- What a shift makes of a register with a clear highest bit and a clear lowest bit behind it. -/
theorem shift_ushiftRight (h : c.getLsbD 0 = false) : shift poly (c >>> 1) = c := by
  have hmsb : (c >>> 1).msb = false := by
    rw [BitVec.msb_eq_getLsbD_last, BitVec.getLsbD_ushiftRight]
    exact BitVec.getLsbD_of_ge c _ (by omega)
  rw [shift, hmsb, if_neg (by decide)]
  apply BitVec.eq_of_getLsbD_eq
  intro i hi
  rw [BitVec.getLsbD_shiftLeft, BitVec.getLsbD_ushiftRight]
  cases i with
  | zero => simp [h]
  | succ i => simp [hi, Nat.add_comm]

/-- **Bits that clear the register** are its highest ones. -/
theorem run_eq_zero_iff (hpoly : poly.getLsbD 0 = true) (h : bits.length ≤ w) (c : BitVec w) :
    run poly c bits = 0#w ↔ c = word bits := by
  induction bits generalizing c with
  | nil => exact Iff.rfl
  | cons b bits ih =>
    rw [List.length_cons] at h
    have hlow : (word bits : BitVec w).getLsbD 0 = false := word_low (by omega)
    have hundo : shift poly (word bits >>> 1) = word bits := shift_ushiftRight hlow
    have hrun : run poly c (b :: bits) = run poly (feed poly c b) bits := rfl
    rw [hrun, ih (by omega), word]
    constructor
    · intro heq
      have hinj : c ^^^ top b = word bits >>> 1 := shift_injective hpoly (heq.trans hundo.symm)
      rw [← hinj, BitVec.xor_assoc, BitVec.xor_self, BitVec.xor_zero]
    · rintro rfl
      rw [feed, BitVec.xor_assoc, BitVec.xor_self, BitVec.xor_zero, hundo]

theorem eq_false_of_word_eq_zero (h : bits.length ≤ w) (hword : (word bits : BitVec w) = 0#w) :
    ∀ b ∈ bits, b = false := by
  induction bits with
  | nil => exact fun b hb => by cases hb
  | cons b bits ih =>
    rw [List.length_cons] at h
    have hmsb : (word (b :: bits) : BitVec w).msb = b := by
      have hshift : ((word bits : BitVec w) >>> 1).msb = false := by
        rw [BitVec.msb_eq_getLsbD_last, BitVec.getLsbD_ushiftRight]
        exact BitVec.getLsbD_of_ge _ _ (by omega)
      have htop : (top b : BitVec w).msb = b := by
        cases b with
        | false => simp [top]
        | true =>
          rw [top, if_pos rfl, BitVec.msb_intMin]
          exact decide_eq_true (by omega)
      rw [word, BitVec.msb_xor, hshift, htop, Bool.false_xor]
    have hb : b = false := by
      rw [← hmsb, hword]
      exact BitVec.msb_zero
    have hrest : (word bits : BitVec w) = 0#w := by
      have hlow : (word bits : BitVec w).getLsbD 0 = false := word_low (by omega)
      have hshift : (word bits : BitVec w) >>> 1 = 0#w := by
        rw [word, hb, top, if_neg (by decide), BitVec.xor_zero] at hword
        exact hword
      have hback : shift 0#w ((word bits : BitVec w) >>> 1) = word bits := shift_ushiftRight hlow
      rw [← hback, hshift, shift_zero]
    intro x hx
    obtain rfl | hx := List.mem_cons.mp hx
    · exact hb
    · exact ih (by omega) hrest x hx

/-! ## Bursts -/

/-- The messages are equally long and agree outside `n` bits from the `k`-th on. -/
def AgreeOutside (k n : Nat) (bits bits' : List Bool) : Prop :=
  bits.length = bits'.length ∧ ∀ i, i < k ∨ k + n ≤ i → bits[i]? = bits'[i]?

theorem run_of_all_false (h : ∀ b ∈ bits, b = false) : run poly 0#w bits = 0#w := by
  rw [List.eq_replicate_of_mem h]
  induction bits.length with
  | zero => rfl
  | succ k ih =>
    have hfeed : feed poly 0#w false = 0#w := by
      rw [feed, top, if_neg (by decide), BitVec.xor_zero, shift_zero]
    rw [List.replicate_succ, run, List.foldl_cons, hfeed]
    exact ih

/-- A difference of no more than `w` consecutive bits does not clear the register. -/
theorem all_false_of_run (hpoly : poly.getLsbD 0 = true) {front burst back : List Bool}
    (hfront : ∀ b ∈ front, b = false) (hburst : burst.length ≤ w) (hback : ∀ b ∈ back, b = false)
    (hrun : run poly 0#w (front ++ burst ++ back) = 0#w) :
    ∀ b ∈ front ++ burst ++ back, b = false := by
  rw [run_append, List.eq_replicate_of_mem hback] at hrun
  have hbefore := run_zeros_eq_zero hpoly hrun
  rw [run_append, run_of_all_false hfront, run_eq_zero_iff hpoly hburst] at hbefore
  have hword := eq_false_of_word_eq_zero hburst hbefore.symm
  intro b hb
  rw [List.mem_append, List.mem_append] at hb
  obtain (hb | hb) | hb := hb
  · exact hfront b hb
  · exact hword b hb
  · exact hback b hb

theorem eq_of_zipWith_xor (h : bits.length = bits'.length)
    (hxor : ∀ b ∈ List.zipWith xor bits bits', b = false) : bits = bits' := by
  induction bits generalizing bits' with
  | nil => exact (List.length_eq_zero_iff.mp h.symm).symm
  | cons b bits ih =>
    cases bits' with
    | nil => cases h
    | cons b' bits' =>
      rw [List.zipWith_cons_cons, List.forall_mem_cons] at hxor
      rw [ih (Nat.succ.inj h) hxor.2, bne_eq_false_iff_eq.mp hxor.1]

/-- **A burst is detected.** -/
theorem burst_detected (hpoly : poly.getLsbD 0 = true) {k : Nat}
    (hagree : AgreeOutside k w bits bits')
    (hrun : run poly 0#w (List.zipWith xor bits bits') = 0#w) : bits = bits' := by
  obtain ⟨hlen, hsame⟩ := hagree
  set diff := List.zipWith xor bits bits' with hdiff
  have hfalse (i : Nat) (hi : i < k ∨ k + w ≤ i) (b : Bool) (hb : diff[i]? = some b) : b = false := by
    rw [hdiff, List.getElem?_zipWith, hsame i hi] at hb
    cases hx : bits'[i]? with
    | none =>
      rw [hx] at hb
      cases hb
    | some x =>
      rw [hx] at hb
      rw [← Option.some.inj hb]
      exact bne_self_eq_false x
  have hsplit : diff = diff.take k ++ (diff.drop k).take w ++ diff.drop (k + w) := by
    rw [List.append_assoc, ← List.drop_drop, List.take_append_drop, List.take_append_drop]
  refine eq_of_zipWith_xor hlen ?_
  rw [← hdiff, hsplit]
  refine all_false_of_run hpoly (fun b hb => ?_) (List.length_take_le w _) (fun b hb => ?_)
    (hsplit ▸ hrun)
  · obtain ⟨i, hi⟩ := List.mem_iff_getElem?.mp hb
    have hik : i < k := by
      by_contra hge
      rw [List.getElem?_take, if_neg hge] at hi
      cases hi
    rw [List.getElem?_take_of_lt hik] at hi
    exact hfalse i (.inl hik) b hi
  · obtain ⟨i, hi⟩ := List.mem_iff_getElem?.mp hb
    rw [List.getElem?_drop] at hi
    exact hfalse (k + w + i) (.inr (Nat.le_add_right _ _)) b hi

end Crc
