import Mathlib

/-!
# Ring buffers

A buffer of `n` cells in which element `i` of a stream is written to cell `i % n`.

Results:
* `Holds.push`: the buffer keeps the last `n` elements of the stream.
-/

namespace Ring

variable {α : Type*} {buffer xs : List α}

/-- Element number `i` of the stream is written. -/
def push (buffer : List α) (i : Nat) (x : α) : List α := buffer.set (i % buffer.length) x

/-- The last elements of the stream, as many as there are cells, are in their cells. -/
def Holds (buffer xs : List α) : Prop :=
  ∀ i, i < xs.length → xs.length ≤ i + buffer.length → buffer[i % buffer.length]? = xs[i]?

@[simp] theorem length_push (buffer : List α) (i : Nat) (x : α) :
    (push buffer i x).length = buffer.length := List.length_set

theorem holds_nil (buffer : List α) : Holds buffer [] := fun _ h => absurd h (Nat.not_lt_zero _)

/-- Two of the last `n` numbers are in different cells. -/
theorem mod_ne {i m n : Nat} (hlt : i < m) (hlast : m < i + n) : i % n ≠ m % n := by
  intro heq
  obtain ⟨d, hd⟩ := (Nat.modEq_iff_dvd' hlt.le).mp heq
  have hpos : 0 < d := by
    by_contra hzero
    rw [Nat.eq_zero_of_not_pos hzero, Nat.mul_zero] at hd
    omega
  have hle : n ≤ n * d := Nat.le_mul_of_pos_right n hpos
  omega

/-- **The buffer keeps the last elements** of the stream. -/
theorem Holds.push (h : Holds buffer xs) (hpos : 0 < buffer.length) (x : α) :
    Holds (push buffer xs.length x) (xs ++ [x]) := by
  intro i hi hlast
  rw [length_push] at hlast ⊢
  rw [List.length_append, List.length_singleton] at hi hlast
  obtain rfl | hlt : i = xs.length ∨ i < xs.length := by omega
  · rw [Ring.push, List.getElem?_set_self (Nat.mod_lt _ hpos), List.getElem?_append_right le_rfl,
      Nat.sub_self]
    rfl
  · have hcell := mod_ne hlt (by omega : xs.length < i + buffer.length)
    rw [Ring.push, List.getElem?_set_ne hcell.symm, List.getElem?_append_left hlt]
    exact h i hlt (by omega)

end Ring
