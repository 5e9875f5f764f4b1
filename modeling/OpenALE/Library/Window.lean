import Mathlib

/-!
# Sliding windows

The last `n` entries of a log, as a queue that is cut at its front.

Results:
* `last_concat`: the queue after one more entry.
* `apart_concat_iff`: equal entries are more than `n` apart exactly if no entry was in the window
  of its time.
* `Apart.nodup_last`: the window then holds no entry twice.
-/

namespace Window

variable {α : Type*} {n : Nat} {log : List α} {x : α}

/-- The last `n` entries. -/
def last (n : Nat) (log : List α) : List α := log.drop (log.length - n)

/-- Equal entries are more than `n` places apart. -/
def Apart (n : Nat) (log : List α) : Prop :=
  ∀ i j x, i < j → log[i]? = some x → log[j]? = some x → n < j - i

theorem length_last_le (n : Nat) (log : List α) : (last n log).length ≤ n := by
  rw [last, List.length_drop]
  omega

/-- **The queue after one more entry**: put at the back, and cut at the front if it is too long. -/
theorem last_concat (n : Nat) (log : List α) (x : α) : last n (log ++ [x]) =
    if n < (last n log ++ [x]).length then (last n log ++ [x]).tail else last n log ++ [x] := by
  unfold last
  split_ifs with h
  · rw [List.length_append, List.length_drop, List.length_singleton] at h
    have hcut : (log ++ [x]).length - n = log.length - n + 1 := by
      rw [List.length_append, List.length_singleton]
      omega
    have hle : log.length - n ≤ log.length := Nat.sub_le _ _
    rw [hcut, ← List.tail_drop, List.drop_append_of_le_length hle]
  · rw [List.length_append, List.length_drop, List.length_singleton] at h
    have hcut : (log ++ [x]).length - n = log.length - n := by
      rw [List.length_append, List.length_singleton]
      omega
    rw [hcut, List.drop_append_of_le_length (Nat.sub_le _ _)]

theorem mem_last_iff : x ∈ last n log ↔ ∃ i, log[i]? = some x ∧ log.length ≤ i + n := by
  unfold last
  constructor
  · intro h
    obtain ⟨i, hi⟩ := List.mem_iff_getElem?.mp h
    rw [List.getElem?_drop] at hi
    exact ⟨_, hi, by omega⟩
  · rintro ⟨i, hi, hlast⟩
    refine List.mem_iff_getElem?.mpr ⟨i - (log.length - n), ?_⟩
    rw [List.getElem?_drop, ← hi]
    congr 1
    omega

theorem apart_nil (n : Nat) : Apart n ([] : List α) := by
  intro i j x hij hi
  cases hi

/-- **One more entry** is apart from its equals if it is not in the window. -/
theorem apart_concat_iff : Apart n (log ++ [x]) ↔ Apart n log ∧ x ∉ last n log := by
  constructor
  · intro h
    have hstart {i : Nat} {y : α} (hi : log[i]? = some y) : (log ++ [x])[i]? = some y := by
      obtain ⟨hlt, -⟩ := List.getElem?_eq_some_iff.mp hi
      rwa [List.getElem?_append_left hlt]
    refine ⟨fun i j y hij hi hj => h i j y hij (hstart hi) (hstart hj), fun hx => ?_⟩
    obtain ⟨i, hi, hlast⟩ := mem_last_iff.mp hx
    obtain ⟨hlt, -⟩ := List.getElem?_eq_some_iff.mp hi
    have hnew : (log ++ [x])[log.length]? = some x := by
      rw [List.getElem?_append_right le_rfl, Nat.sub_self]
      rfl
    have hapart := h i log.length x hlt (hstart hi) hnew
    omega
  · rintro ⟨h, hx⟩ i j y hij hi hj
    obtain ⟨hlt, -⟩ := List.getElem?_eq_some_iff.mp hj
    rw [List.length_append, List.length_singleton] at hlt
    have hi' : log[i]? = some y := by rwa [List.getElem?_append_left (by omega)] at hi
    obtain hj' | rfl : j < log.length ∨ j = log.length := by omega
    · rw [List.getElem?_append_left hj'] at hj
      exact h i j y hij hi' hj
    · rw [List.getElem?_append_right le_rfl, Nat.sub_self] at hj
      obtain rfl := Option.some.inj hj
      by_contra hle
      exact hx (mem_last_iff.mpr ⟨i, hi', by omega⟩)

/-- **The window holds no entry twice.** -/
theorem Apart.nodup_last (h : Apart n log) : (last n log).Nodup := by
  rw [List.nodup_iff_getElem?_ne_getElem?]
  intro i j hij hj heq
  have hlast := length_last_le n log
  have hx := List.getElem?_eq_getElem hj
  have hcell (k : Nat) : (last n log)[k]? = log[log.length - n + k]? := List.getElem?_drop
  have hapart := h _ _ _ (Nat.add_lt_add_left hij _) ((hcell i).symm.trans (heq.trans hx))
    ((hcell j).symm.trans hx)
  omega

end Window
