import Mathlib.Data.List.SplitBy

/-!
# `List.splitBy` from the right

A list that grows at its end either starts a new run or lets the last one grow.

Results:
* `splitBy_concat_new`, `splitBy_concat_same`: the two cases.
-/

namespace SplitBy

variable {α : Type*} {r : α → α → Bool} {l seg : List α} {front : List (List α)} {a x : α}

/-- The runs and the last of them. -/
theorem splitBy_front (h : l.splitBy r = front ++ [seg]) :
    l = front.flatten ++ seg ∧ front.flatten.splitBy r = front ∧ seg ≠ [] ∧
      seg.IsChain (fun x y ↦ r x y) ∧
      ∀ x ∈ front.flatten.getLast?, ∀ y ∈ seg.head?, r x y = false := by
  obtain ⟨hl, hnil, hchain, hbreak⟩ := List.splitBy_eq_iff.mp h
  rw [List.mem_append, not_or] at hnil
  rw [List.isChain_append] at hbreak
  obtain ⟨hfront, -, hlast⟩ := hbreak
  refine ⟨by rw [hl]; simp, ?_, ?_, hchain seg (by simp), ?_⟩
  · exact List.splitBy_flatten hnil.1 (fun m hm ↦ hchain m (by simp [hm])) hfront
  · rintro rfl
    exact hnil.2 (by simp)
  · intro x hx y hy
    cases hf : front.getLast? with
    | none =>
      rw [List.getLast?_eq_none_iff.mp hf] at hx
      cases hx
    | some m =>
      obtain ⟨hm, hs, hr⟩ := hlast m hf seg rfl
      obtain ⟨front', rfl⟩ : ∃ front', front = front' ++ [m] :=
        List.getLast?_eq_some_iff.mp hf
      rw [List.flatten_append, List.getLast?_append, List.flatten_singleton,
        List.getLast?_eq_some_getLast hm] at hx
      obtain rfl : m.getLast hm = x := by simpa using hx
      rw [List.head?_eq_some_head hs] at hy
      obtain rfl := Option.some.inj hy
      exact hr

/-- An element that its predecessor is not related to starts a run. -/
theorem splitBy_concat_new (h : ∀ a ∈ l.getLast?, r a x = false) :
    (l ++ [x]).splitBy r = l.splitBy r ++ [[x]] := by
  rw [List.splitBy_append_cons [] h]
  rfl

/-- An element that its predecessor is related to joins the last run. -/
theorem splitBy_concat_same (h : l.splitBy r = front ++ [seg]) (ha : seg.getLast? = some a)
    (hx : r a x = true) : (l ++ [x]).splitBy r = front ++ [seg ++ [x]] := by
  obtain ⟨hl, hfront, hne, hchain, hbreak⟩ := splitBy_front h
  have hseg : (seg ++ [x]).splitBy r = [seg ++ [x]] := by
    refine List.splitBy_of_isChain (by simp) ?_
    rw [List.isChain_append]
    refine ⟨hchain, List.isChain_singleton x, ?_⟩
    intro b hb y hy
    rw [ha] at hb
    obtain rfl := Option.some.inj hb
    obtain rfl : x = y := by simpa using hy
    exact hx
  rw [hl, List.append_assoc, List.splitBy_append, hfront, hseg]
  intro y hy z hz
  rw [List.head?_append_of_ne_nil _ hne] at hz
  exact hbreak y hy z hz

end SplitBy
