import Mathlib.Data.List.Infix

/-!
# The topmost entries of a list

In a partial order where what lies below an element is a chain, a list of topmost elements is kept
by one pass for each new element: it takes the place of the entry below it, or is left out if an
entry lies above it.

Results:
* `mem_topmost_iff`: the list holds exactly the topmost of the elements that were inserted.
* `topmost_nodup`: each once.
-/

namespace Forest

variable {α : Type*} (r : α → α → Prop) [DecidableRel r]

/-- One pass. -/
def insert (a : α) : List α → List α
  | [] => [a]
  | x :: xs => if r x a then a :: xs else if r a x then x :: xs else x :: insert a xs

/-- All elements, one after the other. -/
def topmost (as : List α) : List α := as.foldl (fun l a => insert r a l) []

/-- No entry lies above another one. -/
def Antichain (l : List α) : Prop := l.Pairwise fun x y => ¬ r x y ∧ ¬ r y x

variable {r} {a b x : α} {l as : List α}

/-- An entry after a pass was there before, or is the new one. -/
theorem mem_of_mem_insert (h : b ∈ insert r a l) : b ∈ l ∨ b = a := by
  induction l with
  | nil => exact Or.inr (List.mem_singleton.mp h)
  | cons x xs ih =>
    rw [insert] at h
    split_ifs at h
    · rcases List.mem_cons.mp h with h | h
      · exact Or.inr h
      · exact Or.inl (List.mem_cons_of_mem x h)
    · exact Or.inl h
    · rcases List.mem_cons.mp h with rfl | h
      · exact Or.inl List.mem_cons_self
      · rcases ih h with h | h
        · exact Or.inl (List.mem_cons_of_mem x h)
        · exact Or.inr h

variable [IsPartialOrder α r]

/-- Which entries there are after a pass. -/
theorem mem_insert_iff (hforest : ∀ a b c, r a c → r b c → r a b ∨ r b a) (hl : Antichain r l) :
    b ∈ insert r a l ↔ (b ∈ l ∧ (r b a → b = a)) ∨ (b = a ∧ ∀ x ∈ l, r a x → x = a) := by
  induction l with
  | nil => simp [insert]
  | cons x xs ih =>
    have hx : ∀ y ∈ xs, ¬ r x y ∧ ¬ r y x := (List.pairwise_cons.mp hl).1
    have ih := ih (List.pairwise_cons.mp hl).2
    rw [insert]
    split_ifs with hxa hax
    · -- the entry `x` makes room for `a`; the others are not comparable with either
      have hnot : ∀ y ∈ xs, ¬ r y a := by
        intro y hy hya
        rcases hforest x y a hxa hya with h | h
        · exact (hx y hy).1 h
        · exact (hx y hy).2 h
      have habove : ∀ y ∈ xs, ¬ r a y := by
        intro y hy hay
        exact (hx y hy).1 (trans_of r hxa hay)
      constructor
      · intro hb
        rcases List.mem_cons.mp hb with rfl | hb
        · refine Or.inr ⟨rfl, ?_⟩
          intro y hy hby
          rcases List.mem_cons.mp hy with rfl | hy
          · exact antisymm_of r hxa hby
          · exact absurd hby (habove y hy)
        · exact Or.inl ⟨List.mem_cons_of_mem x hb, fun h => absurd h (hnot b hb)⟩
      · rintro (⟨hb, hba⟩ | ⟨rfl, -⟩)
        · rcases List.mem_cons.mp hb with rfl | hb
          · rw [hba hxa]
            exact List.mem_cons_self
          · exact List.mem_cons_of_mem a hb
        · exact List.mem_cons_self
    · -- `a` lies below `x`
      have hnot : ∀ y ∈ xs, ¬ r y a := by
        intro y hy hya
        exact (hx y hy).2 (trans_of r hya hax)
      constructor
      · intro hb
        refine Or.inl ⟨hb, ?_⟩
        intro hba
        rcases List.mem_cons.mp hb with rfl | hb
        · exact absurd hba hxa
        · exact absurd hba (hnot b hb)
      · rintro (⟨hb, -⟩ | ⟨rfl, h⟩)
        · exact hb
        · rw [h x List.mem_cons_self hax]
          exact List.mem_cons_self
    · rw [List.mem_cons, ih]
      constructor
      · rintro (rfl | ⟨hb, hba⟩ | ⟨rfl, h⟩)
        · exact Or.inl ⟨List.mem_cons_self, fun h => absurd h hxa⟩
        · exact Or.inl ⟨List.mem_cons_of_mem x hb, hba⟩
        · refine Or.inr ⟨rfl, ?_⟩
          intro y hy hby
          rcases List.mem_cons.mp hy with rfl | hy
          · exact absurd hby hax
          · exact h y hy hby
      · rintro (⟨hb, hba⟩ | ⟨rfl, h⟩)
        · rcases List.mem_cons.mp hb with rfl | hb
          · exact Or.inl rfl
          · exact Or.inr (Or.inl ⟨hb, hba⟩)
        · exact Or.inr (Or.inr ⟨rfl, fun y hy => h y (List.mem_cons_of_mem x hy)⟩)

theorem antichain_insert (hforest : ∀ a b c, r a c → r b c → r a b ∨ r b a)
    (hl : Antichain r l) : Antichain r (insert r a l) := by
  induction l with
  | nil => exact List.pairwise_singleton _ _
  | cons x xs ih =>
    have hx : ∀ y ∈ xs, ¬ r x y ∧ ¬ r y x := (List.pairwise_cons.mp hl).1
    rw [insert]
    split_ifs with hxa hax
    · refine List.pairwise_cons.mpr ⟨?_, (List.pairwise_cons.mp hl).2⟩
      intro y hy
      refine ⟨fun hay => (hx y hy).1 (trans_of r hxa hay), fun hya => ?_⟩
      rcases hforest x y a hxa hya with h | h
      · exact (hx y hy).1 h
      · exact (hx y hy).2 h
    · exact hl
    · refine List.pairwise_cons.mpr ⟨?_, ih (List.pairwise_cons.mp hl).2⟩
      intro y hy
      rcases mem_of_mem_insert hy with hy | rfl
      · exact hx y hy
      · exact ⟨hxa, hax⟩

theorem antichain_topmost (hforest : ∀ a b c, r a c → r b c → r a b ∨ r b a) (as : List α) :
    Antichain r (topmost r as) := by
  induction as using List.reverseRecOn with
  | nil => exact List.Pairwise.nil
  | append_singleton as a ih =>
    rw [topmost, List.foldl_append]
    exact antichain_insert hforest ih

/-- After a pass, an entry or the new one still has an entry above it. -/
theorem exists_above_insert (h : x ∈ l ∨ x = a) : ∃ z ∈ insert r a l, r x z := by
  induction l with
  | nil =>
    obtain rfl : x = a := by simpa using h
    exact ⟨x, List.mem_singleton.mpr rfl, refl_of r x⟩
  | cons y ys ih =>
    rw [insert]
    split_ifs with hya hay
    · rcases h with h | rfl
      · rcases List.mem_cons.mp h with rfl | h
        · exact ⟨a, List.mem_cons_self, hya⟩
        · exact ⟨x, List.mem_cons_of_mem a h, refl_of r x⟩
      · exact ⟨x, List.mem_cons_self, refl_of r x⟩
    · rcases h with h | rfl
      · exact ⟨x, h, refl_of r x⟩
      · exact ⟨y, List.mem_cons_self, hay⟩
    · have hcase : x = y ∨ x ∈ ys ∨ x = a := by
        rcases h with h | h
        · exact (List.mem_cons.mp h).imp_right Or.inl
        · exact Or.inr (Or.inr h)
      rcases hcase with rfl | h
      · exact ⟨x, List.mem_cons_self, refl_of r x⟩
      · obtain ⟨z, hz, hxz⟩ := ih h
        exact ⟨z, List.mem_cons_of_mem y hz, hxz⟩

/-- Every element has a topmost one above it. -/
theorem exists_above (h : x ∈ as) : ∃ z ∈ topmost r as, r x z := by
  induction as using List.reverseRecOn generalizing x with
  | nil => cases h
  | append_singleton as a ih =>
    have hins : topmost r (as ++ [a]) = insert r a (topmost r as) := List.foldl_append
    rw [hins]
    rcases List.mem_append.mp h with h | h
    · obtain ⟨y, hy, hxy⟩ := ih h
      obtain ⟨z, hz, hyz⟩ := exists_above_insert (r := r) (a := a) (Or.inl hy)
      exact ⟨z, hz, trans_of r hxy hyz⟩
    · exact exists_above_insert (Or.inr (List.mem_singleton.mp h))

/-- **The list holds the topmost elements.** -/
theorem mem_topmost_iff (hforest : ∀ a b c, r a c → r b c → r a b ∨ r b a) :
    b ∈ topmost r as ↔ b ∈ as ∧ ∀ a ∈ as, r b a → a = b := by
  induction as using List.reverseRecOn generalizing b with
  | nil => simp [topmost]
  | append_singleton as a ih =>
    have hins : topmost r (as ++ [a]) = insert r a (topmost r as) := List.foldl_append
    rw [hins, mem_insert_iff hforest (antichain_topmost hforest as), ih]
    constructor
    · rintro (⟨⟨hb, htop⟩, hba⟩ | ⟨rfl, h⟩)
      · refine ⟨List.mem_append_left _ hb, ?_⟩
        intro y hy hby
        rcases List.mem_append.mp hy with hy | hy
        · exact htop y hy hby
        · obtain rfl := List.mem_singleton.mp hy
          exact (hba hby).symm
      · refine ⟨by simp, ?_⟩
        intro y hy hby
        rcases List.mem_append.mp hy with hy | hy
        · obtain ⟨z, hz, hyz⟩ := exists_above (r := r) hy
          have hzb := h z hz (trans_of r hby hyz)
          rw [hzb] at hyz
          exact antisymm_of r hyz hby
        · exact List.mem_singleton.mp hy
    · rintro ⟨hb, htop⟩
      have hba : r b a → b = a := fun h => (htop a (by simp) h).symm
      rcases List.mem_append.mp hb with hb | hb
      · exact Or.inl ⟨⟨hb, fun y hy => htop y (List.mem_append_left _ hy)⟩, hba⟩
      · obtain rfl := List.mem_singleton.mp hb
        refine Or.inr ⟨rfl, ?_⟩
        intro y hy hby
        exact htop y (List.mem_append_left _ (ih.mp hy).1) hby

theorem topmost_nodup (hforest : ∀ a b c, r a c → r b c → r a b ∨ r b a) (as : List α) :
    (topmost r as).Nodup := by
  refine (antichain_topmost hforest as).imp ?_
  rintro x y h rfl
  exact h.1 (refl_of r x)

end Forest
