import Mathlib

/-!
# Comparators of sorting functions

A comparator says which of two elements goes first. Sorting is defined where it is a strict weak
order on the elements of the list.

Results:
* `strictWeakOn_iff`: an asymmetric comparator is one exactly if not going first is transitive.
* `tolerant_iff`: the exact condition for a comparator that takes close scores for equal and goes by
  a second quantity then.
* `byKey_strictWeakOn`: to go by a key is one.
-/

namespace WeakOrder

variable {α : Type*} {before : α → α → Bool} {l : List α}

/-- The comparator is a strict weak order on the elements of the list. -/
structure StrictWeakOn (before : α → α → Bool) (l : List α) : Prop where
  irrefl : ∀ a ∈ l, before a a = false
  trans : ∀ a ∈ l, ∀ b ∈ l, ∀ c ∈ l, before a b = true → before b c = true → before a c = true
  incomp : ∀ a ∈ l, ∀ b ∈ l, ∀ c ∈ l, before a b = false → before b a = false →
    before b c = false → before c b = false → before a c = false

/-- Not to go before is transitive. -/
def NegTransOn (before : α → α → Bool) (l : List α) : Prop :=
  ∀ a ∈ l, ∀ b ∈ l, ∀ c ∈ l, before a b = false → before b c = false → before a c = false

theorem StrictWeakOn.negTransOn (h : StrictWeakOn before l) : NegTransOn before l := by
  intro a ha b hb c hc hab hbc
  by_contra hac
  rw [Bool.not_eq_false] at hac
  cases hba : before b a with
  | true =>
    rw [h.trans b hb a ha c hc hba hac] at hbc
    cases hbc
  | false =>
    cases hcb : before c b with
    | true =>
      rw [h.trans a ha c hc b hb hac hcb] at hab
      cases hab
    | false =>
      rw [h.incomp a ha b hb c hc hab hba hbc hcb] at hac
      cases hac

theorem strictWeakOn_iff (hasymm : ∀ a b, before a b = true → before b a = false) :
    StrictWeakOn before l ↔ NegTransOn before l := by
  refine ⟨fun h => h.negTransOn, fun h => ⟨?_, ?_, ?_⟩⟩
  · intro a ha
    by_contra haa
    rw [Bool.not_eq_false] at haa
    rw [hasymm a a haa] at haa
    cases haa
  · intro a ha b hb c hc hab hbc
    by_contra hac
    rw [Bool.not_eq_true] at hac
    rw [h a ha c hc b hb hac (hasymm b c hbc)] at hab
    cases hab
  · intro a ha b hb c hc hab _ hbc _
    exact h a ha b hb c hc hab hbc

theorem StrictWeakOn.of_subset {l' : List α} (h : StrictWeakOn before l) (hl : l' ⊆ l) :
    StrictWeakOn before l' where
  irrefl a ha := h.irrefl a (hl ha)
  trans a ha b hb c hc := h.trans a (hl ha) b (hl hb) c (hl hc)
  incomp a ha b hb c hc := h.incomp a (hl ha) b (hl hb) c (hl hc)

/-! ## Sorting functions -/

/-- A sorting function, stable or not: on a strict weak order it permutes the list, and then no
element goes behind one it has to precede. Of other comparators nothing is said. -/
structure Sorter (α : Type*) where
  sort : (α → α → Bool) → List α → List α
  perm : ∀ {before : α → α → Bool} {l : List α}, StrictWeakOn before l → (sort before l).Perm l
  ordered : ∀ {before : α → α → Bool} {l : List α}, StrictWeakOn before l →
    (sort before l).Pairwise fun a b => before b a = false

/-- Merge sort by a comparator. -/
def mergeBy (before : α → α → Bool) (l : List α) : List α := l.mergeSort fun a b => !before b a

@[simp] theorem mergeBy_nil (before : α → α → Bool) : mergeBy before [] = [] := List.mergeSort_nil

theorem mergeBy_perm (before : α → α → Bool) (l : List α) : (mergeBy before l).Perm l :=
  List.mergeSort_perm l _

theorem mergeBy_ordered (hasymm : ∀ a b, before a b = true → before b a = false)
    (h : ∀ l, StrictWeakOn before l) (l : List α) :
    (mergeBy before l).Pairwise fun a b => before b a = false := by
  have hsorted := @List.pairwise_mergeSort α (fun a b => !before b a)
    (fun a b c hab hbc => by
      simp only [Bool.not_eq_true'] at hab hbc ⊢
      exact (h [a, b, c]).negTransOn c (by simp) b (by simp) a (by simp) hbc hab)
    (fun a b => by
      cases hab : before a b with
      | false => simp
      | true => simp [hasymm a b hab]) l
  exact hsorted.imp fun hab => by simpa using hab

/-- Merge sort is a sorting function. -/
def Sorter.merge : Sorter α where
  sort before l := (mergeBy (fun a b : { x // x ∈ l } => before a b) l.attach).map (·.1)
  perm := by
    intro before l _
    refine ((mergeBy_perm _ l.attach).map _).trans ?_
    rw [List.attach_map_subtype_val]
  ordered := by
    intro before l h
    rw [List.pairwise_map]
    have hneg := h.negTransOn
    have hasymm : ∀ a b : { x // x ∈ l }, before a b = true → before b a = false := by
      intro a b hab
      by_contra hba
      rw [Bool.not_eq_false] at hba
      have haa := h.trans a a.2 b b.2 a a.2 hab hba
      rw [h.irrefl a a.2] at haa
      cases haa
    refine mergeBy_ordered hasymm ?_ l.attach
    intro l'
    rw [strictWeakOn_iff hasymm]
    exact fun a _ b _ c _ => hneg a a.2 b b.2 c c.2

/-! ## Two ways to compare -/

/-- Whoever has the greater key goes first. -/
def byKey {κ : Type*} [LT κ] [DecidableLT κ] (key : α → κ) (a b : α) : Bool :=
  decide (key b < key a)

theorem byKey_asymm {κ : Type*} [LinearOrder κ] (key : α → κ) (a b : α)
    (h : byKey key a b = true) : byKey key b a = false := by
  simp only [byKey, decide_eq_true_eq, decide_eq_false_iff_not, not_lt] at h ⊢
  exact h.le

theorem byKey_strictWeakOn {κ : Type*} [LinearOrder κ] (key : α → κ) (l : List α) :
    StrictWeakOn (byKey key) l := by
  rw [strictWeakOn_iff (byKey_asymm key)]
  intro a _ b _ c _ hab hbc
  simp only [byKey, decide_eq_false_iff_not, not_lt] at hab hbc ⊢
  exact hab.trans hbc

section tolerance

variable {𝕜 κ : Type*} [Field 𝕜] [LinearOrder 𝕜] [IsStrictOrderedRing 𝕜] [LinearOrder κ]
  {t : 𝕜} {score : α → 𝕜} {handicap : α → κ}

/-- The greater score goes first, where the two differ by more than `t`; else the smaller
handicap. -/
def tolerant (t : 𝕜) (score : α → 𝕜) (handicap : α → κ) (a b : α) : Bool :=
  if t < |score a - score b| then decide (score b < score a) else decide (handicap a < handicap b)

theorem tolerant_eq_false (ht : 0 ≤ t) {a b : α} : tolerant t score handicap a b = false ↔
    score a ≤ score b + t ∧ (score b ≤ score a + t → handicap b ≤ handicap a) := by
  unfold tolerant
  split
  · rename_i hfar
    rw [decide_eq_false_iff_not, not_lt]
    rcases lt_abs.mp hfar with hlt | hlt
    · exact ⟨fun h => by linarith, fun h => by linarith [h.1]⟩
    · exact ⟨fun h => ⟨by linarith, fun h' => by linarith⟩, fun _ => by linarith⟩
  · rename_i hnear
    rw [not_lt, abs_le] at hnear
    rw [decide_eq_false_iff_not, not_lt]
    exact ⟨fun h => ⟨by linarith, fun _ => h⟩, fun h => h.2 (by linarith)⟩

omit [IsStrictOrderedRing 𝕜] in
theorem tolerant_asymm (a b : α) (h : tolerant t score handicap a b = true) :
    tolerant t score handicap b a = false := by
  by_contra hba
  rw [Bool.not_eq_false] at hba
  unfold tolerant at h hba
  rw [abs_sub_comm (score b)] at hba
  split at h
  · rename_i hfar
    rw [if_pos hfar, decide_eq_true_eq] at hba
    rw [decide_eq_true_eq] at h
    exact lt_asymm h hba
  · rename_i hnear
    rw [if_neg hnear, decide_eq_true_eq] at hba
    rw [decide_eq_true_eq] at h
    exact lt_asymm h hba

/-- **The tolerance is harmless exactly if no chain of two close pairs, along which the handicap
does not grow, leads down by more than the tolerance.** -/
theorem tolerant_iff (ht : 0 ≤ t) :
    StrictWeakOn (tolerant t score handicap) l ↔
      ∀ a ∈ l, ∀ b ∈ l, ∀ c ∈ l, |score a - score b| ≤ t → |score b - score c| ≤ t →
        handicap b ≤ handicap a → handicap c ≤ handicap b → score a ≤ score c + t := by
  rw [strictWeakOn_iff tolerant_asymm]
  simp only [NegTransOn, tolerant_eq_false ht, abs_le]
  constructor
  · intro h a ha b hb c hc hab hbc hiab hibc
    exact (h a ha b hb c hc ⟨by linarith, fun _ => hiab⟩ ⟨by linarith, fun _ => hibc⟩).1
  · intro h a ha b hb c hc hab hbc
    by_cases hnear₁ : score b ≤ score a + t
    · by_cases hnear₂ : score c ≤ score b + t
      · -- both pairs are close
        have hiab := hab.2 hnear₁
        have hibc := hbc.2 hnear₂
        refine ⟨h a ha b hb c hc ⟨by linarith, by linarith [hab.1]⟩ ⟨by linarith, by linarith [hbc.1]⟩
          hiab hibc, fun _ => hibc.trans hiab⟩
      · -- the second goes up by more than the tolerance
        rw [not_le] at hnear₂
        refine ⟨by linarith [hab.1], fun hca => ?_⟩
        by_contra hlt
        rw [not_le] at hlt
        have hbad := h c hc a ha b hb ⟨by linarith [hab.1], by linarith⟩
          ⟨by linarith [hab.1], by linarith [hab.1]⟩ hlt.le (hab.2 hnear₁)
        linarith
    · rw [not_le] at hnear₁
      refine ⟨by linarith [hbc.1], fun hca => ?_⟩
      by_contra hlt
      rw [not_le] at hlt
      have hbc' := hbc.2 (by linarith)
      have hbad := h b hb c hc a ha ⟨by linarith, by linarith [hbc.1]⟩
        ⟨by linarith [hbc.1], by linarith [hbc.1]⟩ hbc' hlt.le
      linarith

end tolerance

end WeakOrder
