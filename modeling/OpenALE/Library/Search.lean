import Mathlib.Data.List.Infix
import Mathlib.Data.List.DropRight

/-!
# Searching a text for a pattern

`find pat text` is the index of the first occurrence of `pat` in `text`. What a search finds in a
text cut at a symbol that the pattern does not contain is found in one of the parts.

Results:
* `find_append_cons`: the search in `a ++ x :: b`.
* `find_drop`: the search behind a skipped beginning.
-/

namespace Search

variable {α : Type*} [DecidableEq α]

/-- The index of the first occurrence of `pat`. -/
def find (pat : List α) : List α → Option Nat
  | [] => if pat = [] then some 0 else none
  | c :: cs => if pat <+: c :: cs then some 0 else (find pat cs).map (· + 1)

variable {pat text a b : List α} {x : α} {n j : Nat}

theorem find_cons_of_here {c : α} (h : pat <+: c :: text) : find pat (c :: text) = some 0 :=
  if_pos h

theorem find_cons_of_elsewhere {c : α} (h : ¬ pat <+: c :: text) :
    find pat (c :: text) = (find pat text).map (· + 1) :=
  if_neg h

omit [DecidableEq α] in
/-- A pattern without `x` cannot reach past an `x`. -/
theorem prefix_append_cons (hx : x ∉ pat) : pat <+: a ++ x :: b ↔ pat <+: a := by
  constructor
  · intro h
    obtain hlen | hlen := Nat.le_total pat.length a.length
    · exact List.prefix_of_prefix_length_le h (List.prefix_append a _) hlen
    · have ha : a <+: pat := List.prefix_of_prefix_length_le (List.prefix_append a _) h hlen
      obtain ⟨t, rfl⟩ := ha
      cases t with
      | nil => simp
      | cons y t =>
        rw [List.prefix_append_right_inj, List.cons_prefix_cons] at h
        exact absurd (by simp [h.1]) hx
  · intro h
    exact h.trans (List.prefix_append a _)

/-- **The search in a text cut at a symbol.** -/
theorem find_append_cons (hne : pat ≠ []) (hx : x ∉ pat) :
    find pat (a ++ x :: b) = (find pat a).or ((find pat b).map (· + (a.length + 1))) := by
  induction a with
  | nil =>
    have hnot : ¬ pat <+: x :: b := by
      intro h
      have h' : pat <+: ([] : List α) := (prefix_append_cons (a := []) hx).mp h
      exact hne (List.prefix_nil.mp h')
    rw [List.nil_append, find_cons_of_elsewhere hnot]
    simp [find, hne]
  | cons c cs ih =>
    rw [List.cons_append]
    by_cases h : pat <+: c :: cs
    · have h' : pat <+: c :: (cs ++ x :: b) := h.trans (List.prefix_append (c :: cs) (x :: b))
      rw [find_cons_of_here h, find_cons_of_here h']
      rfl
    · have h' : ¬ pat <+: c :: (cs ++ x :: b) := fun hp => h ((prefix_append_cons hx).mp hp)
      rw [find_cons_of_elsewhere h, find_cons_of_elsewhere h', ih]
      cases find pat cs with
      | some i => rfl
      | none =>
        cases find pat b with
        | none => rfl
        | some i => simp [Nat.add_assoc]

/-- An occurrence lies inside the text. -/
theorem find_some_le (h : find pat text = some n) : n + pat.length ≤ text.length := by
  induction text generalizing n with
  | nil =>
    unfold find at h
    split at h
    · next hp => simpa [hp] using h.symm
    · cases h
  | cons c cs ih =>
    by_cases hp : pat <+: c :: cs
    · rw [find_cons_of_here hp] at h
      rw [← Option.some.inj h, Nat.zero_add]
      exact hp.length_le
    · rw [find_cons_of_elsewhere hp] at h
      obtain ⟨i, hi, rfl⟩ := Option.map_eq_some_iff.mp h
      have := ih hi
      rw [List.length_cons]
      omega

/-- The pattern stands at the index found. -/
theorem find_some_occurs (h : find pat text = some n) : pat <+: text.drop n := by
  induction text generalizing n with
  | nil =>
    unfold find at h
    split at h
    · next hp => simp [hp]
    · cases h
  | cons c cs ih =>
    by_cases hp : pat <+: c :: cs
    · rw [find_cons_of_here hp] at h
      rwa [← Option.some.inj h]
    · rw [find_cons_of_elsewhere hp] at h
      obtain ⟨i, hi, rfl⟩ := Option.map_eq_some_iff.mp h
      exact ih hi

/-- The search behind a beginning that does not reach the occurrence. -/
theorem find_drop (h : find pat text = some n) (hj : j ≤ n) :
    find pat (text.drop j) = some (n - j) := by
  induction j generalizing text n with
  | zero => exact h
  | succ j ih =>
    cases text with
    | nil =>
      unfold find at h
      split at h
      · obtain rfl := Option.some.inj h
        omega
      · cases h
    | cons c cs =>
      by_cases hp : pat <+: c :: cs
      · rw [find_cons_of_here hp] at h
        obtain rfl := Option.some.inj h
        omega
      · rw [find_cons_of_elsewhere hp] at h
        obtain ⟨i, hi, rfl⟩ := Option.map_eq_some_iff.mp h
        rw [List.drop_succ_cons, ih hi (by omega)]
        congr 1
        omega

/-- What is not found is not found behind a beginning either. -/
theorem find_drop_none (h : find pat text = none) (j : Nat) : find pat (text.drop j) = none := by
  induction j generalizing text with
  | zero => exact h
  | succ j ih =>
    cases text with
    | nil => exact h
    | cons c cs =>
      by_cases hp : pat <+: c :: cs
      · rw [find_cons_of_here hp] at h
        cases h
      · rw [find_cons_of_elsewhere hp] at h
        exact ih (Option.map_eq_none_iff.mp h)

end Search
