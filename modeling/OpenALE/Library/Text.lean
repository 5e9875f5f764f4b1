import OpenALE.Library.Decimal

/-!
# Words of a line, and the numbers they stand for

`tokens` is what a reader of a line sees that skips separators, `stoul` and `stoi` read a number
from the front of a word as the C++ library does.

Results:
* `tokens_append_cons`: a separator splits the words of a line.
* `tokens_intercalate`: words set apart by single separators are read back.
* `stoul_digits`, `stoi_digits`: a numeral is read as its number.
-/

namespace Text

section tokens

variable {α : Type*} {sep : α → Bool} {l l' t : List α} {c : α}

/-- The maximal pieces without a separator. -/
def tokens (sep : α → Bool) (l : List α) : List (List α) :=
  (l.splitOnP sep).filter fun t => !t.isEmpty

@[simp] theorem tokens_nil : tokens sep [] = [] := rfl

theorem tokens_append_cons (hc : sep c = true) :
    tokens sep (l ++ c :: l') = tokens sep l ++ tokens sep l' := by
  unfold tokens
  rw [List.splitOnP_append_cons l l' hc, List.filter_append]

theorem tokens_cons (hc : sep c = true) : tokens sep (c :: l) = tokens sep l :=
  tokens_append_cons (l := []) hc

theorem tokens_concat (hc : sep c = true) : tokens sep (l ++ [c]) = tokens sep l := by
  rw [tokens_append_cons hc, tokens_nil, List.append_nil]

theorem tokens_word (ht : t ≠ []) (hsep : ∀ c ∈ t, sep c = false) : tokens sep t = [t] := by
  unfold tokens
  rw [List.splitOnP_eq_singleton hsep]
  simpa using ht

theorem mem_splitOnP (h : t ∈ l.splitOnP sep) : ∀ c ∈ t, sep c = false ∧ c ∈ l := by
  induction l generalizing t with
  | nil =>
    rw [List.splitOnP_nil, List.mem_singleton] at h
    subst h
    simp
  | cons x l ih =>
    rw [List.splitOnP_cons_eq_if_modifyHead] at h
    split at h
    · obtain rfl | h := List.mem_cons.mp h
      · simp
      · exact fun c hc => ⟨(ih h c hc).1, List.mem_cons_of_mem _ (ih h c hc).2⟩
    · rename_i hx
      cases hs : l.splitOnP sep with
      | nil => exact absurd hs (List.splitOnP_ne_nil sep l)
      | cons u us =>
        rw [hs, List.modifyHead_cons] at h
        rw [hs] at ih
        obtain rfl | h := List.mem_cons.mp h
        · intro c hc
          obtain rfl | hc := List.mem_cons.mp hc
          · exact ⟨by simpa using hx, List.mem_cons_self⟩
          · have hu := ih List.mem_cons_self c hc
            exact ⟨hu.1, List.mem_cons_of_mem _ hu.2⟩
        · intro c hc
          have hu := ih (List.mem_cons_of_mem _ h) c hc
          exact ⟨hu.1, List.mem_cons_of_mem _ hu.2⟩

theorem mem_tokens (h : t ∈ tokens sep l) : t ≠ [] ∧ ∀ c ∈ t, sep c = false ∧ c ∈ l := by
  obtain ⟨hmem, hne⟩ := List.mem_filter.mp h
  exact ⟨by simpa using hne, mem_splitOnP hmem⟩

/-- Words set apart by single separators. -/
theorem tokens_intercalate (hc : sep c = true) {ts : List (List α)}
    (h : ∀ t ∈ ts, t ≠ [] ∧ ∀ x ∈ t, sep x = false) :
    tokens sep (List.intercalate [c] ts) = ts := by
  induction ts with
  | nil => rfl
  | cons t ts ih =>
    have ht := h t List.mem_cons_self
    have hts := ih fun u hu => h u (List.mem_cons_of_mem _ hu)
    cases ts with
    | nil => rw [List.intercalate_singleton, tokens_word ht.1 ht.2]
    | cons u us =>
      rw [List.intercalate_cons_cons, List.append_assoc, List.singleton_append,
        tokens_append_cons hc, tokens_word ht.1 ht.2, hts, List.singleton_append]

theorem mem_intercalate {ts : List (List α)} {x : α} (h : x ∈ List.intercalate [c] ts) :
    x = c ∨ ∃ t ∈ ts, x ∈ t := by
  induction ts with
  | nil => cases h
  | cons t ts ih =>
    cases ts with
    | nil =>
      rw [List.intercalate_singleton] at h
      exact .inr ⟨t, List.mem_cons_self, h⟩
    | cons u us =>
      rw [List.intercalate_cons_cons, List.mem_append, List.mem_append, List.mem_singleton] at h
      obtain (hx | rfl) | hx := h
      · exact .inr ⟨t, List.mem_cons_self, hx⟩
      · exact .inl rfl
      · exact (ih hx).imp_right fun ⟨v, hv, hxv⟩ => ⟨v, List.mem_cons_of_mem _ hv, hxv⟩

section trim

variable {q : α → Bool} (hq : ∀ c, q c = true → sep c = true)
include hq

theorem tokens_dropWhile (l : List α) : tokens sep (l.dropWhile q) = tokens sep l := by
  induction l with
  | nil => rfl
  | cons c l ih =>
    by_cases hc : q c = true
    · rw [List.dropWhile_cons_of_pos hc, ih, tokens_cons (hq c hc)]
    · rw [List.dropWhile_cons_of_neg hc]

theorem tokens_rdropWhile (l : List α) : tokens sep (l.rdropWhile q) = tokens sep l := by
  induction l using List.reverseRecOn with
  | nil => rfl
  | append_singleton l c ih =>
    by_cases hc : q c = true
    · rw [List.rdropWhile_concat_pos q l c hc, ih, tokens_concat (hq c hc)]
    · rw [List.rdropWhile_concat_neg q l c hc]

end trim

end tokens

/-! ## Numbers -/

/-- White space of the C locale. -/
def isSpace (c : Char) : Bool := c.toNat == 32 || (9 ≤ c.toNat && c.toNat ≤ 13)

/-- What `strtol` and `strtoul` see: the sign, and the digits behind it. -/
def scan (s : List Char) : Bool × List Char :=
  match s.dropWhile isSpace with
  | '-' :: t => (true, t.takeWhile Char.isDigit)
  | '+' :: t => (false, t.takeWhile Char.isDigit)
  | t => (false, t.takeWhile Char.isDigit)

/-- `std::stoul`, of 64 bits; `none` where it throws. -/
def stoul (s : List Char) : Option Nat :=
  let (negative, ds) := scan s
  if ds = [] then none
  else if 2 ^ 64 ≤ Decimal.value ds then none
  else some (if negative then (2 ^ 64 - Decimal.value ds) % 2 ^ 64 else Decimal.value ds)

/-- `std::stoi`, of 32 bits; `none` where it throws. -/
def stoi (s : List Char) : Option Int :=
  let (negative, ds) := scan s
  if ds = [] then none
  else
    let v : Int := if negative then -Decimal.value ds else Decimal.value ds
    if v < -2 ^ 31 ∨ 2 ^ 31 ≤ v then none else some v

theorem isSpace_of_isDigit {c : Char} (h : c.isDigit = true) : isSpace c = false := by
  simp only [Char.isDigit, Bool.and_eq_true, decide_eq_true_eq, ge_iff_le] at h
  have hlow : 48 ≤ c.toNat := h.1
  unfold isSpace
  simp only [Bool.or_eq_false_iff, beq_eq_false_iff_ne, ne_eq, Bool.and_eq_false_iff,
    decide_eq_false_iff_not]
  omega

theorem scan_of_digits {ds : List Char} (h : ∀ c ∈ ds, c.isDigit = true) : scan ds = (false, ds) := by
  cases ds with
  | nil => rfl
  | cons c cs =>
    have hc := h c List.mem_cons_self
    have hdrop : (c :: cs).dropWhile isSpace = c :: cs :=
      List.dropWhile_cons_of_neg (by rw [isSpace_of_isDigit hc]; decide)
    have htake : (c :: cs).takeWhile Char.isDigit = c :: cs :=
      List.takeWhile_eq_self_iff.mpr h
    unfold scan
    rw [hdrop]
    split
    · rename_i heq
      cases heq
      exact absurd hc (by decide)
    · rename_i heq
      cases heq
      exact absurd hc (by decide)
    · rw [htake]

theorem stoul_digits {n : Nat} (h : n < 2 ^ 64) : stoul (Decimal.digits n) = some n := by
  unfold stoul
  rw [scan_of_digits fun _ => Decimal.isDigit_of_mem]
  simp only [Decimal.value_digits, if_neg (Decimal.digits_ne_nil n), if_neg (not_le.mpr h),
    Bool.false_eq_true, if_false]

theorem stoi_digits {n : Nat} (h : n < 2 ^ 31) : stoi (Decimal.digits n) = some (n : Int) := by
  unfold stoi
  rw [scan_of_digits fun _ => Decimal.isDigit_of_mem]
  have hfits : ¬ ((n : Int) < -2 ^ 31 ∨ 2 ^ 31 ≤ (n : Int)) := by omega
  simp only [Decimal.value_digits, if_neg (Decimal.digits_ne_nil n), Bool.false_eq_true, if_false,
    if_neg hfits]

end Text
