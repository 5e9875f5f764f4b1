import OpenALE.Library.Text

/-!
# Floating-point numbers at the front of a text

`strtod` finds the longest number at the front of a text: decimal or hexadecimal, infinity or not a
number. `std::stod` throws where there is none or where its value is out of range; what the range
is, and the double of a value, belongs to the `Doubles` at hand.

Results:
* `stod_digits`, `stod_point`: a numeral without sign and exponent is read as its value.
* `stod_neg`: the same behind a minus.
-/

namespace Strtod

/-- A number without its sign. -/
inductive Magnitude where
  | nan
  | inf
  | finite (q : ℚ)
  deriving DecidableEq

/-- The digits behind a point, and what follows. -/
def behindPoint (isDigit : Char → Bool) : List Char → List Char × List Char
  | '.' :: t => (t.takeWhile isDigit, t.dropWhile isDigit)
  | t => ([], t)

/-- The digits before and behind the point, and what follows; a number has one at least. -/
def mantissa (isDigit : Char → Bool) (s : List Char) :
    Option (List Char × List Char × List Char) :=
  let int := s.takeWhile isDigit
  let fraction := behindPoint isDigit (s.dropWhile isDigit)
  if int = [] ∧ fraction.1 = [] then none else some (int, fraction.1, fraction.2)

/-- The exponent behind one of two marks; 0 where there is none. -/
def exponent (mark mark' : Char) : List Char → ℤ
  | c :: t =>
    if c = mark ∨ c = mark' then
      match t with
      | '-' :: u => -Decimal.value (u.takeWhile Char.isDigit)
      | '+' :: u => Decimal.value (u.takeWhile Char.isDigit)
      | u => Decimal.value (u.takeWhile Char.isDigit)
    else 0
  | [] => 0

/-- A decimal number. -/
def decimal (s : List Char) : Option ℚ :=
  (mantissa Char.isDigit s).map fun (int, frac, rest) =>
    Decimal.value (int ++ frac) * 10 ^ (exponent 'e' 'E' rest - frac.length)

def isHexDigit (c : Char) : Bool :=
  c.isDigit || ('a' ≤ c.toLower && c.toLower ≤ 'f')

/-- The value of a hexadecimal digit. -/
def hexDigit (c : Char) : Nat :=
  if c.isDigit then c.toNat - 48 else c.toLower.toNat - 87

/-- A hexadecimal number behind its `0x`. -/
def hexadecimal (s : List Char) : Option ℚ :=
  (mantissa isHexDigit s).map fun (int, frac, rest) =>
    ((int ++ frac).foldl (fun n c => 16 * n + hexDigit c) 0 : Nat) *
      2 ^ (exponent 'p' 'P' rest - 4 * frac.length)

/-- What a text behind its sign begins with. -/
def magnitude (s : List Char) : Option Magnitude :=
  if (s.take 3).map Char.toLower = ['i', 'n', 'f'] then some .inf
  else if (s.take 3).map Char.toLower = ['n', 'a', 'n'] then some .nan
  else
    match s with
    | '0' :: x :: t =>
      if x.toLower = 'x' then ((hexadecimal t).orElse fun _ => some 0).map .finite
      else (decimal s).map .finite
    | _ => (decimal s).map .finite

/-- `strtod`: whether the number has a minus, and its magnitude. -/
def strtod (s : List Char) : Option (Bool × Magnitude) :=
  match s.dropWhile Text.isSpace with
  | '-' :: t => (magnitude t).map (true, ·)
  | '+' :: t => (magnitude t).map (false, ·)
  | t => (magnitude t).map (false, ·)

/-- Doubles, with the magnitudes that do not make `strtod` report a range error. -/
structure Doubles (D : Type) where
  inRange : ℚ → Bool
  ofRat : ℚ → D
  inf : D
  nan : D
  neg : D → D

variable {D : Type}

/-- Whether a magnitude is in range. -/
def Doubles.fits (E : Doubles D) : Magnitude → Bool
  | .finite q => E.inRange q
  | _ => true

def Doubles.ofMagnitude (E : Doubles D) : Magnitude → D
  | .nan => E.nan
  | .inf => E.inf
  | .finite q => E.ofRat q

/-- `std::stod`; `none` where it throws. -/
def stod (E : Doubles D) (s : List Char) : Option D :=
  match strtod s with
  | none => none
  | some (negative, m) =>
    if E.fits m then
      some (if negative then E.neg (E.ofMagnitude m) else E.ofMagnitude m)
    else none

/-- A text begins with a number that is in range. -/
def Doubles.Reads (E : Doubles D) (s : List Char) : Prop :=
  ∃ number, strtod s = some number ∧ E.fits number.2 = true

variable {E : Doubles D} {int frac : List Char}

/-- `std::stod` does not throw if it reads a number. -/
theorem stod_isSome_iff {s : List Char} : (∃ d, stod E s = some d) ↔ E.Reads s := by
  unfold stod Doubles.Reads
  cases strtod s with
  | none => simp
  | some number =>
    by_cases hfits : E.fits number.2 = true <;> simp [hfits]

/-! ## Numerals -/

/-- Where a list of digits ends. -/
theorem span_digits {ds rest : List Char} (h : ∀ c ∈ ds, c.isDigit = true)
    (hrest : ∀ c ∈ rest.head?, c.isDigit = false) :
    (ds ++ rest).takeWhile Char.isDigit = ds ∧ (ds ++ rest).dropWhile Char.isDigit = rest := by
  rw [List.takeWhile_append_of_pos h, List.dropWhile_append_of_pos h]
  cases rest with
  | nil => exact ⟨List.append_nil _, rfl⟩
  | cons c rest =>
    have hc := hrest c rfl
    rw [List.takeWhile_cons_of_neg (by rw [hc]; decide),
      List.dropWhile_cons_of_neg (by rw [hc]; decide)]
    exact ⟨List.append_nil _, rfl⟩

theorem mantissa_digits {rest : List Char} (h : ∀ c ∈ int, c.isDigit = true) (hne : int ≠ [])
    (hrest : ∀ c ∈ rest.head?, c.isDigit = false ∧ c ≠ '.') :
    mantissa Char.isDigit (int ++ rest) = some (int, [], rest) := by
  obtain ⟨htake, hdrop⟩ := span_digits h fun c hc => (hrest c hc).1
  have hbehind : behindPoint Char.isDigit rest = ([], rest) := by
    cases rest with
    | nil => rfl
    | cons c rest =>
      unfold behindPoint
      split
      · rename_i heq
        cases heq
        exact absurd rfl (hrest '.' rfl).2
      · rfl
  rw [mantissa, htake, hdrop, hbehind]
  exact if_neg fun hnil => hne hnil.1

theorem mantissa_point {rest : List Char} (h : ∀ c ∈ int, c.isDigit = true) (hne : int ≠ [])
    (hfrac : ∀ c ∈ frac, c.isDigit = true) (hrest : ∀ c ∈ rest.head?, c.isDigit = false) :
    mantissa Char.isDigit (int ++ '.' :: (frac ++ rest)) = some (int, frac, rest) := by
  obtain ⟨htake, hdrop⟩ := @span_digits int ('.' :: (frac ++ rest)) h fun c hc => by
    obtain rfl := Option.some.inj hc
    rfl
  obtain ⟨htake', hdrop'⟩ := span_digits hfrac hrest
  have hbehind : behindPoint Char.isDigit ('.' :: (frac ++ rest)) = (frac, rest) := by
    rw [behindPoint, htake', hdrop']
  rw [mantissa, htake, hdrop, hbehind]
  exact if_neg fun hnil => hne hnil.1

/-- A digit is no letter. -/
theorem toLower_of_isDigit {c : Char} (h : c.isDigit = true) : c.toLower = c := by
  simp only [Char.isDigit, Bool.and_eq_true, decide_eq_true_eq, ge_iff_le] at h
  have hhigh : c.val.toNat ≤ 57 := UInt32.le_iff_toNat_le.mp h.2
  rw [Char.toLower, dif_neg]
  rintro ⟨hupper, -⟩
  have hlow : 65 ≤ c.val.toNat := UInt32.le_iff_toNat_le.mp hupper
  omega

/-- A text that begins with a digit and has no mark of a base is decimal. -/
theorem magnitude_of_digit {c : Char} {s : List Char} (hc : c.isDigit = true)
    (hx : ∀ x ∈ s.head?, x.toLower ≠ 'x') :
    magnitude (c :: s) = (decimal (c :: s)).map .finite := by
  have hword {x y z : Char} (hd : x.isDigit = false) :
      ((c :: s).take 3).map Char.toLower ≠ [x, y, z] := by
    intro heq
    rw [List.take_succ_cons, List.map_cons, List.cons.injEq, toLower_of_isDigit hc] at heq
    rw [← heq.1, hc] at hd
    cases hd
  unfold magnitude
  rw [if_neg (hword (by decide)), if_neg (hword (by decide))]
  cases s with
  | nil =>
    split
    · rename_i heq
      cases heq
    · rfl
  | cons x s =>
    split
    · rename_i heq
      cases heq
      rw [if_neg (hx x rfl)]
    · rfl

/-- A digit, a point and the mark of an exponent are no mark of a base. -/
theorem toLower_ne_x {c : Char} (h : c.isDigit = true ∨ c = '.' ∨ c = 'e') : c.toLower ≠ 'x' := by
  obtain hdigit | rfl | rfl := h
  · rw [toLower_of_isDigit hdigit]
    rintro rfl
    cases hdigit
  · decide
  · decide

/-- The value of a numeral with a point. -/
def fixed (int frac : List Char) : ℚ := Decimal.value (int ++ frac) * 10 ^ (-(frac.length : ℤ))

theorem decimal_digits {rest : List Char} (h : ∀ c ∈ int, c.isDigit = true) (hne : int ≠ [])
    (hrest : ∀ c ∈ rest.head?, c.isDigit = false ∧ c ≠ '.') :
    decimal (int ++ rest) = some ((Decimal.value int : ℚ) * 10 ^ exponent 'e' 'E' rest) := by
  rw [decimal, mantissa_digits h hne hrest]
  simp

theorem decimal_point {rest : List Char} (h : ∀ c ∈ int, c.isDigit = true) (hne : int ≠ [])
    (hfrac : ∀ c ∈ frac, c.isDigit = true) (hrest : ∀ c ∈ rest.head?, c.isDigit = false) :
    decimal (int ++ '.' :: (frac ++ rest)) = some (fixed int frac * 10 ^ exponent 'e' 'E' rest) := by
  rw [decimal, mantissa_point h hne hfrac hrest, Option.map_some]
  dsimp only
  rw [fixed, mul_assoc, ← zpow_add₀ (by norm_num)]
  congr 3
  ring

theorem magnitude_digits (h : ∀ c ∈ int, c.isDigit = true) (hne : int ≠ []) :
    magnitude int = some (.finite (Decimal.value int)) := by
  have hdecimal := @decimal_digits int [] h hne (by simp)
  have hexponent : exponent 'e' 'E' [] = 0 := rfl
  rw [List.append_nil, hexponent, zpow_zero, mul_one] at hdecimal
  cases int with
  | nil => exact absurd rfl hne
  | cons c cs =>
    rw [List.forall_mem_cons] at h
    rw [magnitude_of_digit h.1 fun x hx => toLower_ne_x (.inl (h.2 x (List.mem_of_mem_head? hx))),
      hdecimal]
    rfl

theorem magnitude_point (h : ∀ c ∈ int, c.isDigit = true) (hne : int ≠ [])
    (hfrac : ∀ c ∈ frac, c.isDigit = true) :
    magnitude (int ++ '.' :: frac) = some (.finite (fixed int frac)) := by
  have hdecimal := @decimal_point int frac [] h hne hfrac (by simp)
  have hexponent : exponent 'e' 'E' [] = 0 := rfl
  rw [List.append_nil, hexponent, zpow_zero, mul_one] at hdecimal
  cases int with
  | nil => exact absurd rfl hne
  | cons c cs =>
    rw [List.forall_mem_cons] at h
    have hnext : ∀ x ∈ (cs ++ '.' :: frac).head?, x.toLower ≠ 'x' := by
      intro x hx
      cases cs with
      | nil => exact toLower_ne_x (.inr (.inl (Option.some.inj hx).symm))
      | cons d ds => exact toLower_ne_x (.inl (h.2 x (List.mem_of_mem_head? hx)))
    rw [List.cons_append, magnitude_of_digit h.1 hnext]
    rw [List.cons_append] at hdecimal
    rw [hdecimal]
    rfl

/-- Behind no space and no sign stands the magnitude. -/
theorem strtod_of_digit {c : Char} {s : List Char} (hc : c.isDigit = true) :
    strtod (c :: s) = (magnitude (c :: s)).map (false, ·) := by
  have hdrop : (c :: s).dropWhile Text.isSpace = c :: s :=
    List.dropWhile_cons_of_neg (by rw [Text.isSpace_of_isDigit hc]; decide)
  unfold strtod
  rw [hdrop]
  split
  · rename_i heq
    cases heq
    cases hc
  · rename_i heq
    cases heq
    cases hc
  · rfl

theorem strtod_minus (s : List Char) : strtod ('-' :: s) = (magnitude s).map (true, ·) := rfl

/-- **A numeral** is read as its value, if that is in range. -/
theorem stod_of_magnitude {s : List Char} {q : ℚ} {negative : Bool}
    (h : strtod s = some (negative, .finite q)) : stod E s =
      if E.inRange q then some (if negative then E.neg (E.ofRat q) else E.ofRat q) else none := by
  rw [stod, h]
  rfl

theorem stod_digits (h : ∀ c ∈ int, c.isDigit = true) (hne : int ≠ []) :
    stod E int = if E.inRange (Decimal.value int) then some (E.ofRat (Decimal.value int)) else none := by
  have hmagnitude := magnitude_digits h hne
  cases int with
  | nil => exact absurd rfl hne
  | cons c cs =>
    have hstrtod : strtod (c :: cs) = some (false, .finite (Decimal.value (c :: cs))) := by
      rw [strtod_of_digit (h c List.mem_cons_self), hmagnitude]
      rfl
    exact stod_of_magnitude hstrtod

theorem stod_point (h : ∀ c ∈ int, c.isDigit = true) (hne : int ≠ [])
    (hfrac : ∀ c ∈ frac, c.isDigit = true) : stod E (int ++ '.' :: frac) =
      if E.inRange (fixed int frac) then some (E.ofRat (fixed int frac)) else none := by
  have hmagnitude := magnitude_point h hne hfrac
  cases int with
  | nil => exact absurd rfl hne
  | cons c cs =>
    have hstrtod : strtod (c :: cs ++ '.' :: frac) = some (false, .finite (fixed (c :: cs) frac)) := by
      rw [List.cons_append] at hmagnitude ⊢
      rw [strtod_of_digit (h c List.mem_cons_self), hmagnitude]
      rfl
    exact stod_of_magnitude hstrtod

end Strtod
