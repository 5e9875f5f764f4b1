import OpenALE.Bridge.WsServer

/-!
# The localhost guard of the bridge

A request head is lines of text: the request line, then header lines up to the first empty one.
The guard reads its two header fields from the text instead, at the first place where the field's
name and a colon stand.

Results:
* `valueAfter_eq_shown`: what the guard reads is the value behind the first line with the name
  and a colon in it.
* `guarded_of_no_stray`: without such text before the header lines the guard is sound.
* `guarded_iff`: it is sound exactly when a request to be refused shows it a value it refuses.
-/

namespace OpenALE

open Search

/-! ## Lines -/

/-- The lines of a text. -/
def lines : Str → List Str
  | [] => [[]]
  | '\r' :: '\n' :: cs => [] :: lines cs
  | c :: cs => (lines cs).modifyHead (c :: ·)

/-- A text is its only line, or a line and the rest behind its end. -/
theorem lines_cases (t : Str) :
    find crlf t = none ∧ lines t = [t] ∨
    ∃ l rest, t = l ++ '\r' :: '\n' :: rest ∧ find crlf t = some l.length ∧
      lines t = l :: lines rest := by
  induction t using lines.induct with
  | case1 => exact Or.inl ⟨by decide, rfl⟩
  | case2 cs ih =>
    refine Or.inr ⟨[], cs, rfl, find_cons_of_here ⟨cs, rfl⟩, ?_⟩
    rw [lines]
  | case3 c cs hne ih =>
    have hnot : ¬ crlf <+: c :: cs := by
      rintro ⟨rest, hrest⟩
      obtain ⟨rfl, hcs⟩ := List.cons.inj hrest
      exact hne rest rfl hcs.symm
    have hlines : lines (c :: cs) = (lines cs).modifyHead (c :: ·) := by
      rw [lines]
      exact hne
    rw [hlines, find_cons_of_elsewhere hnot]
    obtain ⟨hnone, hl⟩ | ⟨l, rest, rfl, hsome, hl⟩ := ih
    · exact Or.inl ⟨by rw [hnone]; rfl, by rw [hl]; rfl⟩
    · exact Or.inr ⟨c :: l, rest, rfl, by rw [hsome]; rfl, by rw [hl]; rfl⟩

/-- The value behind the first occurrence of `key` in the lines. -/
def shown (key : Str) : List Str → Option Str
  | [] => none
  | l :: ls =>
    match find key (toLower l) with
    | some i => some ((l.drop (i + key.length)).dropWhile isBlank)
    | none => shown key ls

variable {key l rest name req : Str} {ls : List Str} {i : Nat}

theorem shown_cons_some (h : find key (toLower l) = some i) :
    shown key (l :: ls) = some ((l.drop (i + key.length)).dropWhile isBlank) := by
  unfold shown
  rw [h]

theorem shown_cons_none (h : find key (toLower l) = none) : shown key (l :: ls) = shown key ls := by
  conv_lhs => unfold shown
  rw [h]

/-- Blanks before the end of a line are skipped within the line. -/
theorem dropWhile_blank_append (u : Str) :
    (u ++ '\r' :: rest).dropWhile isBlank = u.dropWhile isBlank ++ '\r' :: rest := by
  induction u with
  | nil => rfl
  | cons c u ih =>
    rw [List.cons_append, List.dropWhile_cons, List.dropWhile_cons]
    split
    · exact ih
    · rfl

/-- A suffix of a text's first line ends where the line does. -/
theorem restOfLine_of_suffix {u : Str} (hfind : find crlf (l ++ '\r' :: '\n' :: rest) = some l.length)
    (hu : u <:+ l) : restOfLine (u ++ '\r' :: '\n' :: rest) = u := by
  obtain ⟨pre, rfl⟩ := hu
  have hdrop := find_drop hfind (j := pre.length) (by simp)
  rw [List.append_assoc, List.drop_left, List.length_append, Nat.add_sub_cancel_left] at hdrop
  unfold restOfLine
  rw [hdrop]
  exact List.take_left

theorem toLower_append (a b : Str) : toLower (a ++ b) = toLower a ++ toLower b := List.map_append

@[simp] theorem length_toLower (a : Str) : (toLower a).length = a.length := List.length_map _

/-- The search for a key goes through the lines. -/
theorem find_toLower_line (hne : key ≠ []) (hr : '\r' ∉ key) (hn : '\n' ∉ key) (l rest : Str) :
    find key (toLower (l ++ '\r' :: '\n' :: rest)) =
      (find key (toLower l)).or ((find key (toLower rest)).map (· + (l.length + 2))) := by
  have hlow : toLower (l ++ '\r' :: '\n' :: rest) =
      toLower l ++ '\r' :: ([] ++ '\n' :: toLower rest) := by
    rw [toLower_append]
    rfl
  rw [hlow, find_append_cons hne hr, find_append_cons hne hn, length_toLower]
  congr 1
  cases find key (toLower rest) with
  | none => simp [find, hne]
  | some i =>
    simp [find, hne]
    omega

/-- **What the guard reads**: the value behind the first line with the key in it. -/
theorem valueAfter_eq_shown (hne : key ≠ []) (hr : '\r' ∉ key) (hn : '\n' ∉ key) (req : Str) :
    valueAfter req key = shown key (lines req) := by
  induction hlen : req.length using Nat.strong_induction_on generalizing req with
  | _ n ih =>
    subst hlen
    obtain ⟨hnone, hl⟩ | ⟨l, rest, rfl, hfind, hl⟩ := lines_cases req
    · rw [hl]
      unfold valueAfter
      cases hi : find key (toLower req) with
      | none =>
        rw [shown_cons_none hi]
        rfl
      | some i =>
        rw [shown_cons_some hi]
        have hblank : ∃ j, (req.drop (i + key.length)).dropWhile isBlank = req.drop j := by
          obtain ⟨pre, hpre⟩ := List.dropWhile_suffix (l := req.drop (i + key.length)) isBlank
          have hdrop : req.drop (i + key.length + pre.length) =
              (req.drop (i + key.length)).drop pre.length := List.drop_drop.symm
          refine ⟨i + key.length + pre.length, ?_⟩
          rw [hdrop]
          conv_rhs => rw [← hpre]
          rw [List.drop_left]
        obtain ⟨j, hj⟩ := hblank
        dsimp only
        rw [hj]
        unfold restOfLine
        rw [find_drop_none hnone]
    · rw [hl]
      have hshort : rest.length < (l ++ '\r' :: '\n' :: rest).length := by
        simp only [List.length_append, List.length_cons]
        omega
      have hrest := ih rest.length hshort rest rfl
      cases hi : find key (toLower l) with
      | some i =>
        have hle := find_some_le hi
        rw [length_toLower] at hle
        rw [shown_cons_some hi]
        unfold valueAfter
        rw [find_toLower_line hne hr hn, hi]
        have hsuffix : (l.drop (i + key.length)).dropWhile isBlank <:+ l :=
          (List.dropWhile_suffix _).trans (List.drop_suffix _ _)
        dsimp only [Option.or]
        rw [List.drop_append_of_le_length hle, dropWhile_blank_append,
          restOfLine_of_suffix hfind hsuffix]
      | none =>
        rw [shown_cons_none hi, ← hrest]
        unfold valueAfter
        rw [find_toLower_line hne hr hn, hi]
        cases find key (toLower rest) with
        | none => rfl
        | some i =>
          have hdrop : (l ++ '\r' :: '\n' :: rest).drop (i + (l.length + 2) + key.length) =
              rest.drop (i + key.length) := by
            have hsum : i + (l.length + 2) + key.length = l.length + (i + key.length + 2) := by
              omega
            rw [hsum, List.drop_append]
            simp
          dsimp only [Option.or, Option.map]
          rw [hdrop]

/-! ## Header fields -/

/-- The line is a field with this name, whatever the case. -/
def NamesField (name l : Str) : Prop :=
  ':' ∈ l ∧ toLower (l.takeWhile (· ≠ ':')) = toLower name

instance (name l : Str) : Decidable (NamesField name l) := by
  unfold NamesField
  infer_instance

/-- What stands behind the name of a field. -/
def fieldText (l : Str) : Str := (l.dropWhile (· ≠ ':')).tail.dropWhile isBlank

/-- The value of a field: without the blanks around it. -/
def fieldValue (l : Str) : Str := (fieldText l).rdropWhile isBlank

/-- The lines after the request line, up to the first empty one. -/
def headerLines (req : Str) : List Str := (lines req).tail.takeWhile (· ≠ [])

/-- **The actual header field**: the first header line with the name. -/
def headerLine (name req : Str) : Option Str := (headerLines req).find? (NamesField name ·)

/-- The lines above the actual header field, all of the text if there is none. -/
def linesBefore (name req : Str) : List Str :=
  match headerLine name req with
  | some _ => (lines req).take 1 ++ (headerLines req).takeWhile (¬ NamesField name ·)
  | none => lines req

theorem lines_ne_nil (t : Str) : lines t ≠ [] := by
  obtain ⟨_, h⟩ | ⟨_, _, _, _, h⟩ := lines_cases t
  · rw [h]
    exact List.cons_ne_nil _ _
  · rw [h]
    exact List.cons_ne_nil _ _

/-- The header field stands behind the lines above it. -/
theorem lines_eq_of_headerLine (h : headerLine name req = some l) :
    NamesField name l ∧ ∃ after, lines req = linesBefore name req ++ l :: after := by
  unfold linesBefore
  rw [h]
  unfold headerLine at h
  obtain ⟨hl, as, bs, heq, has⟩ := List.find?_eq_some_iff_append.mp h
  refine ⟨of_decide_eq_true hl, ?_⟩
  have htake : (headerLines req).takeWhile (¬ NamesField name ·) = as := by
    rw [heq, List.takeWhile_append_of_pos (by simpa using has),
      List.takeWhile_cons_of_neg (by simpa using hl), List.append_nil]
  obtain ⟨after, hafter⟩ := List.takeWhile_prefix (l := (lines req).tail) (· ≠ [])
  obtain ⟨first, more, hlines⟩ := List.exists_cons_of_ne_nil (lines_ne_nil req)
  refine ⟨bs ++ after, ?_⟩
  dsimp only
  rw [htake, hlines]
  unfold headerLines at heq
  rw [heq, hlines] at hafter
  rw [← @List.tail_cons _ first more, ← hafter]
  simp

theorem shown_append (key : Str) (a b : List Str) :
    shown key (a ++ b) = (shown key a).or (shown key b) := by
  induction a with
  | nil => rfl
  | cons l ls ih =>
    rw [List.cons_append]
    cases h : find key (toLower l) with
    | none => rw [shown_cons_none h, shown_cons_none h, ih]
    | some i =>
      rw [shown_cons_some h, shown_cons_some h]
      rfl

/-- The text the guard looks for. -/
def fieldKey (name : Str) : Str := toLower name ++ [':']

/-- A field line is its name, the colon and the rest. -/
theorem field_split (h : ':' ∈ l) : ∃ n v, l = n ++ ':' :: v ∧ l.takeWhile (· ≠ ':') = n ∧
    l.dropWhile (· ≠ ':') = ':' :: v := by
  induction l with
  | nil => exact absurd h List.not_mem_nil
  | cons c cs ih =>
    by_cases hc : c = ':'
    · subst hc
      exact ⟨[], cs, rfl, rfl, rfl⟩
    · obtain ⟨n, v, hl, hn, hv⟩ := ih ((List.mem_cons.mp h).resolve_left (Ne.symm hc))
      refine ⟨c :: n, v, by rw [hl]; rfl, ?_, ?_⟩
      · rw [List.takeWhile_cons_of_pos (by simpa using hc), hn]
      · rw [List.dropWhile_cons_of_pos (by simpa using hc), hv]

/-- A header line shows its own text. -/
theorem shown_field (h : NamesField name l) (ls : List Str) :
    shown (fieldKey name) (l :: ls) = some (fieldText l) := by
  obtain ⟨hcolon, hname⟩ := h
  obtain ⟨n, v, hl, hn, hv⟩ := field_split hcolon
  rw [hn] at hname
  have hstart : fieldKey name <+: toLower l := by
    refine ⟨toLower v, ?_⟩
    rw [hl, toLower_append, hname]
    unfold fieldKey
    rw [List.append_assoc]
    rfl
  have hfind : find (fieldKey name) (toLower l) = some 0 := by
    cases hlow : toLower l with
    | nil =>
      rw [hlow] at hstart
      exact absurd (List.prefix_nil.mp hstart) (by simp [fieldKey])
    | cons c cs =>
      rw [hlow] at hstart
      exact find_cons_of_here hstart
  have hlen : (fieldKey name).length = n.length + 1 := by
    unfold fieldKey
    rw [← hname, List.length_append, length_toLower]
    rfl
  rw [shown_cons_some hfind, Nat.zero_add, hlen]
  unfold fieldText
  rw [hv, List.tail_cons, hl, ← List.drop_drop, List.drop_left]
  rfl

/-- **What the guard reads of a request**: text above the header field, if it holds the name and a
colon, else the field. -/
theorem shown_lines (name req : Str) :
    shown (fieldKey name) (lines req) =
      (shown (fieldKey name) (linesBefore name req)).or
        ((headerLine name req).map fieldText) := by
  cases h : headerLine name req with
  | some l =>
    obtain ⟨hl, after, heq⟩ := lines_eq_of_headerLine h
    rw [heq, shown_append, shown_field hl]
    rfl
  | none =>
    unfold linesBefore
    rw [h]
    exact (Option.or_none).symm

/-! ## The guard -/

/-- A Host value that the guard lets pass. -/
def hostIsLocal (host : Str) : Bool := host.isEmpty || isLoopbackHost host

/-- **The request is local**: its actual Host value, when not empty, is a loopback host, its actual
Origin value is local. -/
structure LocalRequest (req : Str) : Prop where
  host : ∀ l, headerLine "Host".toList req = some l → hostIsLocal (fieldValue l) = true
  origin : ∀ l, headerLine "Origin".toList req = some l → originIsLocal (fieldValue l) = true

/-- **The guard**: a head is refused unless the request is local. -/
def Guarded (clientActive : Bool) (buf : Str) : Prop :=
  IsHead buf → ¬ LocalRequest buf → dispatch false clientActive buf = .forbidden

/-- The name and a colon stand above the actual header field. -/
def Stray (name req : Str) : Prop := shown (fieldKey name) (linesBefore name req) ≠ none

/-- What stands behind a stray name, or else in the header field, is accepted. -/
def Passes (ok : Str → Bool) (name req : Str) : Prop :=
  (∀ v, shown (fieldKey name) (linesBefore name req) = some v → ok v = true) ∧
    (¬ Stray name req → ∀ l, headerLine name req = some l → ok (fieldText l) = true)

theorem passes_iff {ok : Str → Bool} (hok : ok [] = true) (hr : '\r' ∉ fieldKey name)
    (hn : '\n' ∉ fieldKey name) : Passes ok name req ↔ ok (extractHeader req name) = true := by
  have hkey : fieldKey name ≠ [] := by simp [fieldKey]
  have hval : extractHeader req name = ((shown (fieldKey name) (linesBefore name req)).or
      ((headerLine name req).map fieldText)).getD [] := by
    rw [← shown_lines, ← valueAfter_eq_shown hkey hr hn]
    rfl
  rw [hval]
  unfold Passes Stray
  cases shown (fieldKey name) (linesBefore name req) with
  | some v => simp
  | none =>
    cases headerLine name req with
    | some l => simp
    | none => simpa using hok

theorem guardRefuses_iff (req : Str) : guardRefuses req = true ↔
    ¬ Passes hostIsLocal "Host".toList req ∨ ¬ Passes originIsLocal "Origin".toList req := by
  rw [passes_iff rfl (by decide) (by decide), passes_iff rfl (by decide) (by decide)]
  unfold guardRefuses hostIsLocal
  simp

/-! ### Without stray text -/

/-- Blanks at the end of a text. -/
theorem exists_blanks (v : Str) :
    ∃ b, v = v.rdropWhile isBlank ++ b ∧ ∀ c ∈ b, isBlank c = true := by
  refine ⟨v.rtakeWhile isBlank, List.rdropWhile_append_rtakeWhile.symm, ?_⟩
  exact List.rtakeWhile_eq_self_iff.mp (List.rtakeWhile_idempotent _ _)

theorem isBlank_iff (c : Char) : isBlank c = true ↔ c = ' ' ∨ c = '\t' := by
  simp [isBlank]

/-- A blank is none of the symbols a value is cut at. -/
theorem not_mem_blanks {b : Str} (hb : ∀ c ∈ b, isBlank c = true) {x : Char}
    (hx : isBlank x = false) : x ∉ b := by
  intro hmem
  rw [hb x hmem] at hx
  exact absurd hx (by simp)

/-- A text without a blank at its end has no blanks appended. -/
theorem eq_nil_of_append_blanks {u b w : Str} (hb : ∀ c ∈ b, isBlank c = true)
    (hw : w.getLast?.map isBlank = some false) (h : toLower (u ++ b) = w) : b = [] := by
  obtain hnil | ⟨b', c, rfl⟩ := List.eq_nil_or_concat b
  · exact hnil
  · have hlast : w.getLast? = some c.toLower := by
      rw [← h, toLower_append]
      simp [toLower]
    have hc : isBlank c = true := hb c (by simp)
    have hlow : isBlank c.toLower = true := by
      obtain rfl | rfl := (isBlank_iff c).mp hc <;> decide
    rw [hlast, Option.map_some, hlow] at hw
    exact absurd hw (by simp)

/-- A cut at a symbol of `u` ignores what comes behind `u`. -/
theorem takeWhile_append_of_mem {u b : Str} {x : Char} (h : x ∈ u) :
    (u ++ b).takeWhile (· ≠ x) = u.takeWhile (· ≠ x) := by
  rw [List.takeWhile_append, if_neg]
  intro hlen
  have hall : u.takeWhile (· ≠ x) = u := (List.takeWhile_prefix _).eq_of_length hlen
  have := List.takeWhile_eq_self_iff.mp hall x h
  simp at this

theorem isLoopbackHost_of_append_blanks {u b : Str} (hb : ∀ c ∈ b, isBlank c = true)
    (h : isLoopbackHost (u ++ b) = true) : isLoopbackHost u = true := by
  have hcolon : ':' ∉ b := not_mem_blanks hb rfl
  have hcount : (u ++ b).count ':' = u.count ':' := by
    rw [List.count_append, List.count_eq_zero_of_not_mem hcolon, Nat.add_zero]
  by_cases hone : u.count ':' = 1
  · have hmem : ':' ∈ u := List.count_pos_iff.mp (by omega)
    unfold isLoopbackHost at h ⊢
    rw [hcount, if_pos hone, takeWhile_append_of_mem hmem] at h
    rwa [if_pos hone]
  · have hnil : b = [] := by
      unfold isLoopbackHost at h
      rw [hcount, if_neg hone] at h
      simp only [Bool.or_eq_true, beq_iff_eq] at h
      obtain h | h := h
      · exact eq_nil_of_append_blanks hb (by decide +kernel) h
      · exact eq_nil_of_append_blanks hb (by decide +kernel) h
    rwa [hnil, List.append_nil] at h

theorem hostIsLocal_of_append_blanks {u b : Str} (hb : ∀ c ∈ b, isBlank c = true)
    (h : hostIsLocal (u ++ b) = true) : hostIsLocal u = true := by
  unfold hostIsLocal at h ⊢
  rw [Bool.or_eq_true] at h ⊢
  obtain h | h := h
  · left
    rw [List.isEmpty_iff] at h ⊢
    exact (List.append_eq_nil_iff.mp h).1
  · exact Or.inr (isLoopbackHost_of_append_blanks hb h)

/-- Blanks hold no scheme. -/
theorem find_scheme_append {u b : Str} (hb : ∀ c ∈ b, isBlank c = true) :
    find "://".toList (u ++ b) = find "://".toList u := by
  have hnone : ∀ b' : Str, (∀ c ∈ b', isBlank c = true) → find "://".toList b' = none := by
    intro b' hb'
    cases hf : find "://".toList b' with
    | none => rfl
    | some i =>
      have hmem : ':' ∈ b'.drop i := (find_some_occurs hf).subset (by decide +kernel)
      exact absurd (List.mem_of_mem_drop hmem) (not_mem_blanks hb' rfl)
  cases b with
  | nil => rw [List.append_nil]
  | cons x b =>
    have hx : x ∉ "://".toList := by
      obtain rfl | rfl := (isBlank_iff x).mp (hb x (by simp)) <;> decide +kernel
    rw [find_append_cons (by decide +kernel) hx, hnone b fun c hc => hb c (by simp [hc])]
    exact Option.or_none

theorem originIsLocal_of_append_blanks {u b : Str} (hb : ∀ c ∈ b, isBlank c = true)
    (h : originIsLocal (u ++ b) = true) : originIsLocal u = true := by
  -- the host of the origin, with the blanks behind it or cut off by a slash
  have hhost : ∀ w : Str, isLoopbackHost ((w ++ b).takeWhile (· ≠ '/')) = true →
      isLoopbackHost (w.takeWhile (· ≠ '/')) = true := by
    intro w hw
    by_cases hslash : '/' ∈ w
    · rwa [takeWhile_append_of_mem hslash] at hw
    · have hall : ∀ c ∈ w ++ b, decide (c ≠ '/') = true := by
        intro c hc
        rw [decide_eq_true_eq]
        rintro rfl
        exact (List.mem_append.mp hc).elim hslash (not_mem_blanks hb rfl)
      rw [List.takeWhile_eq_self_iff.mpr hall] at hw
      rw [List.takeWhile_eq_self_iff.mpr fun c hc => hall c (List.mem_append_left _ hc)]
      exact isLoopbackHost_of_append_blanks hb hw
  unfold originIsLocal at h ⊢
  by_cases hu : (u.isEmpty || u == "null".toList) = true
  · rw [if_pos hu]
  · rw [if_neg hu]
    have hub : ¬ ((u ++ b).isEmpty || u ++ b == "null".toList) = true := by
      intro hub
      rw [Bool.or_eq_true, List.isEmpty_iff, beq_iff_eq] at hub
      obtain hub | hub := hub
      · exact hu (by simp [(List.append_eq_nil_iff.mp hub).1])
      · have hlow : toLower (u ++ b) = "null".toList := by
          rw [hub]
          decide +kernel
        rw [eq_nil_of_append_blanks hb (by decide +kernel) hlow, List.append_nil] at hub
        exact hu (by simp [hub])
    rw [if_neg hub, find_scheme_append hb] at h
    cases hf : find "://".toList u with
    | none =>
      rw [hf] at h
      exact hhost u h
    | some ss =>
      rw [hf] at h
      have hlen : "://".toList.length = 3 := by decide +kernel
      have hle := find_some_le hf
      rw [hlen] at hle
      dsimp only at h
      rw [List.drop_append_of_le_length hle] at h
      exact hhost _ h

/-- **Without stray text the guard is sound.** -/
theorem guarded_of_no_stray (clientActive : Bool) {buf : Str} (hhost : ¬ Stray "Host".toList buf)
    (horigin : ¬ Stray "Origin".toList buf) : Guarded clientActive buf := by
  intro hhead hlocal
  rw [dispatch_of_head hhead, guardRefuses_iff]
  by_contra hpass
  obtain ⟨hh, ho⟩ := not_or.mp hpass
  refine hlocal ⟨?_, ?_⟩
  · intro l hl
    obtain ⟨b, heq, hb⟩ := exists_blanks (fieldText l)
    have htext := (not_not.mp hh).2 hhost l hl
    rw [heq] at htext
    exact hostIsLocal_of_append_blanks hb htext
  · intro l hl
    obtain ⟨b, heq, hb⟩ := exists_blanks (fieldText l)
    have htext := (not_not.mp ho).2 horigin l hl
    rw [heq] at htext
    exact originIsLocal_of_append_blanks hb htext

/-- **The localhost guard, exactly.** A request head that is not local is answered 403 if and only
if the first text "host:" or the first text "origin:" in it, whatever the case, is followed by a
value the guard refuses: the text of the header field itself, or stray text above it. -/
theorem guarded_iff (clientActive : Bool) (buf : Str) : Guarded clientActive buf ↔
    (IsHead buf → ¬ LocalRequest buf →
      ¬ Passes hostIsLocal "Host".toList buf ∨ ¬ Passes originIsLocal "Origin".toList buf) := by
  unfold Guarded
  refine forall_congr' fun hhead => imp_congr_right fun _ => ?_
  rw [dispatch_of_head hhead, guardRefuses_iff]

theorem guarded_fail : ¬ Guarded false
    "GET /?host:localhost: HTTP/1.1\x0d\nHost: evil.example\x0d\n\x0d\n".toList := by
  intro h
  have hlocal : ¬ LocalRequest
      "GET /?host:localhost: HTTP/1.1\x0d\nHost: evil.example\x0d\n\x0d\n".toList := by
    intro hl
    have hhost := hl.host "Host: evil.example".toList (by decide +kernel)
    exact absurd hhost (by decide +kernel)
  exact absurd (h ⟨by decide, by decide +kernel⟩ hlocal) (by decide +kernel)

end OpenALE
