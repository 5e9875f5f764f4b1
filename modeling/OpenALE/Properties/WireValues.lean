import OpenALE.Properties.WireNumbers

/-!
# Values on the wire

What `parse` makes of what `dump` wrote: strings, arrays and objects with distinct keys come back,
and of the numbers those that six digits hold. A number that cannot be read fails the parser, and
the tree that it then makes has fewer numbers than the one that was written.

Results:
* `parseChars_escape`: a string comes back.
* `parseValue_dump`: what is read of a tree.
* `treeRoundTrip_iff`: the trees that come back; `treeRoundTrip_fail`: not all of them.
-/

namespace OpenALE.MiniJson

open Binary64

variable {text rest s key : Str} {c : Char} {fuel : Nat} {v w : Value} {d : Double} {p : Parser}
  {items acc : List Value} {members before : List (Str × Value)} {ns ns' : List Double}
  {r : Value × Parser}

/-! ## Trees -/

mutual

/-- The numbers of a tree, from the front. -/
def Value.numbers : Value → List Double
  | .null => []
  | .boolean _ => []
  | .number d => [d]
  | .string _ => []
  | .array items => itemNumbers items
  | .object members => memberNumbers members

/-- The numbers of the items of an array. -/
def itemNumbers : List Value → List Double
  | [] => []
  | v :: items => v.numbers ++ itemNumbers items

/-- The numbers of the members of an object. -/
def memberNumbers : List (Str × Value) → List Double
  | [] => []
  | (_, v) :: members => v.numbers ++ memberNumbers members

end

mutual

/-- The keys of each object of the tree are distinct. -/
def Value.Distinct : Value → Prop
  | .null => True
  | .boolean _ => True
  | .number _ => True
  | .string _ => True
  | .array items => ItemsDistinct items
  | .object members => (members.map Prod.fst).Nodup ∧ MembersDistinct members

/-- The keys of each object among the items. -/
def ItemsDistinct : List Value → Prop
  | [] => True
  | v :: items => v.Distinct ∧ ItemsDistinct items

/-- The keys of each object among the members. -/
def MembersDistinct : List (Str × Value) → Prop
  | [] => True
  | (_, v) :: members => v.Distinct ∧ MembersDistinct members

end

mutual

/-- The tree with each number as it is read back. -/
def Value.reread : Value → Value
  | .null => .null
  | .boolean b => .boolean b
  | .number d => .number ((readBack d).getD d)
  | .string s => .string s
  | .array items => .array (rereadItems items)
  | .object members => .object (rereadMembers members)

/-- The items as they are read back. -/
def rereadItems : List Value → List Value
  | [] => []
  | v :: items => v.reread :: rereadItems items

/-- The members as they are read back. -/
def rereadMembers : List (Str × Value) → List (Str × Value)
  | [] => []
  | (key, v) :: members => (key, v.reread) :: rereadMembers members

end

/-- The tree is written, and what was written is read as the tree. -/
def RoundTrip (v : Value) : Prop := ∃ text, dump v = some text ∧ parse text = v

/-- Induction over a tree. -/
theorem Value.induct {P : Value → Prop} (null : P .null) (boolean : ∀ b, P (.boolean b))
    (number : ∀ d, P (.number d)) (string : ∀ s, P (.string s))
    (array : ∀ items, (∀ v ∈ items, P v) → P (.array items))
    (object : ∀ members, (∀ kv ∈ members, P kv.2) → P (.object members)) (v : Value) : P v :=
  @Value.rec P (fun items => ∀ v ∈ items, P v) (fun members => ∀ kv ∈ members, P kv.2)
    (fun kv => P kv.2) null boolean number string array object (fun _ h => nomatch h)
    (fun _ _ hv hitems => List.forall_mem_cons.mpr ⟨hv, hitems⟩) (fun _ h => nomatch h)
    (fun _ _ hkv hmembers => List.forall_mem_cons.mpr ⟨hkv, hmembers⟩) (fun _ _ h => h) v

/-! ### What follows of lists -/

theorem itemsDistinct_iff : ItemsDistinct items ↔ ∀ v ∈ items, v.Distinct := by
  induction items with
  | nil => exact iff_of_true trivial fun _ h => nomatch h
  | cons v items ih => rw [ItemsDistinct, ih, List.forall_mem_cons]

theorem membersDistinct_iff : MembersDistinct members ↔ ∀ kv ∈ members, kv.2.Distinct := by
  induction members with
  | nil => exact iff_of_true trivial fun _ h => nomatch h
  | cons kv members ih => rw [MembersDistinct, ih, List.forall_mem_cons]

theorem itemNumbers_append (items items' : List Value) :
    itemNumbers (items ++ items') = itemNumbers items ++ itemNumbers items' := by
  induction items with
  | nil => rfl
  | cons v items ih => rw [List.cons_append, itemNumbers, itemNumbers, ih, List.append_assoc]

theorem memberNumbers_append (members members' : List (Str × Value)) :
    memberNumbers (members ++ members') = memberNumbers members ++ memberNumbers members' := by
  induction members with
  | nil => rfl
  | cons kv members ih => rw [List.cons_append, memberNumbers, memberNumbers, ih, List.append_assoc]

theorem map_fst_rereadMembers (members : List (Str × Value)) :
    (rereadMembers members).map Prod.fst = members.map Prod.fst := by
  induction members with
  | nil => rfl
  | cons kv members ih => rw [rereadMembers, List.map_cons, List.map_cons, ih]

/-- Reading back changes the numbers in place. -/
theorem numbers_reread (v : Value) :
    v.reread.numbers = v.numbers.map fun d => (readBack d).getD d := by
  induction v using Value.induct with
  | null => rfl
  | boolean b => rfl
  | number d => rfl
  | string s => rfl
  | array items ih =>
    rw [Value.reread, Value.numbers, Value.numbers]
    induction items with
    | nil => rfl
    | cons v items ihitems =>
      obtain ⟨hv, hitems⟩ := List.forall_mem_cons.mp ih
      rw [rereadItems, itemNumbers, itemNumbers, List.map_append, hv, ihitems hitems]
  | object members ih =>
    rw [Value.reread, Value.numbers, Value.numbers]
    induction members with
    | nil => rfl
    | cons kv members ihmembers =>
      obtain ⟨hv, hmembers⟩ := List.forall_mem_cons.mp ih
      rw [rereadMembers, memberNumbers, memberNumbers, List.map_append, hv, ihmembers hmembers]

/-- A tree whose numbers come back is left as it is. -/
theorem reread_eq (h : ∀ d ∈ v.numbers, readBack d = some d) : v.reread = v := by
  induction v using Value.induct with
  | null => rfl
  | boolean b => rfl
  | number d => rw [Value.reread, h d (List.mem_singleton_self d), Option.getD_some]
  | string s => rfl
  | array items ih =>
    rw [Value.reread]
    congr 1
    rw [Value.numbers] at h
    induction items with
    | nil => rfl
    | cons v items ihitems =>
      obtain ⟨hv, hitems⟩ := List.forall_mem_cons.mp ih
      obtain ⟨hfirst, hrest⟩ := List.forall_mem_append.mp h
      rw [rereadItems, hv hfirst, ihitems hitems hrest]
  | object members ih =>
    rw [Value.reread]
    congr 1
    rw [Value.numbers] at h
    induction members with
    | nil => rfl
    | cons kv members ihmembers =>
      obtain ⟨hv, hmembers⟩ := List.forall_mem_cons.mp ih
      obtain ⟨hfirst, hrest⟩ := List.forall_mem_append.mp h
      rw [rereadMembers, hv hfirst, ihmembers hmembers hrest]

/-- The trees that reading back leaves as they are. -/
theorem readBack_of_reread_eq (h : v.reread = v) (hread : ∀ d ∈ v.numbers, (readBack d).isSome) :
    ∀ d ∈ v.numbers, readBack d = some d := by
  have hmap : v.numbers.map (fun d => (readBack d).getD d) = v.numbers := by
    rw [← numbers_reread, h]
  intro d hd
  have heq := List.map_inj_left.mp (hmap.trans (List.map_id _).symm) d hd
  obtain ⟨d', hd'⟩ := Option.isSome_iff_exists.mp (hread d hd)
  rw [hd', Option.getD_some, id_eq] at heq
  rw [hd', heq]

/-! ## Strings -/

/-- A control character comes back. -/
theorem unicode_hex4 (h : c.toNat < 0x20) :
    unicode '0' '0' (Nat.digitChar (c.toNat / 16)) (Nat.digitChar (c.toNat % 16)) = c := by
  have hall : ∀ n < 0x20,
      unicode '0' '0' (Nat.digitChar (n / 16)) (Nat.digitChar (n % 16)) = Char.ofNat n := by decide
  rw [hall _ h, Char.ofNat_toNat]

theorem parseChars_escapeChar (c : Char) (t : Str) :
    parseChars (escapeChar c ++ t) = (c :: (parseChars t).1, (parseChars t).2) := by
  unfold escapeChar
  split_ifs with hquote hback hn hr ht hcontrol
  · rw [hquote]
    rfl
  · rw [hback]
    rfl
  · rw [hn]
    rfl
  · rw [hr]
    rfl
  · rw [ht]
    rfl
  · rw [hex4, List.cons_append, List.cons_append, List.cons_append, List.cons_append,
      List.cons_append, List.cons_append, List.nil_append, parseChars, unicode_hex4 hcontrol]
  · rw [List.singleton_append, parseChars]
    · exact hquote
    all_goals
      intros
      exact hback ‹c = '\\'›

/-- **A string comes back.** -/
theorem parseChars_escape (s rest : Str) :
    parseChars (s.flatMap escapeChar ++ '"' :: rest) = (s, rest, false) := by
  induction s with
  | nil => rfl
  | cons c s ih => rw [List.flatMap_cons, List.append_assoc, parseChars_escapeChar, ih]

theorem parseString_escape (s rest : Str) :
    parseString ⟨escape s ++ rest, false⟩ = (s, ⟨rest, false⟩) := by
  unfold parseString escape
  rw [List.append_assoc, List.cons_append, List.drop_one, List.tail_cons, List.singleton_append,
    parseChars_escape]
  rfl

/-! ## Numbers -/

/-- What follows is not part of a number. -/
def Ends (rest : Str) : Prop := ∀ c ∈ rest.head?, isNumberChar c = false

theorem isNumberChar_of_isDigit (h : c.isDigit = true) : isNumberChar c = true := by
  rw [isNumberChar, h]
  rfl

/-- A character of a number is none that is not. -/
theorem ne_of_isNumberChar (hc : isNumberChar c = true) {c' : Char} (h : isNumberChar c' = false) :
    c ≠ c' := by
  rintro rfl
  rw [h] at hc
  cases hc

/-- A number is written in the characters of a number. -/
theorem dumpNumber_chars (h : dumpNumber d = some text) :
    text ≠ [] ∧ ∀ c ∈ text, isNumberChar c = true := by
  have hdigits : ∀ n : ℕ, ∀ c ∈ Decimal.digits n, isNumberChar c = true := fun n c hc =>
    isNumberChar_of_isDigit (Decimal.isDigit_of_mem hc)
  have hsign : ∀ t : Str, (∀ c ∈ t, isNumberChar c = true) →
      ∀ c ∈ '-' :: t, isNumberChar c = true := fun t ht => List.forall_mem_cons.mpr ⟨rfl, ht⟩
  cases d with
  | infinite negative => cases h
  | nan => cases h
  | finite x hx =>
    rw [dumpNumber] at h
    split_ifs at h with hcast hint
    · obtain rfl := Option.some.inj h
      unfold toText
      split_ifs with hneg
      · exact ⟨List.cons_ne_nil _ _, hsign _ (hdigits _)⟩
      · exact ⟨Decimal.digits_ne_nil _, hdigits _⟩
    · obtain rfl := Option.some.inj h
      have hzero : x ≠ 0 := fun hzero => hint ((eq_toDouble_iff hx).mpr ⟨0, by rw [hzero, Int.cast_zero]⟩)
      have hchars : ∀ c ∈ FormatG.formatG |x|, isNumberChar c = true := by
        intro c hc
        obtain hdigit | rfl | rfl | rfl | rfl := FormatG.mem_formatG (abs_pos.mpr hzero) hc
        · exact isNumberChar_of_isDigit hdigit
        all_goals rfl
      unfold formatG
      split_ifs with hneg
      · exact ⟨List.cons_ne_nil _ _, hsign _ hchars⟩
      · refine ⟨?_, hchars⟩
        intro hnil
        obtain ⟨hplus, -⟩ := FormatG.strtod_formatG (abs_pos.mpr hzero)
        rw [hnil] at hplus
        cases hplus

theorem parseNumber_append (hne : text ≠ []) (htext : ∀ c ∈ text, isNumberChar c = true)
    (hrest : Ends rest) : parseNumber ⟨text ++ rest, false⟩ =
      match Strtod.stod doubles text with
      | some d => (.number d, ⟨rest, false⟩)
      | none => (.null, ⟨rest, true⟩) := by
  have htake : (text ++ rest).takeWhile isNumberChar = text := by
    rw [List.takeWhile_append_of_pos htext]
    cases rest with
    | nil => exact List.append_nil text
    | cons c rest => rw [List.takeWhile_cons_of_neg (by rw [hrest c rfl]; decide), List.append_nil]
  have hdrop : (text ++ rest).dropWhile isNumberChar = rest := by
    rw [List.dropWhile_append_of_pos htext]
    cases rest with
    | nil => rfl
    | cons c rest => rw [List.dropWhile_cons_of_neg (by rw [hrest c rfl]; decide)]
  rw [parseNumber, htake, hdrop, if_neg hne]
  rfl

/-! ## After a failure -/

/-- The loop of `parse_array` after an item. -/
def itemsAfter (fuel : Nat) (items : List Value) (p : Parser) : Value × Parser :=
  let p := p.skipWs
  if p.peek = ',' then parseItems fuel items (p.advance 1)
  else if p.peek = ']' then (.array items, p.advance 1)
  else (.array items, (p.advance 1).fail)

theorem parseItems_succ (fuel : Nat) (items : List Value) (p : Parser) :
    parseItems (fuel + 1) items p =
      itemsAfter fuel (items ++ [(parseValue fuel p).1]) (parseValue fuel p).2 := by
  rw [parseItems]
  rfl

/-- The loop of `parse_object` after a member. -/
def membersAfter (fuel : Nat) (members : List (Str × Value)) (p : Parser) : Value × Parser :=
  let p := p.skipWs
  if p.peek = ',' then parseMembers fuel members (p.advance 1)
  else if p.peek = '\x7d' then (.object members, p.advance 1)
  else (.object members, (p.advance 1).fail)

/-- The loop of `parse_object` after a key and a colon. -/
theorem parseMembers_succ (fuel : Nat) (members : List (Str × Value)) (key rest : Str) :
    parseMembers (fuel + 1) members ⟨escape key ++ ':' :: rest, false⟩ =
      membersAfter fuel (setMember key (parseValue fuel ⟨rest, false⟩).1 members)
        (parseValue fuel ⟨rest, false⟩).2 := by
  have hskip : Parser.skipWs ⟨escape key ++ ':' :: rest, false⟩ =
      ⟨escape key ++ ':' :: rest, false⟩ := rfl
  have hpeek : Parser.peek ⟨escape key ++ ':' :: rest, false⟩ = '"' := rfl
  have hcolon : Parser.skipWs ⟨':' :: rest, false⟩ = ⟨':' :: rest, false⟩ := rfl
  rw [parseMembers, hskip, if_neg (not_not.mpr hpeek), parseString_escape]
  dsimp only
  rw [hcolon]
  rfl

/-- Failed, with no more numbers than before. -/
def Stuck (r : Value × Parser) (before : List Double) : Prop :=
  r.2.failed = true ∧ r.1.numbers.length ≤ before.length

/-- A failed parser reads nothing. -/
theorem parseValue_failed (h : p.failed = true) (fuel : Nat) :
    (parseValue fuel p).1 = .null ∧ (parseValue fuel p).2.failed = true := by
  cases fuel with
  | zero => exact ⟨rfl, rfl⟩
  | succ fuel =>
    have hfailed : (p.skipWs.failed || p.skipWs.rest.isEmpty) = true := by
      rw [Bool.or_eq_true]
      exact .inl h
    rw [parseValue, if_pos hfailed]
    exact ⟨rfl, rfl⟩

theorem itemsAfter_failed (fuel : Nat) (items : List Value) (h : p.failed = true)
    (ih : ∀ items p, p.failed = true → Stuck (parseItems fuel items p) (itemNumbers items)) :
    Stuck (itemsAfter fuel items p) (itemNumbers items) := by
  unfold itemsAfter
  dsimp only
  split_ifs
  · exact ih items _ h
  · exact ⟨h, le_rfl⟩
  · exact ⟨rfl, le_rfl⟩

/-- A failed array gets no more numbers. -/
theorem parseItems_failed : ∀ (items : List Value) (p : Parser), p.failed = true →
    Stuck (parseItems fuel items p) (itemNumbers items) := by
  induction fuel with
  | zero => exact fun items p _ => ⟨rfl, le_rfl⟩
  | succ fuel ih =>
    intro items p h
    obtain ⟨hnull, hfailed⟩ := parseValue_failed h fuel
    have hstuck := itemsAfter_failed fuel (items ++ [.null]) hfailed ih
    rw [itemNumbers_append] at hstuck
    rw [parseItems_succ, hnull]
    simpa [itemNumbers, Value.numbers] using hstuck

/-- A member that is set adds its numbers at most. -/
theorem numbers_setMember (key : Str) (v : Value) (members : List (Str × Value)) :
    (memberNumbers (setMember key v members)).length ≤
      (memberNumbers members).length + v.numbers.length := by
  induction members with
  | nil => simp [setMember, memberNumbers]
  | cons kv members ih =>
    obtain ⟨k, x⟩ := kv
    rw [setMember]
    split_ifs
    · simp only [memberNumbers, List.length_append]
      omega
    · simp only [memberNumbers, List.length_append]
      omega

theorem membersAfter_failed (fuel : Nat) (members : List (Str × Value)) (h : p.failed = true)
    (ih : ∀ members p, p.failed = true →
      Stuck (parseMembers fuel members p) (memberNumbers members)) :
    Stuck (membersAfter fuel members p) (memberNumbers members) := by
  unfold membersAfter
  dsimp only
  split_ifs
  · exact ih members _ h
  · exact ⟨h, le_rfl⟩
  · exact ⟨rfl, le_rfl⟩

/-- A failed object gets no more numbers. -/
theorem parseMembers_failed : ∀ (members : List (Str × Value)) (p : Parser), p.failed = true →
    Stuck (parseMembers fuel members p) (memberNumbers members) := by
  induction fuel with
  | zero => exact fun members p _ => ⟨rfl, le_rfl⟩
  | succ fuel ih =>
    intro members p h
    rw [parseMembers]
    by_cases hquote : p.skipWs.peek ≠ '"'
    · rw [if_pos hquote]
      exact ⟨rfl, le_rfl⟩
    rw [if_neg hquote]
    generalize hstring : parseString p.skipWs = sp
    obtain ⟨key, q⟩ := sp
    dsimp only
    by_cases hcolon : q.skipWs.peek ≠ ':'
    · rw [if_pos hcolon]
      exact ⟨rfl, le_rfl⟩
    have hq : (q.skipWs.advance 1).failed = true := by
      have hor : (parseString p.skipWs).2.failed = true := by
        unfold parseString
        exact Bool.or_eq_true_iff.mpr (.inl h)
      rwa [hstring] at hor
    obtain ⟨hnull, hfailed⟩ := parseValue_failed hq fuel
    obtain ⟨hstuck, hle⟩ := membersAfter_failed fuel (setMember key .null members) hfailed ih
    have hset := numbers_setMember key .null members
    rw [if_neg hcolon, hnull]
    exact ⟨hstuck, hle.trans hset⟩

/-! ## What is read -/

/-- What a parser makes of the text of a tree with the numbers `ns`: the tree as it is read back,
or a failure and fewer numbers. -/
def Outcome (r : Value × Parser) (ns : List Double) (whole : Value) (rest : Str) : Prop :=
  ((∀ d ∈ ns, (readBack d).isSome) ∧ r = (whole, ⟨rest, false⟩)) ∨
    ((∃ d ∈ ns, readBack d = none) ∧ r.2.failed = true ∧
      r.1.numbers.length < whole.numbers.length)

/-- What the parser makes of the text of a tree. -/
def Reads (v : Value) : Prop :=
  ∀ (fuel : Nat) (text rest : Str), dump v = some text → v.Distinct → text.length ≤ fuel →
    Ends rest → Outcome (parseValue fuel ⟨text ++ rest, false⟩) v.numbers v.reread rest

theorem Outcome.append_of_some (h : Outcome r ns v rest) (h' : ∀ d ∈ ns', (readBack d).isSome) :
    Outcome r (ns' ++ ns) v rest := by
  obtain ⟨hall, heq⟩ | ⟨⟨d, hd, hnone⟩, hstuck⟩ := h
  · exact .inl ⟨List.forall_mem_append.mpr ⟨h', hall⟩, heq⟩
  · exact .inr ⟨⟨d, List.mem_append_right _ hd, hnone⟩, hstuck⟩

/-! ### Items -/

theorem dumpItems_cons {first : Bool} (h : dumpItems first (v :: items) = some text) :
    ∃ t t', dump v = some t ∧ dumpItems false items = some t' ∧
      text = (if first then [] else [',']) ++ t ++ t' := by
  rw [dumpItems] at h
  obtain ⟨t, ht, h⟩ := Option.bind_eq_some_iff.mp h
  obtain ⟨t', ht', h⟩ := Option.bind_eq_some_iff.mp h
  exact ⟨t, t', ht, ht', (Option.some.inj h).symm⟩

/-- After the first item nothing follows, or a comma and the items that are left. -/
theorem dumpItems_false (h : dumpItems false items = some text) :
    (items = [] ∧ text = []) ∨
      (items ≠ [] ∧ ∃ t, text = ',' :: t ∧ dumpItems true items = some t) := by
  cases items with
  | nil => exact .inl ⟨rfl, (Option.some.inj h).symm⟩
  | cons v items =>
    obtain ⟨t, t', ht, ht', rfl⟩ := dumpItems_cons h
    refine .inr ⟨List.cons_ne_nil _ _, t ++ t', rfl, ?_⟩
    rw [dumpItems, ht, ht']
    rfl

theorem parseItems_dump (hreads : ∀ v ∈ items, Reads v) (hdistinct : ∀ v ∈ items, v.Distinct)
    (rest : Str) : ∀ (fuel : Nat) (acc : List Value) (text : Str), items ≠ [] →
      dumpItems true items = some text → text.length + 1 ≤ fuel →
      Outcome (parseItems fuel acc ⟨text ++ ']' :: rest, false⟩) (itemNumbers items)
        (.array (acc ++ rereadItems items)) rest := by
  induction items with
  | nil => exact fun _ _ _ hne => absurd rfl hne
  | cons v items ih =>
    intro fuel acc text _ htext hfuel
    obtain ⟨hv, hitems⟩ := List.forall_mem_cons.mp hreads
    obtain ⟨hvdistinct, hitemsdistinct⟩ := List.forall_mem_cons.mp hdistinct
    obtain ⟨t, t', ht, ht', rfl⟩ := dumpItems_cons htext
    obtain ⟨fuel, rfl⟩ : ∃ f, fuel = f + 1 := ⟨fuel - 1, by omega⟩
    rw [if_pos rfl, List.nil_append] at hfuel ⊢
    rw [List.length_append] at hfuel
    have hends : Ends (t' ++ ']' :: rest) := by
      obtain ⟨-, rfl⟩ | ⟨-, u, rfl, -⟩ := dumpItems_false ht'
      · rintro c ⟨⟩
        rfl
      · rintro c ⟨⟩
        rfl
    rw [List.append_assoc, parseItems_succ, itemNumbers, rereadItems]
    obtain ⟨hall, heq⟩ | ⟨⟨d, hd, hnone⟩, hfailed, hlt⟩ :=
      hv fuel t (t' ++ ']' :: rest) ht hvdistinct (by omega) hends
    · rw [heq]
      obtain ⟨rfl, rfl⟩ | ⟨hne, u, rfl, hu⟩ := dumpItems_false ht'
      · rw [itemNumbers, List.append_nil]
        exact .inl ⟨hall, rfl⟩
      · have hlength := List.length_cons ▸ hfuel
        have hrest := ih hitems hitemsdistinct fuel (acc ++ [v.reread]) u hne hu (by omega)
        rw [List.append_assoc] at hrest
        exact hrest.append_of_some hall
    · obtain ⟨hfails, hle⟩ := itemsAfter_failed fuel
        (acc ++ [(parseValue fuel ⟨t ++ (t' ++ ']' :: rest), false⟩).1]) hfailed parseItems_failed
      refine .inr ⟨⟨d, List.mem_append_left _ hd, hnone⟩, hfails, hle.trans_lt ?_⟩
      rw [Value.numbers, itemNumbers_append, itemNumbers_append, itemNumbers, itemNumbers,
        itemNumbers, List.append_nil, List.length_append, List.length_append, List.length_append]
      omega

/-! ### Members -/

theorem setMember_new (h : key ∉ members.map Prod.fst) :
    setMember key v members = members ++ [(key, v)] := by
  induction members with
  | nil => rfl
  | cons kv members ih =>
    obtain ⟨hne, hrest⟩ := not_or.mp (mt List.mem_cons.mpr h)
    rw [setMember, if_neg (Ne.symm hne), ih hrest]
    rfl

theorem dumpMembers_cons {first : Bool} (h : dumpMembers first ((key, v) :: members) = some text) :
    ∃ t t', dump v = some t ∧ dumpMembers false members = some t' ∧
      text = (if first then [] else [',']) ++ escape key ++ ':' :: t ++ t' := by
  rw [dumpMembers] at h
  obtain ⟨t, ht, h⟩ := Option.bind_eq_some_iff.mp h
  obtain ⟨t', ht', h⟩ := Option.bind_eq_some_iff.mp h
  exact ⟨t, t', ht, ht', (Option.some.inj h).symm⟩

/-- After the first member nothing follows, or a comma and the members that are left. -/
theorem dumpMembers_false (h : dumpMembers false members = some text) :
    (members = [] ∧ text = []) ∨
      (members ≠ [] ∧ ∃ t, text = ',' :: t ∧ dumpMembers true members = some t) := by
  cases members with
  | nil => exact .inl ⟨rfl, (Option.some.inj h).symm⟩
  | cons kv members =>
    obtain ⟨t, t', ht, ht', rfl⟩ := dumpMembers_cons h
    refine .inr ⟨List.cons_ne_nil _ _, escape kv.1 ++ ':' :: t ++ t', rfl, ?_⟩
    rw [dumpMembers, ht, ht']
    rfl

theorem parseMembers_dump (hreads : ∀ kv ∈ members, Reads kv.2)
    (hdistinct : ∀ kv ∈ members, kv.2.Distinct) (rest : Str) :
    ∀ (fuel : Nat) (acc : List (Str × Value)) (text : Str), members ≠ [] →
      (acc.map Prod.fst ++ members.map Prod.fst).Nodup →
      dumpMembers true members = some text → text.length + 1 ≤ fuel →
      Outcome (parseMembers fuel acc ⟨text ++ '\x7d' :: rest, false⟩) (memberNumbers members)
        (.object (acc ++ rereadMembers members)) rest := by
  induction members with
  | nil => exact fun _ _ _ hne => absurd rfl hne
  | cons kv members ih =>
    obtain ⟨key, v⟩ := kv
    intro fuel acc text _ hnodup htext hfuel
    obtain ⟨hv, hmembers⟩ := List.forall_mem_cons.mp hreads
    obtain ⟨hvdistinct, hmembersdistinct⟩ := List.forall_mem_cons.mp hdistinct
    obtain ⟨t, t', ht, ht', rfl⟩ := dumpMembers_cons htext
    obtain ⟨fuel, rfl⟩ : ∃ f, fuel = f + 1 := ⟨fuel - 1, by omega⟩
    rw [if_pos rfl, List.nil_append] at hfuel ⊢
    rw [List.length_append, List.length_append, List.length_cons] at hfuel
    have hends : Ends (t' ++ '\x7d' :: rest) := by
      obtain ⟨-, rfl⟩ | ⟨-, u, rfl, -⟩ := dumpMembers_false ht'
      · rintro c ⟨⟩
        rfl
      · rintro c ⟨⟩
        rfl
    have hnew : key ∉ acc.map Prod.fst := fun hkey =>
      (List.nodup_append.mp hnodup).2.2 key hkey key List.mem_cons_self rfl
    rw [List.append_assoc, List.append_assoc, List.cons_append, parseMembers_succ,
      setMember_new hnew, memberNumbers, rereadMembers]
    obtain ⟨hall, heq⟩ | ⟨⟨d, hd, hnone⟩, hfailed, hlt⟩ :=
      hv fuel t (t' ++ '\x7d' :: rest) ht hvdistinct (by omega) hends
    · rw [heq]
      obtain ⟨rfl, rfl⟩ | ⟨hne, u, rfl, hu⟩ := dumpMembers_false ht'
      · rw [memberNumbers, List.append_nil]
        exact .inl ⟨hall, rfl⟩
      · rw [List.length_cons] at hfuel
        have hkeys : ((acc ++ [(key, v.reread)]).map Prod.fst ++ members.map Prod.fst).Nodup := by
          rw [List.map_append, List.append_assoc]
          exact hnodup
        have hrest := ih hmembers hmembersdistinct fuel (acc ++ [(key, v.reread)]) u hne hkeys hu
          (by omega)
        rw [List.append_assoc] at hrest
        exact hrest.append_of_some hall
    · obtain ⟨hfails, hle⟩ := membersAfter_failed fuel
        (acc ++ [(key, (parseValue fuel ⟨t ++ (t' ++ '\x7d' :: rest), false⟩).1)]) hfailed
        parseMembers_failed
      refine .inr ⟨⟨d, List.mem_append_left _ hd, hnone⟩, hfails, hle.trans_lt ?_⟩
      rw [Value.numbers, memberNumbers_append, memberNumbers_append, memberNumbers, memberNumbers,
        memberNumbers, List.append_nil, List.length_append, List.length_append, List.length_append]
      dsimp only at hlt
      omega

/-! ### Values -/

/-- A text that is written does not begin with white space or with the end of an array. -/
theorem dump_head (h : dump v = some text) :
    ∃ c t, text = c :: t ∧ isWs c = false ∧ c ≠ ']' := by
  cases v with
  | null =>
    obtain rfl := Option.some.inj h
    exact ⟨_, _, rfl, rfl, by decide⟩
  | boolean b =>
    obtain rfl := Option.some.inj h
    cases b <;> exact ⟨_, _, rfl, rfl, by decide⟩
  | number d =>
    obtain ⟨hne, hchars⟩ := dumpNumber_chars h
    obtain ⟨c, t, rfl⟩ := List.exists_cons_of_ne_nil hne
    have hc := hchars c List.mem_cons_self
    refine ⟨c, t, rfl, ?_, ne_of_isNumberChar hc rfl⟩
    rw [isWs, decide_eq_false (ne_of_isNumberChar hc rfl),
      decide_eq_false (ne_of_isNumberChar hc rfl), decide_eq_false (ne_of_isNumberChar hc rfl),
      decide_eq_false (ne_of_isNumberChar hc rfl)]
    rfl
  | string s =>
    obtain rfl := Option.some.inj h
    exact ⟨_, _, rfl, rfl, by decide⟩
  | array items =>
    obtain ⟨t, -, rfl⟩ := Option.map_eq_some_iff.mp h
    exact ⟨_, _, rfl, rfl, by decide⟩
  | object members =>
    obtain ⟨t, -, rfl⟩ := Option.map_eq_some_iff.mp h
    exact ⟨_, _, rfl, rfl, by decide⟩

theorem skipWs_cons (h : isWs c = false) (s : Str) (b : Bool) :
    Parser.skipWs ⟨c :: s, b⟩ = ⟨c :: s, b⟩ := by
  rw [Parser.skipWs, List.dropWhile_cons_of_neg (by rw [h]; decide)]

theorem parseValue_number (hc : isNumberChar c = true) (fuel : Nat) (s : Str) :
    parseValue (fuel + 1) ⟨c :: s, false⟩ = parseNumber ⟨c :: s, false⟩ := by
  have hws : isWs c = false := by
    rw [isWs, decide_eq_false (ne_of_isNumberChar hc rfl),
      decide_eq_false (ne_of_isNumberChar hc rfl), decide_eq_false (ne_of_isNumberChar hc rfl),
      decide_eq_false (ne_of_isNumberChar hc rfl)]
    rfl
  have hletters : (decide (c = 't') || decide (c = 'f')) = false := by
    rw [decide_eq_false (ne_of_isNumberChar hc rfl), decide_eq_false (ne_of_isNumberChar hc rfl)]
    rfl
  have hpeek : Parser.peek ⟨c :: s, false⟩ = c := rfl
  rw [parseValue, skipWs_cons hws]
  dsimp only
  rw [hpeek, if_neg (ne_of_isNumberChar hc rfl), if_neg (ne_of_isNumberChar hc rfl),
    if_neg (ne_of_isNumberChar hc rfl), hletters, if_neg (ne_of_isNumberChar hc rfl)]
  rfl

theorem parseValue_array (hws : isWs c = false) (hc : c ≠ ']') (fuel : Nat) (s : Str) :
    parseValue (fuel + 1) ⟨'[' :: c :: s, false⟩ = parseItems fuel [] ⟨c :: s, false⟩ := by
  have hskip : Parser.skipWs (Parser.advance ⟨'[' :: c :: s, false⟩ 1) = ⟨c :: s, false⟩ :=
    skipWs_cons hws s false
  have hopen : Parser.skipWs ⟨'[' :: c :: s, false⟩ = ⟨'[' :: c :: s, false⟩ := rfl
  rw [parseValue, hopen]
  dsimp only
  rw [hskip]
  exact if_neg hc

/-- **What is read of a tree.** -/
theorem parseValue_dump (v : Value) : Reads v := by
  induction v using Value.induct with
  | null =>
    intro fuel text rest htext _ hfuel _
    obtain rfl := Option.some.inj htext
    obtain ⟨fuel, rfl⟩ : ∃ f, fuel = f + 1 := ⟨fuel - 1, by simp at hfuel; omega⟩
    exact .inl ⟨List.forall_mem_nil _, rfl⟩
  | boolean b =>
    intro fuel text rest htext _ hfuel _
    obtain rfl := Option.some.inj htext
    obtain ⟨fuel, rfl⟩ : ∃ f, fuel = f + 1 := ⟨fuel - 1, by cases b <;> simp at hfuel <;> omega⟩
    cases b <;> exact .inl ⟨List.forall_mem_nil _, rfl⟩
  | number d =>
    intro fuel text rest htext _ hfuel hrest
    obtain ⟨hne, hchars⟩ := dumpNumber_chars htext
    obtain ⟨c, t, hct⟩ := List.exists_cons_of_ne_nil hne
    obtain ⟨fuel, rfl⟩ : ∃ f, fuel = f + 1 := ⟨fuel - 1, by rw [hct] at hfuel; simp at hfuel; omega⟩
    have hread : readBack d = Strtod.stod doubles text := by
      have hdump : dumpNumber d = some text := htext
      rw [readBack, hdump, Option.bind_some]
    have hparse := parseNumber_append hne hchars hrest
    rw [← hread] at hparse
    have hvalue : parseValue (fuel + 1) ⟨text ++ rest, false⟩ = parseNumber ⟨text ++ rest, false⟩ := by
      rw [hct]
      exact parseValue_number (hchars c (hct ▸ List.mem_cons_self)) fuel (t ++ rest)
    rw [hvalue, hparse, Value.numbers, Value.reread]
    cases hd : readBack d with
    | some d' =>
      refine .inl ⟨?_, rfl⟩
      intro x hx
      rw [List.mem_singleton.mp hx, hd]
      rfl
    | none => exact .inr ⟨⟨d, List.mem_singleton_self d, hd⟩, rfl, Nat.zero_lt_one⟩
  | string s =>
    intro fuel text rest htext _ hfuel _
    obtain rfl := Option.some.inj htext
    obtain ⟨fuel, rfl⟩ : ∃ f, fuel = f + 1 := ⟨fuel - 1, by simp [escape] at hfuel; omega⟩
    refine .inl ⟨List.forall_mem_nil _, ?_⟩
    have hvalue : parseValue (fuel + 1) ⟨escape s ++ rest, false⟩ =
        (.string (parseString ⟨escape s ++ rest, false⟩).1,
          (parseString ⟨escape s ++ rest, false⟩).2) := rfl
    rw [hvalue, parseString_escape]
    rfl
  | array items ih =>
    intro fuel text rest htext hdistinct hfuel _
    obtain ⟨t, ht, rfl⟩ := Option.map_eq_some_iff.mp htext
    rw [List.length_append, List.length_cons, List.length_singleton] at hfuel
    obtain ⟨fuel, rfl⟩ : ∃ f, fuel = f + 1 := ⟨fuel - 1, by omega⟩
    rw [List.append_assoc]
    cases items with
    | nil =>
      obtain rfl := Option.some.inj ht
      exact .inl ⟨List.forall_mem_nil _, rfl⟩
    | cons v items =>
      obtain ⟨tv, t', htv, ht', htt⟩ := dumpItems_cons ht
      obtain ⟨c, s, rfl, hws, hc⟩ := dump_head htv
      have hitems := parseItems_dump ih (itemsDistinct_iff.mp hdistinct) rest fuel [] t
        (List.cons_ne_nil _ _) ht (by omega)
      subst htt
      have hvalue := parseValue_array hws hc fuel (s ++ t' ++ ']' :: rest)
      exact hvalue ▸ hitems
  | object members ih =>
    intro fuel text rest htext hdistinct hfuel _
    obtain ⟨t, ht, rfl⟩ := Option.map_eq_some_iff.mp htext
    rw [List.length_append, List.length_cons, List.length_singleton] at hfuel
    obtain ⟨fuel, rfl⟩ : ∃ f, fuel = f + 1 := ⟨fuel - 1, by omega⟩
    rw [List.append_assoc]
    cases members with
    | nil =>
      obtain rfl := Option.some.inj ht
      exact .inl ⟨List.forall_mem_nil _, rfl⟩
    | cons kv members =>
      obtain ⟨hnodup, hmembers⟩ := hdistinct
      obtain ⟨tv, t', htv, ht', htt⟩ := dumpMembers_cons ht
      have hread := parseMembers_dump ih (membersDistinct_iff.mp hmembers) rest fuel [] t
        (List.cons_ne_nil _ _) hnodup ht (by omega)
      subst htt
      exact hread

/-! ## There and back -/

/-- A tree is written if its numbers are. -/
theorem exists_dump (h : ∀ d ∈ v.numbers, ∃ t, dumpNumber d = some t) :
    ∃ text, dump v = some text := by
  induction v using Value.induct with
  | null => exact ⟨_, rfl⟩
  | boolean b => exact ⟨_, rfl⟩
  | number d => exact h d (List.mem_singleton_self d)
  | string s => exact ⟨_, rfl⟩
  | array items ih =>
    have hitems : ∀ first, ∃ text, dumpItems first items = some text := by
      rw [Value.numbers] at h
      induction items with
      | nil => exact fun _ => ⟨_, rfl⟩
      | cons v items ihitems =>
        intro first
        obtain ⟨hv, hrest⟩ := List.forall_mem_cons.mp ih
        obtain ⟨hvnumbers, hnumbers⟩ := List.forall_mem_append.mp h
        obtain ⟨t, ht⟩ := hv hvnumbers
        obtain ⟨t', ht'⟩ := ihitems hrest hnumbers false
        rw [dumpItems, ht, ht']
        exact ⟨_, rfl⟩
    obtain ⟨t, ht⟩ := hitems true
    rw [dump, ht]
    exact ⟨_, rfl⟩
  | object members ih =>
    have hmembers : ∀ first, ∃ text, dumpMembers first members = some text := by
      rw [Value.numbers] at h
      induction members with
      | nil => exact fun _ => ⟨_, rfl⟩
      | cons kv members ihmembers =>
        intro first
        obtain ⟨hv, hrest⟩ := List.forall_mem_cons.mp ih
        obtain ⟨hvnumbers, hnumbers⟩ := List.forall_mem_append.mp h
        obtain ⟨t, ht⟩ := hv hvnumbers
        obtain ⟨t', ht'⟩ := ihmembers hrest hnumbers false
        rw [dumpMembers, ht, ht']
        exact ⟨_, rfl⟩
    obtain ⟨t, ht⟩ := hmembers true
    rw [dump, ht]
    exact ⟨_, rfl⟩

/-- What `parse` makes of a text that was written. -/
theorem parse_dump (h : v.Distinct) (htext : dump v = some text) :
    ((∀ d ∈ v.numbers, (readBack d).isSome) ∧ parse text = v.reread) ∨
      ((∃ d ∈ v.numbers, readBack d = none) ∧ parse text ≠ v) := by
  have hread := parseValue_dump v (2 * text.length + 2) text [] htext h (by omega)
    (fun _ hc => nomatch hc)
  rw [List.append_nil] at hread
  obtain ⟨hall, heq⟩ | ⟨hnone, -, hlt⟩ := hread
  · exact .inl ⟨hall, congrArg Prod.fst heq⟩
  · refine .inr ⟨hnone, ?_⟩
    intro heq
    have hnumbers := congrArg (fun w => w.numbers.length) heq
    rw [numbers_reread, List.length_map] at hlt
    exact hlt.ne hnumbers

/-- **The trees that come back**: their numbers do. -/
theorem treeRoundTrip_iff (v : Value) (h : v.Distinct) :
    RoundTrip v ↔ ∀ d ∈ v.numbers, Survives d := by
  have hnumbers : (∀ d ∈ v.numbers, Survives d) ↔ ∀ d ∈ v.numbers, readBack d = some d :=
    forall₂_congr fun d _ => readBack_iff.symm
  rw [hnumbers]
  constructor
  · rintro ⟨text, htext, hparse⟩
    obtain ⟨hall, heq⟩ | ⟨-, hne⟩ := parse_dump h htext
    · exact readBack_of_reread_eq (heq.symm.trans hparse) hall
    · exact absurd hparse hne
  · intro hback
    have hwritten : ∀ d ∈ v.numbers, ∃ t, dumpNumber d = some t := by
      intro d hd
      obtain ⟨t, ht, -⟩ := Option.bind_eq_some_iff.mp (hback d hd)
      exact ⟨t, ht⟩
    obtain ⟨text, htext⟩ := exists_dump hwritten
    refine ⟨text, htext, ?_⟩
    obtain ⟨-, heq⟩ | ⟨⟨d, hd, hnone⟩, -⟩ := parse_dump h htext
    · rw [heq, reread_eq hback]
    · rw [hback d hd] at hnone
      cases hnone

/-- A station with its latitude, 14.125, and a name with a quote in it. -/
def station : Value :=
  .object [(['i', 'd'], .number (.finite 42 (by decide +kernel))),
    (['l', 'a', 't'], .number (.finite (113 / 8) (by decide +kernel))),
    (['c', 'a', 'l', 'l'], .array [.string ['"', '\n'], .boolean true, .null])]

/-- The station comes back. -/
theorem treeRoundTrip_iff_station : RoundTrip station := by
  refine (treeRoundTrip_iff station ⟨by decide, trivial, trivial,
    ⟨trivial, trivial, trivial, trivial⟩, trivial⟩).mpr ?_
  intro d hd
  obtain rfl | hd := List.mem_cons.mp hd
  · exact ⟨42, _, rfl, by decide +kernel, .inl ⟨42, rfl⟩⟩
  · rw [List.mem_singleton.mp hd]
    exact ⟨113 / 8, _, rfl, by decide +kernel, .inr ⟨14125, -3, by decide +kernel⟩⟩

/-- A number that a decimal of fifteen digits denotes. -/
def FifteenDigits (d : Double) : Prop :=
  ∃ x h, d = .finite x h ∧ ∃ (m : ℕ) (k : ℤ), m < 10 ^ 15 ∧ |x| = rnd (m * 10 ^ k)

/-- The number that a double is; 0 if it is none. -/
def rational : Double → ℚ
  | .finite x _ => x
  | .infinite _ => 0
  | .nan => 0

theorem isDouble_half : IsDouble (2469135 / 2) := by decide +kernel

/-- Not every tree comes back: 1234567.5 is written as `1.23457e+06` and read as 1234570. -/
theorem treeRoundTrip_fail : ¬ ∀ v : Value, v.Distinct → (∀ d ∈ v.numbers, FifteenDigits d) →
    RoundTrip v := by
  intro hall
  have hdigits : ∀ d ∈ (Value.number (.finite _ isDouble_half)).numbers, FifteenDigits d := by
    intro d hd
    rw [List.mem_singleton.mp hd]
    exact ⟨_, isDouble_half, rfl, 12345675, -1, by decide +kernel⟩
  obtain ⟨text, htext, hparse⟩ := hall (.number (.finite _ isDouble_half)) trivial hdigits
  have hwritten : dumpNumber (.finite _ isDouble_half) =
      some ['1', '.', '2', '3', '4', '5', '7', 'e', '+', '0', '6'] := by decide +kernel
  obtain rfl := Option.some.inj (hwritten.symm.trans htext)
  have hread : (parse ['1', '.', '2', '3', '4', '5', '7', 'e', '+', '0', '6']).numbers.map rational
      = [1234570] := by decide +kernel
  rw [hparse] at hread
  have hne : (2469135 / 2 : ℚ) ≠ 1234570 := by norm_num
  exact hne (List.cons.inj hread).1

end OpenALE.MiniJson
