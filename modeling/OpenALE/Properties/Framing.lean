import OpenALE.Message.Sections
import OpenALE.Properties.Message
import OpenALE.Properties.GroupAddresses

/-!
# Frames as their sections

The words the sequence builders emit, read as sections of types.

Results:
* `types_encode`: the words of an address are its anchor and its extension words.
* `fits_encodeGroupFrom`: what the `REP` anchors of a group may stand next to.
* `types_encodeAmd`, `types_lqaReport`: how long a text and a report may be.
* `accepts_frame`: a frame put together of such sections is accepted iff the loops accept its
  leading call and its message.
-/

namespace OpenALE

/-- The characters of an address. -/
def Basic38 (addr : Str) : Prop := ∀ c ∈ addr, validBasic38 c = true

instance (addr : Str) : Decidable (Basic38 addr) :=
  decidable_of_iff (addr.all validBasic38 = true) List.all_eq_true

namespace FrameValidator

theorem types_append (a b : List ALEWord) : types (a ++ b) = types a ++ types b := List.map_append

/-! ## The words of an address -/

section Address

variable {a : Str}

theorem length_chunk (a : Str) : (chunk a).length = max 1 ((min 15 a.length + 2) / 3) := by
  have h := length_triples '@' (a.take 15)
  rw [List.length_take] at h
  unfold chunk
  split
  · rename_i hn
    rw [hn, List.length_nil] at h
    rw [← h]
    rfl
  · rename_i c cs hc
    rw [hc, List.length_cons] at h
    rw [← h, List.length_cons]
    omega

theorem types_zipWith {ts : List PreambleType} {cs : List Str} (ht : ∀ t ∈ ts, t ≠ .unknown)
    (hc : ∀ c ∈ cs, c.length = 3 ∧ ∀ x ∈ c, validBasic38 x = true) :
    types (List.zipWith makeWord ts cs) = ts.take cs.length := by
  induction ts generalizing cs with
  | nil => simp [types]
  | cons t ts ih =>
    cases cs with
    | nil => rfl
    | cons c cs =>
      obtain ⟨ht, hts⟩ := List.forall_mem_cons.mp ht
      obtain ⟨⟨hl, hx⟩, hcs⟩ := List.forall_mem_cons.mp hc
      rw [List.length_cons, List.take_succ_cons, ← ih hts hcs, List.zipWith_cons_cons]
      exact congrArg (· :: _) (makeWord_chunk ht hl hx).1

/-- The words of an address: the anchor and its extension words. -/
theorem types_encode (h : Basic38 a) {t : PreambleType} (ht : t ≠ .unknown) :
    types (encode a t) = addrTypes t ((chunk a).length - 1) := by
  have hchunk : ∀ c ∈ chunk a, c.length = 3 ∧ ∀ x ∈ c, validBasic38 x = true :=
    fun c hc => chunk_chars h hc
  have hfirst := hchunk _ (headD_mem_chunk a)
  have htail : types (encodeExt (chunk a).tail) = extTypes.take (chunk a).tail.length :=
    types_zipWith (by decide) fun c hc => hchunk c (List.mem_of_mem_tail hc)
  unfold encode addrTypes
  rw [List.length_tail] at htail
  rw [← htail]
  exact congrArg (· :: _) (makeWord_chunk ht hfirst.1 hfirst.2).1

theorem type_encodeFirst (h : Basic38 a) {t : PreambleType} (ht : t ≠ .unknown) :
    (encodeFirst a t).type = t := by
  obtain ⟨hl, hx⟩ := chunk_chars h (headD_mem_chunk a)
  exact (makeWord_chunk ht hl hx).1

end Address

/-! ## The members of a group -/

/-- No single-word member stands before another one with a third behind it, or before a member of
more than 12 characters. -/
def GroupFits : List Str → Prop
  | a :: b :: rest =>
    (a.length ≤ 3 → b.length ≤ 12 ∧ (b.length ≤ 3 → rest = [])) ∧ GroupFits (b :: rest)
  | _ => True

instance GroupFits.decidable : (members : List Str) → Decidable (GroupFits members)
  | [] => isTrue trivial
  | [_] => isTrue trivial
  | a :: b :: rest =>
    have := GroupFits.decidable (b :: rest)
    inferInstanceAs (Decidable ((a.length ≤ 3 → b.length ≤ 12 ∧ (b.length ≤ 3 → rest = [])) ∧ _))

section Group

variable {a b : Str} {as rest : List Str}

theorem groupFits_of_long (hb : 3 < b.length) : GroupFits (b :: rest) ↔ GroupFits rest := by
  cases rest with
  | nil => exact Iff.rfl
  | cons c rest =>
    refine ⟨fun h => h.2, fun h => ⟨fun hs => absurd hb (by omega), h⟩⟩

open Reconstruction in
/-- The next member opens a section of its own behind a member of several words, and none behind a
single word. -/
theorem types_encodeGroupFrom (h : Basic38 a) {l : PreambleType} :
    types (encodeGroupFrom .to l (a :: as)) =
      addrTypes (if l = .to then .rep else .to) ((chunk a).length - 1) ++
        types (encodeGroupFrom .to (if a.length ≤ 3 then .to else .data) as) := by
  have hanchor : (if l = .to then PreambleType.rep else .to) ≠ .unknown := by split <;> simp
  have ht : (if l = .to then PreambleType.rep else .to) = .to ∨
      (if l = .to then PreambleType.rep else .to) = .rep ∧ l = .to := by
    split <;> simp [*]
  have hlast : lastTypeOf a = if a.length ≤ 3 then .to else .data := by
    unfold lastTypeOf
    rw [length_chunk]
    refine if_congr ?_ rfl rfl
    omega
  simp only [encodeGroupFrom]
  rw [types_append, types_encode h hanchor, lastNonRep_encode ht, hlast]

theorem encodeGroup_eq (as : List Str) : encodeGroup as .to = encodeGroupFrom .to .data as := by
  cases as with
  | nil => rfl
  | cons a as => rfl

theorem opens_encodeGroupFrom (h : ∀ a ∈ as, Basic38 a) :
    Opens (types (encodeGroupFrom .to .data as)) := by
  cases as with
  | nil => exact opens_nil
  | cons a as =>
    rw [types_encodeGroupFrom (h a (by simp))]
    exact opens_cons ⟨rfl, by simp⟩

/-- A single word with a member of several words behind it. -/
theorem fits_single_append (n : Nat) (hn : n ≤ 4) :
    fits (.to :: addrTypes .rep n) = decide (n ≤ 3) := by
  interval_cases n <;> rfl

/-- **What the two loops make of a group.** -/
theorem fits_encodeGroupFrom : ∀ {as : List Str}, (∀ a ∈ as, Basic38 a) →
    (fits (types (encodeGroupFrom .to .data as)) = true ↔ GroupFits as)
  | [], _ => by
    simp only [encodeGroupFrom, GroupFits, iff_true]
    rfl
  | [a], h => by
    rw [types_encodeGroupFrom (h a (by simp))]
    simp only [encodeGroupFrom, types, List.map_nil, List.append_nil, GroupFits, iff_true]
    exact fits_addrTypes _ _
  | a :: b :: rest, h => by
    have ha := h a (by simp)
    have hb := h b (by simp)
    have hbrest : ∀ c ∈ b :: rest, Basic38 c := fun c hc => h c (List.mem_cons_of_mem a hc)
    have hrest : ∀ c ∈ rest, Basic38 c := fun c hc => hbrest c (List.mem_cons_of_mem b hc)
    rw [types_encodeGroupFrom ha, if_neg (by simp)]
    simp only [GroupFits]
    by_cases has : a.length ≤ 3
    · -- a single word: the next member's words join its section
      have hca : (chunk a).length - 1 = 0 := by rw [length_chunk]; omega
      rw [if_pos has, hca, types_encodeGroupFrom hb, if_pos rfl]
      by_cases hbs : b.length ≤ 3
      · have hcb : (chunk b).length - 1 = 0 := by rw [length_chunk]; omega
        rw [if_pos hbs, hcb]
        cases rest with
        | nil =>
          refine iff_of_true rfl ⟨fun _ => ⟨by omega, fun _ => rfl⟩, trivial⟩
        | cons c rest =>
          have hc := hrest c (by simp)
          rw [types_encodeGroupFrom hc, if_pos rfl]
          refine iff_of_false (fun hf => ?_) fun hg => ?_
          · exact absurd hf (by simp [fits, addrTypes, repLoop])
          · exact absurd ((hg.1 has).2 hbs) (by simp)
      · have hlen := length_chunk b
        have hcb : (chunk b).length - 1 ≤ 4 := by omega
        have h12 : (chunk b).length - 1 ≤ 3 ↔ b.length ≤ 12 := by omega
        have hfits : fits (addrTypes .to 0 ++ (addrTypes .rep ((chunk b).length - 1) ++
            types (encodeGroupFrom .to .data rest))) =
            (decide ((chunk b).length - 1 ≤ 3) &&
              fits (types (encodeGroupFrom .to .data rest))) := by
          rw [← List.append_assoc, fits_append (opens_encodeGroupFrom hrest),
            ← fits_single_append _ hcb]
          rfl
        rw [if_neg hbs, hfits, Bool.and_eq_true, decide_eq_true_eq, h12,
          fits_encodeGroupFrom hrest, groupFits_of_long (by omega)]
        constructor
        · rintro ⟨h1, h2⟩
          exact ⟨fun _ => ⟨h1, fun hs => absurd hs hbs⟩, h2⟩
        · rintro ⟨h1, h2⟩
          exact ⟨(h1 has).1, h2⟩
    · rw [if_neg has, fits_append (opens_encodeGroupFrom hbrest), fits_addrTypes, Bool.true_and,
        fits_encodeGroupFrom hbrest]
      exact ⟨fun hg => ⟨fun hs => absurd hs has, hg⟩, fun hg => hg.2⟩

end Group

/-! ## The scanning section -/

section Scanning

variable {members : List Str} {n : UInt32}

theorem types_scanningCall {a : Str} (h : Basic38 a) (n : UInt32) :
    types (scanningCall a n) = List.replicate (n * 2).toNat .to := by
  unfold scanningCall
  split
  · rename_i h0
    subst h0
    rfl
  · unfold types
    rw [List.map_replicate, type_encodeFirst h (by simp)]

theorem pairs_succ' (n : Nat) : pairs (n + 1) = pairs n ++ [.thru, .rep] := by
  unfold pairs
  rw [List.replicate_succ', List.flatten_append]
  rfl

theorem map_range_pairs (n : Nat) :
    (List.range (2 * n)).map (fun i => if i % 2 = 0 then PreambleType.thru else .rep) = pairs n := by
  induction n with
  | zero => rfl
  | succ n ih =>
    rw [pairs_succ', ← ih, show 2 * (n + 1) = 2 * n + 1 + 1 from rfl, List.range_succ,
      List.range_succ, List.map_append, List.map_append, List.append_assoc]
    have h1 : (2 * n) % 2 = 0 := by omega
    simp [h1]

theorem twice_even (n : UInt32) : ∃ k, (n * 2).toNat = 2 * k := by
  refine ⟨(n * 2).toNat / 2, ?_⟩
  rw [UInt32.toNat_mul]
  have : (2 : UInt32).toNat = 2 := rfl
  rw [this]
  omega

/-- `TO` words when the members share their first word, `THRU`-`REP` pairs otherwise. -/
theorem types_scanningCallGroup (h : ∀ a ∈ members, Basic38 a) (n : UInt32) :
    (∃ k, types (scanningCallGroup members n) = List.replicate k .to) ∨
      ∃ k, types (scanningCallGroup members n) = pairs k := by
  have huf : ∀ a ∈ uniqueFirst [] members, Basic38 a := uniqueFirst_chars (by simp) h
  unfold scanningCallGroup
  split
  · exact Or.inl ⟨0, rfl⟩
  dsimp only
  split
  · refine Or.inl ⟨_, types_scanningCall ?_ n⟩
    rw [List.headD_eq_getD]
    exact getD_chars huf 0
  · obtain ⟨k, hk⟩ := twice_even n
    refine Or.inr ⟨k, ?_⟩
    rw [hk, ← map_range_pairs]
    unfold types
    rw [List.map_map]
    refine List.map_congr_left fun i _ => type_encodeFirst (getD_chars huf _) ?_
    split <;> simp

theorem length_uniqueFirst {acc : List Str} (h : acc.length ≤ 4) :
    (uniqueFirst acc members).length ≤ 5 := by
  induction members generalizing acc with
  | nil => exact Nat.le_succ_of_le h
  | cons m ms ih =>
    have hacc : (if cstr (encodeFirst m .to).address ∈ acc then acc
        else acc ++ [cstr (encodeFirst m .to).address]).length ≤ 5 := by
      split
      · omega
      · rw [List.length_append, List.length_singleton]
        omega
    unfold uniqueFirst
    dsimp only
    generalize (if cstr (encodeFirst m .to).address ∈ acc then acc
        else acc ++ [cstr (encodeFirst m .to).address]) = acc' at hacc ⊢
    split
    · exact hacc
    · exact ih (by omega)

theorem le_length_uniqueFirst (acc members : List Str) :
    acc.length ≤ (uniqueFirst acc members).length := by
  induction members generalizing acc with
  | nil => exact Nat.le_refl _
  | cons m ms ih =>
    have hacc : acc.length ≤ (if cstr (encodeFirst m .to).address ∈ acc then acc
        else acc ++ [cstr (encodeFirst m .to).address]).length := by
      split <;> simp
    unfold uniqueFirst
    dsimp only
    generalize (if cstr (encodeFirst m .to).address ∈ acc then acc
        else acc ++ [cstr (encodeFirst m .to).address]) = acc' at hacc ⊢
    split
    · exact hacc
    · exact le_trans hacc (ih acc')

theorem length_uniqueFirst_pos {m : Str} {ms : List Str} :
    0 < (uniqueFirst [] (m :: ms)).length := by
  have h := le_length_uniqueFirst [cstr (encodeFirst m .to).address] ms
  simpa [uniqueFirst, Nat.succ_le_iff] using h

/-- At most five `THRU` targets. -/
theorem targets_scanningCallGroup (h : ∀ a ∈ members, Basic38 a) (n : UInt32) :
    ∃ targets : List Str, targets.length ≤ 5 ∧ ∀ w ∈ scanningCallGroup members n, w.type = .thru →
      w.address ∈ targets := by
  have hone : ∀ {a : Str} {m : UInt32} {w : ALEWord}, w ∈ scanningCall a m →
      w.address ∈ [(encodeFirst a .to).address] := by
    intro a m w hw
    unfold scanningCall at hw
    split at hw
    · exact absurd hw List.not_mem_nil
    · rw [List.eq_of_mem_replicate hw]
      exact List.mem_singleton_self _
  unfold scanningCallGroup
  split
  · exact ⟨[], by simp, by simp⟩
  dsimp only
  split
  · exact ⟨[_], by simp, fun w hw _ => hone hw⟩
  · rename_i hne
    refine ⟨(uniqueFirst [] members).map fun u => (encodeFirst u .thru).address, ?_, ?_⟩
    · rw [List.length_map]
      exact length_uniqueFirst (Nat.zero_le 4)
    · intro w hw ht
      obtain ⟨i, -, rfl⟩ := List.mem_map.mp hw
      split at ht
      · rename_i hi
        have hpos : 0 < (uniqueFirst [] members).length := by
          cases members with
          | nil => exact absurd (Or.inr rfl) ‹¬ (n = 0 ∨ ([] : List Str) = [])›
          | cons m ms => exact length_uniqueFirst_pos
        have hlt := Nat.mod_lt i hpos
        rw [if_pos hi, List.getD_eq_getElem _ _ hlt]
        exact List.mem_map.mpr ⟨_, List.getElem_mem hlt, rfl⟩
      · rw [type_encodeFirst (getD_chars (uniqueFirst_chars (by simp) h) _) (by simp)] at ht
        exact absurd ht (by simp)

end Scanning

/-! ## The message section -/

section Message

variable {ts : List PreambleType}

theorem countLoop_ext (h : ∀ t ∈ ts, t.isExt = true) {c : Nat} (hc : c ≤ 5) :
    countLoop c ts = decide (c + ts.length ≤ 5) := by
  induction ts generalizing c with
  | nil => simp [countLoop]
  | cons t ts ih =>
    obtain ⟨ht, hts⟩ := List.forall_mem_cons.mp h
    have hstep : countLoop c (t :: ts) = if 5 < c + 1 then false else countLoop (c + 1) ts := by
      cases t <;> first | rfl | exact absurd ht (by decide)
    rw [hstep, List.length_cons]
    split
    · rw [eq_comm, decide_eq_false_iff_not]
      omega
    · rw [ih hts (by omega)]
      refine decide_eq_decide.mpr ?_
      omega

theorem repLoop_no_rep (h : .rep ∉ ts) (p : PreambleType) : repLoop p ts = true := by
  induction ts generalizing p with
  | nil => rfl
  | cons t ts ih =>
    rw [List.mem_cons, not_or] at h
    unfold repLoop
    rw [if_neg fun hr => h.1 hr.1.symm]
    exact ih h.2 t

/-- The words of a text behind its header: `DATA` and `REP` in turn. -/
theorem types_encodeAmdFrom {cs : List Str} (h : ∀ c ∈ cs, Chunk64 c) (i : Nat) :
    (∀ t ∈ types (encodeAmdFrom i cs), t.isExt = true) ∧
      (types (encodeAmdFrom i cs)).length = cs.length ∧
      ∀ p, i % 2 = 1 ∨ p = .data → repLoop p (types (encodeAmdFrom i cs)) = true := by
  induction cs generalizing i with
  | nil => exact ⟨by simp [types, encodeAmdFrom], rfl, fun _ _ => rfl⟩
  | cons c cs ih =>
    obtain ⟨hc, hcs⟩ := List.forall_mem_cons.mp h
    obtain ⟨h1, h2, h3⟩ := ih hcs (i + 1)
    have htype : (makeWord (if i % 2 = 1 then .data else .rep) c).type =
        if i % 2 = 1 then .data else .rep := by
      refine (makeWord_chunk64 ?_ hc).1
      split <;> simp
    have hcons : types (encodeAmdFrom i (c :: cs)) =
        (if i % 2 = 1 then .data else .rep) :: types (encodeAmdFrom (i + 1) cs) :=
      congrArg (· :: _) htype
    rw [hcons]
    refine ⟨?_, by rw [List.length_cons, h2, List.length_cons], fun p hp => ?_⟩
    · refine List.forall_mem_cons.mpr ⟨?_, h1⟩
      split <;> rfl
    · unfold repLoop
      by_cases hi : i % 2 = 1
      · rw [if_pos hi, if_neg (by simp)]
        exact h3 .data (Or.inr rfl)
      · have hp : p = .data := hp.resolve_left hi
        rw [if_neg hi, hp, if_neg (by simp)]
        exact h3 .rep (Or.inl (by omega))

/-- The types of a text, and how long it may be. -/
theorem types_encodeAmd {text : Str} (hne : text ≠ []) : ∃ ts,
    types (encodeAmd text) = .cmd :: ts ∧ (∀ t ∈ ts, t.isExt = true) ∧
      (fits (.cmd :: ts) = true ↔ text.length ≤ 18) := by
  have hchunk : ∀ c ∈ triples ' ' ((text.take 90).map sanitizeAmd), Chunk64 c := chunk64_of_mem
  have hlen := length_triples ' ' ((text.take 90).map sanitizeAmd)
  rw [List.length_map, List.length_take] at hlen
  have hpos := List.length_pos_iff.mpr hne
  unfold encodeAmd
  split
  · rename_i h0
    rw [h0, List.length_nil] at hlen
    omega
  · rename_i c cs hcs
    rw [hcs] at hchunk hlen
    rw [List.length_cons] at hlen
    obtain ⟨hc, hcs'⟩ := List.forall_mem_cons.mp hchunk
    obtain ⟨h1, h2, h3⟩ := types_encodeAmdFrom hcs' 1
    refine ⟨types (encodeAmdFrom 1 cs), congrArg (· :: _) (makeCmdAmdWord_chunk64 hc).1, h1, ?_⟩
    have hrep : repLoop .unknown (.cmd :: types (encodeAmdFrom 1 cs)) = true := by
      unfold repLoop
      rw [if_neg (by simp)]
      exact h3 .cmd (Or.inl rfl)
    have hcount : countLoop 0 (.cmd :: types (encodeAmdFrom 1 cs)) =
        decide (0 + (types (encodeAmdFrom 1 cs)).length ≤ 5) :=
      countLoop_ext h1 (Nat.zero_le 5)
    unfold fits
    rw [hrep, hcount, Bool.true_and, decide_eq_true_eq, h2]
    omega

/-- The types of a link-quality report, and how many entries it may have. -/
theorem types_lqaReport {reports : List LQAReport} (hne : reports ≠ []) : ∃ ts,
    types (lqaReport reports) = .cmd :: ts ∧ (∀ t ∈ ts, t.isExt = true) ∧
      (fits (.cmd :: ts) = true ↔ reports.length ≤ 2) := by
  have hpos := List.length_pos_iff.mpr hne
  have hlen : (packReports reports).length = (36 * reports.length + 20) / 21 := by
    unfold packReports
    rw [if_neg hne]
    dsimp only
    rw [List.length_map, List.length_range, length_reportBits, Nat.mul_div_cancel_left _ (by decide)]
  have htypes : types (lqaReport reports) =
      .cmd :: List.replicate (packReports reports).length .data := by
    unfold lqaReport types
    rw [if_neg hne, List.map_cons, List.map_map]
    exact congrArg (_ :: ·) List.map_const'
  have hext : ∀ t ∈ List.replicate (packReports reports).length PreambleType.data,
      t.isExt = true := by
    intro t ht
    rw [List.eq_of_mem_replicate ht]
    rfl
  refine ⟨_, htypes, hext, ?_⟩
  have hrep : repLoop .unknown (.cmd :: List.replicate (packReports reports).length .data) =
      true := repLoop_no_rep (by simp) _
  have hcount : countLoop 0 (.cmd :: List.replicate (packReports reports).length .data) = _ :=
    countLoop_ext hext (Nat.zero_le 5)
  unfold fits
  rw [hrep, hcount, Bool.true_and, decide_eq_true_eq, List.length_replicate, hlen]
  omega

end Message

/-! ## A frame put together -/

/-- Parts of a message: each starts with `CMD`. -/
def Part (ts : List PreambleType) : Prop :=
  ts = [] ∨ ∃ es, ts = .cmd :: es ∧ ∀ t ∈ es, t = .cmd ∨ t.isExt = true

section Put

variable {a b : List PreambleType}

theorem part_nil : Part [] := Or.inl rfl

theorem part_cmd {es : List PreambleType} (h : ∀ t ∈ es, t.isExt = true) : Part (.cmd :: es) :=
  Or.inr ⟨es, rfl, fun t ht => Or.inr (h t ht)⟩

theorem Part.opens (h : Part a) : Opens a := by
  rcases h with rfl | ⟨es, rfl, -⟩
  · exact opens_nil
  · exact opens_cons ⟨rfl, by simp⟩

theorem Part.append (ha : Part a) (hb : Part b) : Part (a ++ b) := by
  rcases ha with rfl | ⟨es, rfl, hes⟩
  · exact hb
  refine Or.inr ⟨es ++ b, rfl, fun t ht => ?_⟩
  rcases List.mem_append.mp ht with ht | ht
  · exact hes t ht
  · rcases hb with rfl | ⟨fs, rfl, hfs⟩
    · exact absurd ht List.not_mem_nil
    · rcases List.mem_cons.mp ht with rfl | ht
      · exact Or.inl rfl
      · exact hfs t ht

/-- A leading call: `TO` words and extension words. -/
def Lead (ts : List PreambleType) : Prop :=
  ts = [] ∨ ∃ es, ts = .to :: es ∧ ∀ t ∈ es, t = .to ∨ t.isExt = true

theorem lead_leadingCall {addr : Str} (h : Basic38 addr) : Lead (types (leadingCall addr)) ∧
    fits (types (leadingCall addr)) = true ∧ leadingCall addr ≠ [] := by
  have ht := types_encode h (t := .to) (by simp)
  unfold leadingCall sentTwice
  rw [types_append, ht]
  refine ⟨Or.inr ⟨_, rfl, fun t hm => ?_⟩, ?_, by simp [encode]⟩
  · rcases List.mem_append.mp hm with hm | hm
    · exact Or.inr (isExt_of_mem_take hm)
    · exact Sections.mem_addrTypes hm
  · rw [fits_append (opens_addrTypes ⟨rfl, by simp⟩ _), fits_addrTypes]
    rfl

theorem mem_encodeGroupFrom {members : List Str} (h : ∀ a ∈ members, Basic38 a) {l : PreambleType}
    {t : PreambleType} (ht : t ∈ types (encodeGroupFrom .to l members)) :
    t = .to ∨ t.isExt = true := by
  induction members generalizing l with
  | nil => exact absurd ht List.not_mem_nil
  | cons a as ih =>
    rw [types_encodeGroupFrom (h a (by simp))] at ht
    rcases List.mem_append.mp ht with ht | ht
    · rcases Sections.mem_addrTypes ht with rfl | ht
      · split <;> simp [PreambleType.isExt]
      · exact Or.inr ht
    · exact ih (fun a' ha' => h a' (List.mem_cons_of_mem a ha')) ht

theorem lead_leadingCallGroup {members : List Str} (h : ∀ a ∈ members, Basic38 a)
    (hne : members ≠ []) : Lead (types (leadingCallGroup members)) ∧
      (fits (types (leadingCallGroup members)) = true ↔ GroupFits members) ∧
      leadingCallGroup members ≠ [] := by
  have hfits := fits_encodeGroupFrom h
  have hopens := opens_encodeGroupFrom h
  unfold leadingCallGroup sentTwice
  rw [encodeGroup_eq, types_append, fits_append hopens, Bool.and_self]
  refine ⟨?_, hfits, ?_⟩
  · cases members with
    | nil => exact absurd rfl hne
    | cons a as =>
      have hmem : ∀ t ∈ types (encodeGroupFrom .to .data (a :: as)), t = .to ∨ t.isExt = true :=
        fun t => mem_encodeGroupFrom h
      have hhead := @types_encodeGroupFrom a as (h a (by simp)) .data
      rw [if_neg (by simp)] at hhead
      refine Or.inr ⟨(types (encodeGroupFrom .to .data (a :: as))).tail ++
        types (encodeGroupFrom .to .data (a :: as)), ?_, fun t ht => ?_⟩
      · rw [hhead]
        rfl
      · rcases List.mem_append.mp ht with ht | ht
        · exact hmem t (List.mem_of_mem_tail ht)
        · exact hmem t ht
  · cases members with
    | nil => exact absurd rfl hne
    | cons a as => simp [encodeGroupFrom, encode]

/-- **A frame is accepted iff the loops accept its leading call and its message.** -/
theorem accepts_frame {self : Str} {t : PreambleType} {scan lead frm msg scanning : List ALEWord}
    (hself : Basic38 self) (ht : t = .tis ∨ t = .twas)
    (hscan : (∃ n, types scan = List.replicate n .to) ∨ ∃ n, types scan = pairs n)
    (hscanning : scanning = scan ∨ scanning = []) (hlead : Lead (types lead))
    (hfrm : frm = [] ∨ frm = fromId self ∧ msg ≠ []) (hmsg : Part (types msg))
    (hcall : msg ≠ [] → lead ≠ []) {targets : List Str} (h5 : targets.length ≤ 5)
    (hw : ∀ w ∈ scan, w.type = .thru → w.address ∈ targets) :
    accepts scanning (scan ++ lead ++ frm ++ msg ++ encode self t) =
      (fits (types lead) && fits (types msg)) := by
  have hnil : ∀ {ws : List ALEWord}, types ws = [] ↔ ws = [] := List.map_eq_nil_iff
  have hunknown : t ≠ .unknown := by rcases ht with rfl | rfl <;> simp
  have hf : types frm = [] ∨ ∃ n, types frm = addrTypes .frm n ∧ types msg ≠ [] := by
    rcases hfrm with rfl | ⟨rfl, hm⟩
    · exact Or.inl rfl
    · exact Or.inr ⟨_, types_encode hself (by simp), fun hn => hm (hnil.mp hn)⟩
  have hwf : Sections.WellFormed ⟨types scan, types lead, types frm, types msg, t,
      (chunk self).length - 1⟩ := by
    refine ⟨hscan, hlead, hf, ?_, ht⟩
    rcases hmsg with hm | ⟨es, hm, hes⟩
    · exact Or.inl hm
    · refine Or.inr ⟨es, hm, hes, fun hl => hcall ?_ (hnil.mp hl)⟩
      rintro rfl
      exact absurd hm (by simp [types])
  have htypes : types (scan ++ lead ++ frm ++ msg ++ encode self t) =
      Sections.types ⟨types scan, types lead, types frm, types msg, t, (chunk self).length - 1⟩ := by
    unfold Sections.types
    simp only [types_append, List.append_assoc, types_encode hself hunknown]
  have htarget : ∀ w ∈ scan ++ lead ++ frm ++ msg ++ encode self t, w.type = .thru →
      w.address ∈ targets := by
    intro w hm hth
    simp only [List.append_assoc] at hm
    rcases List.mem_append.mp hm with hm | hm
    · exact hw w hm hth
    · refine absurd ?_ hwf.thru_not_mem
      have : w.type ∈ types (lead ++ (frm ++ (msg ++ encode self t))) := List.mem_map_of_mem hm
      rw [hth] at this
      simpa only [types_append, types_encode hself hunknown] using this
  have hscanFits : fits (types scan) = true := by
    rcases hscan with ⟨n, hn⟩ | ⟨n, hn⟩ <;> rw [hn]
    · exact fits_replicate_to n
    · exact fits_pairs n
  have hfrmFits : fits (types frm) = true := by
    rcases hf with hf | ⟨n, hf, -⟩ <;> rw [hf]
    · rfl
    · exact fits_addrTypes _ _
  rw [hwf.accepts_eq htypes (hscanning.imp (congrArg types) id) h5 htarget, hscanFits, hfrmFits,
    Bool.true_and, Bool.true_and]

end Put

end FrameValidator

end OpenALE
