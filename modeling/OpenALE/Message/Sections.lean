import OpenALE.Message.Validator

/-!
# The sections of a frame as the validator reads them

A frame is a scanning section, a leading call, `FROM`, a message and a conclusion. Two of the
validator's loops carry a value across the words (`repLoop`, `countLoop`); each takes the sections
one by one, as long as the next one opens with an anchor or `CMD`. The other checks hold of every
frame that is put together in this order.

Results:
* `fits_append`: the two loops accept a frame iff they accept its sections.
* `Sections.WellFormed.accepts_iff`: what is left of the validator for such a frame.
-/

namespace OpenALE

namespace FrameValidator

/-- The checks on a complete frame; `thru_rep_alternates` reads its scanning section. -/
def accepts (scanning words : List ALEWord) : Bool :=
  fromCountValid words && fromPrecedesCmdOnly words && thruInScanningSectionOnly words &&
    groupCallTargetCountValid words && thruRepAlternates scanning &&
    tisTwasMutuallyExclusive words && cmdNotBeforeAddressSection words &&
    cmdHasCallAndConclusion words && repNotPrecededBySelfTisTwas words &&
    addressSectionWordCountValid words

/-- The two checks that carry a value from word to word. -/
def fits (ts : List PreambleType) : Bool := repLoop .unknown ts && countLoop 0 ts

/-! ## Section by section -/

section Loops

variable {a b ts : List PreambleType}

/-- The types start with an anchor or `CMD`. -/
def Opens (ts : List PreambleType) : Prop := ∀ t ∈ ts.head?, t.isExt = false ∧ t ≠ .unknown

theorem opens_nil : Opens [] := by
  intro t ht
  simp at ht

theorem opens_cons {t : PreambleType} (ht : t.isExt = false ∧ t ≠ .unknown) : Opens (t :: ts) := by
  intro u hu
  rw [List.head?_cons, Option.mem_some] at hu
  rwa [← hu]

theorem Opens.append (ha : Opens a) (hb : Opens b) : Opens (a ++ b) := by
  cases a with
  | nil => exact hb
  | cons t ts => exact opens_cons (ha t rfl)

theorem repLoop_opens (hb : Opens b) (p q : PreambleType) : repLoop p b = repLoop q b := by
  cases b with
  | nil => rfl
  | cons t ts =>
    have ht : t ≠ .rep := by
      rintro rfl
      exact absurd (hb _ rfl).1 (by decide)
    simp [repLoop, ht]

theorem repLoop_append (hb : Opens b) (p : PreambleType) :
    repLoop p (a ++ b) = (repLoop p a && repLoop .unknown b) := by
  induction a generalizing p with
  | nil => exact repLoop_opens hb p .unknown
  | cons t ts ih =>
    simp only [List.cons_append, repLoop]
    split
    · rfl
    · exact ih t

theorem countLoop_opens (hb : Opens b) (c : Nat) :
    countLoop c b = (countLoop c [] && countLoop 0 b) := by
  cases b with
  | nil => simp [countLoop]
  | cons t ts =>
    obtain ⟨h1, h2⟩ := hb t rfl
    by_cases hc : 5 < c
    · cases t <;> first | exact absurd h1 (by decide) | exact absurd rfl h2 | simp [countLoop, hc]
    · cases t <;> first | exact absurd h1 (by decide) | exact absurd rfl h2 |
        simp [countLoop, hc, Nat.le_of_not_lt hc]

theorem countLoop_append (hb : Opens b) (c : Nat) :
    countLoop c (a ++ b) = (countLoop c a && countLoop 0 b) := by
  induction a generalizing c with
  | nil => exact countLoop_opens hb c
  | cons t ts ih =>
    rw [List.cons_append]
    cases t <;> simp only [countLoop] <;> first | exact ih _ | skip
    all_goals
      split
      · rfl
      · exact ih _

/-- **The two loops accept a frame iff they accept its sections.** -/
theorem fits_append (hb : Opens b) : fits (a ++ b) = (fits a && fits b) := by
  unfold fits
  rw [repLoop_append hb, countLoop_append hb]
  cases repLoop .unknown a <;> cases countLoop 0 a <;> simp

theorem repNotPreceded_eq (words : List ALEWord) :
    repNotPrecededBySelfTisTwas words = repLoop .unknown (types words) := by
  unfold repNotPrecededBySelfTisTwas
  cases types words with
  | nil => rfl
  | cons t ts => simp [repLoop]

end Loops

/-! ## One section -/

section Section

variable {ts rest : List PreambleType}

/-- The types of an address: its anchor and `n` extension words. -/
def addrTypes (t : PreambleType) (n : Nat) : List PreambleType := t :: extTypes.take n

/-- `n` pairs of a scanning section to several first words. -/
def pairs (n : Nat) : List PreambleType := (List.replicate n [.thru, .rep]).flatten

theorem take_extTypes (n : Nat) : extTypes.take n ∈
    [[], [.data], [.data, .rep], [.data, .rep, .data], [.data, .rep, .data, .rep]] := by
  match n with
  | 0 | 1 | 2 | 3 => decide
  | n + 4 =>
    rw [List.take_of_length_le (by simp [extTypes])]
    decide

theorem fits_addrTypes (t : PreambleType) (n : Nat) : fits (addrTypes t n) = true := by
  have h := take_extTypes n
  unfold addrTypes
  generalize extTypes.take n = e at h
  simp only [List.mem_cons, List.not_mem_nil, or_false] at h
  rcases h with rfl | rfl | rfl | rfl | rfl <;> cases t <;> rfl

theorem opens_addrTypes {t : PreambleType} (ht : t.isExt = false ∧ t ≠ .unknown) (n : Nat) :
    Opens (addrTypes t n) := opens_cons ht

theorem isExt_of_mem_take {t : PreambleType} {n : Nat} (h : t ∈ extTypes.take n) :
    t.isExt = true := by
  have hall : ∀ u ∈ extTypes, u.isExt = true := by decide
  exact hall t (List.take_subset n _ h)

theorem fits_replicate_to (n : Nat) : fits (List.replicate n .to) = true := by
  induction n with
  | zero => rfl
  | succ n ih =>
    have ho : Opens (List.replicate n PreambleType.to) := by
      cases n with
      | zero => exact opens_nil
      | succ n => exact opens_cons ⟨rfl, by simp⟩
    rw [List.replicate_succ, ← List.singleton_append, fits_append ho, ih]
    rfl

theorem opens_pairs (n : Nat) : Opens (pairs n) := by
  cases n with
  | zero => exact opens_nil
  | succ n => exact opens_cons ⟨rfl, by simp⟩

theorem pairs_succ (n : Nat) : pairs (n + 1) = [.thru, .rep] ++ pairs n := rfl

theorem fits_pairs (n : Nat) : fits (pairs n) = true := by
  induction n with
  | zero => rfl
  | succ n ih =>
    rw [pairs_succ, fits_append (opens_pairs n), ih]
    rfl

theorem alternateLoop_pairs (n : Nat) : alternateLoop true (pairs n) = true := by
  induction n with
  | zero => rfl
  | succ n ih =>
    rw [pairs_succ]
    simpa [alternateLoop] using ih

theorem thruLoop_pairs (n : Nat) : thruLoop false (pairs n ++ ts) = thruLoop false ts := by
  induction n with
  | zero => rfl
  | succ n ih =>
    rw [pairs_succ, List.append_assoc]
    simpa [thruLoop] using ih

theorem alternateLoop_of_not_mem (ht : .thru ∉ ts) (hr : .rep ∉ ts) :
    alternateLoop true ts = true := by
  induction ts with
  | nil => rfl
  | cons t ts ih =>
    rw [List.mem_cons, not_or] at ht hr
    unfold alternateLoop
    rw [if_pos ⟨fun h => ht.1 h.symm, fun h => hr.1 h.symm⟩]
    exact ih ht.2 hr.2

theorem thruLoop_of_not_mem (h : .thru ∉ ts) (past : Bool) : thruLoop past ts = true := by
  induction ts generalizing past with
  | nil => rfl
  | cons t ts ih =>
    rw [List.mem_cons, not_or] at h
    cases t <;> first | exact absurd rfl h.1 | exact ih h.2 _

theorem fromLoop_append (h : .frm ∉ ts) : fromLoop (ts ++ rest) = fromLoop rest := by
  induction ts with
  | nil => rfl
  | cons t ts ih =>
    rw [List.mem_cons, not_or] at h
    simp only [List.cons_append, fromLoop]
    rw [if_neg fun hf => h.1 hf.1.symm]
    exact ih h.2

theorem fromLoop_of_not_mem (h : .frm ∉ ts) : fromLoop ts = true := by
  rw [← List.append_nil ts, fromLoop_append h]
  rfl

theorem cmdLoop_true (ts : List PreambleType) : cmdLoop true ts = true := by
  induction ts with
  | nil => rfl
  | cons t ts ih => cases t <;> exact ih

theorem cmdLoop_append_to (h : .cmd ∉ ts) (seen : Bool) : cmdLoop seen (ts ++ .to :: rest) = true := by
  induction ts generalizing seen with
  | nil => exact cmdLoop_true rest
  | cons t ts ih =>
    rw [List.mem_cons, not_or] at h
    cases t <;> first | exact absurd rfl h.1 | exact ih h.2 _

theorem cmdLoop_of_not_mem (h : .cmd ∉ ts) (seen : Bool) : cmdLoop seen ts = true := by
  induction ts generalizing seen with
  | nil => rfl
  | cons t ts ih =>
    rw [List.mem_cons, not_or] at h
    cases t <;> first | exact absurd rfl h.1 | exact ih h.2 _

theorem targetLoop_cons (seen : List Str) (w : ALEWord) (ws : List ALEWord) :
    targetLoop seen (w :: ws) =
      if w.type ≠ .thru then targetLoop seen ws
      else if w.address ∈ seen then targetLoop seen ws
      else if 5 ≤ seen.length then false
      else targetLoop (seen ++ [w.address]) ws := rfl

/-- Distinct `THRU` targets out of at most five. -/
theorem targetLoop_of_subset {targets seen : List Str} (h5 : targets.length ≤ 5)
    {words : List ALEWord} (hw : ∀ w ∈ words, w.type = .thru → w.address ∈ targets)
    (hn : seen.Nodup) (hs : seen ⊆ targets) : targetLoop seen words = true := by
  induction words generalizing seen with
  | nil => rfl
  | cons w ws ih =>
    obtain ⟨hw, hws⟩ := List.forall_mem_cons.mp hw
    rw [targetLoop_cons]
    split
    · exact ih hws hn hs
    rename_i ht
    have hmem := hw (not_not.mp ht)
    split
    · exact ih hws hn hs
    rename_i hnew
    have hn' : (seen ++ [w.address]).Nodup := by
      rw [List.nodup_append]
      refine ⟨hn, List.nodup_singleton _, ?_⟩
      intro a ha b hb hab
      rw [List.mem_singleton] at hb
      exact hnew (by rw [← hb, ← hab]; exact ha)
    have hs' : seen ++ [w.address] ⊆ targets := by
      intro a ha
      rcases List.mem_append.mp ha with ha | ha
      · exact hs ha
      · rw [List.mem_singleton.mp ha]
        exact hmem
    have hlen : (seen ++ [w.address]).length ≤ targets.length :=
      (hn'.subperm hs').length_le
    rw [List.length_append, List.length_singleton] at hlen
    rw [if_neg (by omega)]
    exact ih hws hn' hs'

end Section

/-! ## A whole frame -/

/-- The types of a frame by its sections; the conclusion is an anchor and `ext` extension words. -/
structure Sections where
  scan : List PreambleType
  lead : List PreambleType
  frm : List PreambleType
  msg : List PreambleType
  anchor : PreambleType
  ext : Nat

namespace Sections

/-- The sections in the order they are sent. -/
def types (q : Sections) : List PreambleType :=
  q.scan ++ (q.lead ++ (q.frm ++ (q.msg ++ addrTypes q.anchor q.ext)))

/-- The sections are what their names say: `FROM` only before a message, a message only behind a
leading call. -/
structure WellFormed (q : Sections) : Prop where
  scan : (∃ n, q.scan = List.replicate n .to) ∨ ∃ n, q.scan = pairs n
  lead : q.lead = [] ∨ ∃ ts, q.lead = .to :: ts ∧ ∀ t ∈ ts, t = .to ∨ t.isExt = true
  frm : q.frm = [] ∨ ∃ n, q.frm = addrTypes .frm n ∧ q.msg ≠ []
  msg : q.msg = [] ∨ ∃ ts, q.msg = .cmd :: ts ∧ (∀ t ∈ ts, t = .cmd ∨ t.isExt = true) ∧ q.lead ≠ []
  anchor : q.anchor = .tis ∨ q.anchor = .twas

variable {q : Sections} {words scanning : List ALEWord}

theorem WellFormed.mem_scan (h : q.WellFormed) {t : PreambleType} (ht : t ∈ q.scan) :
    t = .to ∨ t = .thru ∨ t = .rep := by
  rcases h.scan with ⟨n, hs⟩ | ⟨n, hs⟩ <;> rw [hs] at ht
  · exact Or.inl (List.eq_of_mem_replicate ht)
  · obtain ⟨p, hp, ht⟩ := List.mem_flatten.mp ht
    rw [List.eq_of_mem_replicate hp] at ht
    exact Or.inr (by simpa using ht)

theorem WellFormed.mem_lead (h : q.WellFormed) {t : PreambleType} (ht : t ∈ q.lead) :
    t = .to ∨ t.isExt = true := by
  rcases h.lead with hl | ⟨ts, hl, hts⟩ <;> rw [hl] at ht
  · exact absurd ht List.not_mem_nil
  · rcases List.mem_cons.mp ht with rfl | ht
    · exact Or.inl rfl
    · exact hts t ht

theorem mem_addrTypes {t u : PreambleType} {n : Nat} (h : u ∈ addrTypes t n) :
    u = t ∨ u.isExt = true :=
  (List.mem_cons.mp h).imp id isExt_of_mem_take

theorem WellFormed.mem_frm (h : q.WellFormed) {t : PreambleType} (ht : t ∈ q.frm) :
    t = .frm ∨ t.isExt = true := by
  rcases h.frm with hf | ⟨n, hf, -⟩ <;> rw [hf] at ht
  · exact absurd ht List.not_mem_nil
  · exact mem_addrTypes ht

theorem WellFormed.mem_msg (h : q.WellFormed) {t : PreambleType} (ht : t ∈ q.msg) :
    t = .cmd ∨ t.isExt = true := by
  rcases h.msg with hm | ⟨ts, hm, hts, -⟩ <;> rw [hm] at ht
  · exact absurd ht List.not_mem_nil
  · rcases List.mem_cons.mp ht with rfl | ht
    · exact Or.inl rfl
    · exact hts t ht

theorem mem_types {t : PreambleType} : t ∈ q.types ↔ t ∈ q.scan ∨ t ∈ q.lead ∨ t ∈ q.frm ∨
    t ∈ q.msg ∨ t ∈ addrTypes q.anchor q.ext := by
  unfold types
  simp only [List.mem_append]

section Checks

variable (h : q.WellFormed) (ht : OpenALE.types words = q.types)

include h

theorem WellFormed.anchor_isExt : q.anchor.isExt = false ∧ q.anchor ≠ .unknown := by
  rcases h.anchor with h | h <;> rw [h] <;> decide

theorem WellFormed.eq_anchor {t : PreambleType} (hm : t ∈ q.types) (hc : t = .tis ∨ t = .twas) :
    t = q.anchor := by
  have hne : t.isExt = false ∧ t ≠ .to ∧ t ≠ .thru ∧ t ≠ .rep ∧ t ≠ .frm ∧ t ≠ .cmd := by
    rcases hc with rfl | rfl <;> decide
  obtain ⟨h1, h2, h3, h4, h5, h6⟩ := hne
  rw [← Bool.not_eq_true] at h1
  rcases mem_types.mp hm with hm | hm | hm | hm | hm
  · rcases h.mem_scan hm with e | e | e
    · exact absurd e h2
    · exact absurd e h3
    · exact absurd e h4
  · exact absurd (h.mem_lead hm) (not_or.mpr ⟨h2, h1⟩)
  · exact absurd (h.mem_frm hm) (not_or.mpr ⟨h5, h1⟩)
  · exact absurd (h.mem_msg hm) (not_or.mpr ⟨h6, h1⟩)
  · exact (mem_addrTypes hm).resolve_right h1

theorem WellFormed.mem_conclusion {t : PreambleType} (hm : t ∈ addrTypes q.anchor q.ext) :
    (t = .tis ∨ t = .twas) ∨ t.isExt = true := by
  rcases mem_addrTypes hm with e | e
  · exact Or.inl (h.anchor.imp e.trans e.trans)
  · exact Or.inr e

theorem WellFormed.frm_not_mem :
    .frm ∉ q.scan ∧ .frm ∉ q.lead ∧ .frm ∉ q.msg ∧ .frm ∉ addrTypes q.anchor q.ext := by
  refine ⟨fun hm => ?_, fun hm => ?_, fun hm => ?_, fun hm => ?_⟩
  · exact absurd (h.mem_scan hm) (by simp)
  · exact absurd (h.mem_lead hm) (by decide)
  · exact absurd (h.mem_msg hm) (by decide)
  · exact absurd (h.mem_conclusion hm) (by decide)

theorem WellFormed.cmd_not_mem :
    .cmd ∉ q.scan ∧ .cmd ∉ q.lead ∧ .cmd ∉ q.frm ∧ .cmd ∉ addrTypes q.anchor q.ext := by
  refine ⟨fun hm => ?_, fun hm => ?_, fun hm => ?_, fun hm => ?_⟩
  · exact absurd (h.mem_scan hm) (by simp)
  · exact absurd (h.mem_lead hm) (by decide)
  · exact absurd (h.mem_frm hm) (by decide)
  · exact absurd (h.mem_conclusion hm) (by decide)

theorem WellFormed.thru_not_mem :
    .thru ∉ q.lead ++ (q.frm ++ (q.msg ++ addrTypes q.anchor q.ext)) := by
  simp only [List.mem_append, not_or]
  refine ⟨fun hm => ?_, fun hm => ?_, fun hm => ?_, fun hm => ?_⟩
  · exact absurd (h.mem_lead hm) (by decide)
  · exact absurd (h.mem_frm hm) (by decide)
  · exact absurd (h.mem_msg hm) (by decide)
  · exact absurd (h.mem_conclusion hm) (by decide)

include ht

theorem WellFormed.tisTwas : tisTwasMutuallyExclusive words = true := by
  unfold tisTwasMutuallyExclusive
  rw [ht]
  by_contra hn
  rw [Bool.or_eq_true, not_or] at hn
  have h1 : PreambleType.tis ∈ q.types := by simpa using hn.1
  have h2 : PreambleType.twas ∈ q.types := by simpa using hn.2
  have he := (h.eq_anchor h1 (Or.inl rfl)).trans (h.eq_anchor h2 (Or.inr rfl)).symm
  exact absurd he (by decide)

theorem WellFormed.fromCount : fromCountValid words = true := by
  obtain ⟨h1, h2, h3, h4⟩ := h.frm_not_mem
  unfold fromCountValid
  rw [ht, decide_eq_true_eq]
  unfold types
  simp only [List.count_append]
  rw [List.count_eq_zero_of_not_mem h1, List.count_eq_zero_of_not_mem h2,
    List.count_eq_zero_of_not_mem h3, List.count_eq_zero_of_not_mem h4]
  rcases h.frm with hf | ⟨n, hf, -⟩ <;> rw [hf]
  · simp
  · have hn : PreambleType.frm ∉ extTypes.take n := fun hm =>
      absurd (isExt_of_mem_take hm) (by decide)
    unfold addrTypes
    rw [List.count_cons_self, List.count_eq_zero_of_not_mem hn]

/-- Behind `FROM` and its extension words stands the message. -/
theorem WellFormed.fromPrecedes : fromPrecedesCmdOnly words = true := by
  obtain ⟨h1, h2, h3, h4⟩ := h.frm_not_mem
  have hrest : .frm ∉ q.msg ++ addrTypes q.anchor q.ext := by
    rw [List.mem_append, not_or]
    exact ⟨h3, h4⟩
  unfold fromPrecedesCmdOnly
  rw [ht]
  unfold types
  rw [fromLoop_append h1, fromLoop_append h2]
  rcases h.frm with hf | ⟨n, hf, hm⟩ <;> rw [hf]
  · exact fromLoop_of_not_mem hrest
  · obtain ⟨ts, hm, -⟩ := h.msg.resolve_left hm
    have hext : ∀ t ∈ extTypes.take n, t.isExt = true := fun t => isExt_of_mem_take
    have hn : PreambleType.frm ∉ extTypes.take n := fun hm => absurd (hext _ hm) (by decide)
    unfold addrTypes at hrest ⊢
    rw [List.cons_append, fromLoop, List.dropWhile_append_of_pos hext, if_neg, fromLoop_append hn]
    · exact fromLoop_of_not_mem hrest
    · rw [hm]
      simp [PreambleType.isExt]

theorem WellFormed.thruInScanning : thruInScanningSectionOnly words = true := by
  have hn := h.thru_not_mem
  unfold thruInScanningSectionOnly
  rw [ht]
  unfold types
  rcases h.scan with ⟨n, hs⟩ | ⟨n, hs⟩ <;> rw [hs]
  · refine thruLoop_of_not_mem ?_ false
    rw [List.mem_append, not_or]
    exact ⟨fun hm => absurd (List.eq_of_mem_replicate hm) (by decide), hn⟩
  · rw [thruLoop_pairs]
    exact thruLoop_of_not_mem hn false

theorem WellFormed.cmdNotBefore : cmdNotBeforeAddressSection words = true := by
  obtain ⟨h1, h2, h3, h4⟩ := h.cmd_not_mem
  unfold cmdNotBeforeAddressSection
  rw [ht]
  unfold types
  rcases h.msg with hm | ⟨ms, hm, -, hl⟩
  · refine cmdLoop_of_not_mem ?_ false
    rw [hm]
    simp only [List.nil_append, List.mem_append, not_or]
    exact ⟨h1, h2, h3, h4⟩
  · obtain ⟨ls, hl, -⟩ := h.lead.resolve_left hl
    rw [hl]
    exact cmdLoop_append_to h1 false

theorem WellFormed.cmdHasCall : cmdHasCallAndConclusion words = true := by
  obtain ⟨h1, h2, h3, h4⟩ := h.cmd_not_mem
  have hne : ∀ {ts : List PreambleType}, .cmd ∉ ts → ∀ t ∈ ts, (t != .cmd) = true := by
    intro ts hn t hm
    rw [bne_iff_ne]
    rintro rfl
    exact hn hm
  unfold cmdHasCallAndConclusion
  rw [ht]
  unfold types
  rcases h.msg with hm | ⟨ms, hm, -, hl⟩
  · have hall : .cmd ∉ q.scan ++ (q.lead ++ (q.frm ++ (q.msg ++ addrTypes q.anchor q.ext))) := by
      rw [hm]
      simp only [List.nil_append, List.mem_append, not_or]
      exact ⟨h1, h2, h3, h4⟩
    rw [List.takeWhile_eq_self_iff.mpr (hne hall)]
    dsimp only
    rw [List.drop_length]
  · obtain ⟨ls, hl, -⟩ := h.lead.resolve_left hl
    have hcall : .cmd ∉ q.scan ++ (q.lead ++ q.frm) := by
      simp only [List.mem_append, not_or]
      exact ⟨h1, h2, h3⟩
    have hsplit : q.scan ++ (q.lead ++ (q.frm ++ (q.msg ++ addrTypes q.anchor q.ext))) =
        q.scan ++ (q.lead ++ q.frm) ++ .cmd :: (ms ++ addrTypes q.anchor q.ext) := by
      rw [hm]
      simp only [List.append_assoc, List.cons_append]
    have hbefore : (q.scan ++ (q.lead ++ q.frm) ++
        .cmd :: (ms ++ addrTypes q.anchor q.ext)).takeWhile (· != .cmd) =
        q.scan ++ (q.lead ++ q.frm) := by
      rw [List.takeWhile_append_of_pos (hne hcall)]
      simp
    rw [hsplit, hbefore]
    dsimp only
    rw [List.drop_left]
    dsimp only
    rw [Bool.and_eq_true, List.any_eq_true, List.any_eq_true]
    refine ⟨⟨.to, by simp [hl], rfl⟩, q.anchor, by simp [addrTypes], ?_⟩
    rcases h.anchor with ha | ha <;> rw [ha] <;> rfl

end Checks

/-- **All of the validator but two loops.** On a frame of this shape, whose `THRU` words carry at
most five targets and whose scanning section is the one given, only the loops with a value are left. -/
theorem WellFormed.accepts_eq (h : q.WellFormed) (ht : OpenALE.types words = q.types)
    (hscan : OpenALE.types scanning = q.scan ∨ scanning = []) {targets : List Str}
    (h5 : targets.length ≤ 5) (hw : ∀ w ∈ words, w.type = .thru → w.address ∈ targets) :
    accepts scanning words = (fits q.scan && (fits q.lead && (fits q.frm && fits q.msg))) := by
  have halt : thruRepAlternates scanning = true := by
    unfold thruRepAlternates
    rcases hscan with hs | rfl
    · rw [hs]
      rcases h.scan with ⟨n, hs⟩ | ⟨n, hs⟩ <;> rw [hs]
      · exact alternateLoop_of_not_mem (fun hm => absurd (List.eq_of_mem_replicate hm) (by decide))
          fun hm => absurd (List.eq_of_mem_replicate hm) (by decide)
      · exact alternateLoop_pairs n
    · rfl
  have htarget : groupCallTargetCountValid words = true :=
    targetLoop_of_subset h5 hw List.nodup_nil (List.nil_subset _)
  have ho4 : Opens (addrTypes q.anchor q.ext) := opens_addrTypes h.anchor_isExt _
  have ho3 : Opens (q.msg ++ addrTypes q.anchor q.ext) := by
    refine Opens.append ?_ ho4
    rcases h.msg with hm | ⟨ts, hm, -⟩ <;> rw [hm]
    · exact opens_nil
    · exact opens_cons ⟨rfl, by simp⟩
  have ho2 : Opens (q.frm ++ (q.msg ++ addrTypes q.anchor q.ext)) := by
    refine Opens.append ?_ ho3
    rcases h.frm with hf | ⟨n, hf, -⟩ <;> rw [hf]
    · exact opens_nil
    · exact opens_cons ⟨rfl, by simp⟩
  have ho1 : Opens (q.lead ++ (q.frm ++ (q.msg ++ addrTypes q.anchor q.ext))) := by
    refine Opens.append ?_ ho2
    rcases h.lead with hl | ⟨ts, hl, -⟩ <;> rw [hl]
    · exact opens_nil
    · exact opens_cons ⟨rfl, by simp⟩
  have hfits : fits q.types = (fits q.scan && (fits q.lead && (fits q.frm && fits q.msg))) := by
    unfold types
    rw [fits_append ho1, fits_append ho2, fits_append ho3, fits_append ho4, fits_addrTypes,
      Bool.and_true]
  rw [← hfits]
  unfold accepts
  rw [h.fromCount ht, h.fromPrecedes ht, h.thruInScanning ht, htarget, halt, h.tisTwas ht,
    h.cmdNotBefore ht, h.cmdHasCall ht, repNotPreceded_eq]
  unfold addressSectionWordCountValid fits
  rw [ht]
  simp

end Sections

end FrameValidator

end OpenALE
