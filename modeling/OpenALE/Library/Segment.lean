import Mathlib.Data.List.Chain

/-!
# Logs: an entry and what follows it without a break

In a log, an entry that satisfies `p` opens a segment. The segment goes on as long as each entry
stands in the relation `R` to the one before it.

Results:
* `segment_concat`: the segments of a log one entry longer.
* `Segment.unique`: the latest segment is one only.
* `latest_eq_some_iff`: `latest` computes it.
-/

namespace Log

variable {α : Type*} (p : α → Prop) (R : α → α → Prop)

/-- In `log` the entry `a` opens a segment that goes on with `ext` and stops there; `later` is
what came after it. -/
structure Segment (log : List α) (a : α) (ext later : List α) : Prop where
  split : ∃ earlier, log = earlier ++ a :: (ext ++ later)
  opens : p a
  chain : (a :: ext).IsChain R
  stops : ∀ x ∈ later.head?, ¬ R (ext.getLastD a) x

/-- No segment was opened after `a`. -/
def Latest (ext later : List α) : Prop := ∀ x ∈ ext ++ later, ¬ p x

variable {p R} {log ext later ext' later' : List α} {a a' x : α}

theorem isChain_concat_iff : (a :: (ext ++ [x])).IsChain R ↔
    (a :: ext).IsChain R ∧ R (ext.getLastD a) x := by
  induction ext generalizing a with
  | nil => simp
  | cons b bs ih =>
    rw [List.cons_append, List.isChain_cons_cons, ih, List.isChain_cons_cons, and_assoc,
      List.getLastD_cons]

theorem segment_of_opens (hx : p x) : Segment p R (log ++ [x]) x [] [] :=
  ⟨⟨log, rfl⟩, hx, List.isChain_singleton x, by simp⟩

theorem Segment.extend (h : Segment p R log a ext []) (hx : R (ext.getLastD a) x) :
    Segment p R (log ++ [x]) a (ext ++ [x]) [] := by
  obtain ⟨earlier, hlog⟩ := h.split
  refine ⟨⟨earlier, ?_⟩, h.opens, isChain_concat_iff.mpr ⟨h.chain, hx⟩, by simp⟩
  rw [hlog]
  simp

theorem Segment.passOver (h : Segment p R log a ext later)
    (hx : later = [] → ¬ R (ext.getLastD a) x) : Segment p R (log ++ [x]) a ext (later ++ [x]) := by
  obtain ⟨earlier, hlog⟩ := h.split
  refine ⟨⟨earlier, ?_⟩, h.opens, h.chain, ?_⟩
  · rw [hlog]
    simp
  · cases later with
    | nil =>
      intro y hy
      obtain rfl : x = y := by simpa using hy
      exact hx rfl
    | cons z zs => exact h.stops

/-- **The segments of a log one entry longer**: an old one that the entry leaves alone, the old
last one that it continues, or a new one that it opens. -/
theorem segment_concat : Segment p R (log ++ [x]) a ext later ↔
    (∃ before, later = before ++ [x] ∧ Segment p R log a ext before ∧
      (before = [] → ¬ R (ext.getLastD a) x)) ∨
    (∃ before, ext = before ++ [x] ∧ later = [] ∧ Segment p R log a before [] ∧
      R (before.getLastD a) x) ∨
    (a = x ∧ ext = [] ∧ later = [] ∧ p x) := by
  constructor
  · rintro ⟨⟨earlier, hlog⟩, hp, hchain, hstops⟩
    rcases List.eq_nil_or_concat' later with rfl | ⟨before, y, rfl⟩
    · rcases List.eq_nil_or_concat' ext with rfl | ⟨before, y, rfl⟩
      · have hx : log = earlier ∧ x = a := by simpa using hlog
        obtain ⟨-, rfl⟩ := hx
        exact Or.inr (Or.inr ⟨rfl, rfl, rfl, hp⟩)
      · have hx : log ++ [x] = (earlier ++ a :: before) ++ [y] := by
          rw [hlog]
          simp
        obtain ⟨hlog', hxy⟩ := List.append_inj' hx rfl
        obtain rfl := List.singleton_inj.mp hxy
        obtain ⟨hchain', hr⟩ := isChain_concat_iff.mp hchain
        refine Or.inr (Or.inl ⟨before, rfl, rfl, ⟨⟨earlier, ?_⟩, hp, hchain', by simp⟩, hr⟩)
        rw [hlog', List.append_nil]
    · have hx : log ++ [x] = (earlier ++ a :: (ext ++ before)) ++ [y] := by
        rw [hlog]
        simp
      obtain ⟨hlog', hxy⟩ := List.append_inj' hx rfl
      obtain rfl := List.singleton_inj.mp hxy
      refine Or.inl ⟨before, rfl, ⟨⟨earlier, hlog'⟩, hp, hchain, ?_⟩, ?_⟩
      · cases before with
        | nil => simp
        | cons z zs => exact hstops
      · rintro rfl
        exact hstops x (by simp)
  · rintro (⟨before, rfl, h, hx⟩ | ⟨before, rfl, rfl, h, hx⟩ | ⟨rfl, rfl, rfl, hx⟩)
    · exact h.passOver hx
    · exact h.extend hx
    · exact segment_of_opens hx

/-- How far a segment goes is settled by the entries after its opening. -/
theorem chain_unique (hc : (a :: ext).IsChain R) (hc' : (a :: ext').IsChain R)
    (hs : ∀ x ∈ later.head?, ¬ R (ext.getLastD a) x)
    (hs' : ∀ x ∈ later'.head?, ¬ R (ext'.getLastD a) x) (h : ext ++ later = ext' ++ later') :
    ext = ext' ∧ later = later' := by
  induction ext generalizing a ext' with
  | nil =>
    cases ext' with
    | nil => exact ⟨rfl, h⟩
    | cons b bs =>
      have hr : R a b := (List.isChain_cons_cons.mp hc').1
      refine absurd hr (hs b ?_)
      rw [List.nil_append] at h
      rw [h]
      simp
  | cons b bs ih =>
    have hr : R a b := (List.isChain_cons_cons.mp hc).1
    cases ext' with
    | nil =>
      refine absurd hr (hs' b ?_)
      rw [List.nil_append] at h
      rw [← h]
      simp
    | cons d ds =>
      obtain ⟨rfl, ht⟩ : b = d ∧ bs ++ later = ds ++ later' := by simpa using h
      rw [List.getLastD_cons] at hs hs'
      obtain ⟨rfl, rfl⟩ := ih (List.isChain_cons_cons.mp hc).2 (List.isChain_cons_cons.mp hc').2
        hs hs' ht
      exact ⟨rfl, rfl⟩

/-- The last entry that opens a segment. -/
theorem opening_unique {earlier earlier' tail tail' : List α} (hp : p a) (hp' : p a')
    (ht : ∀ x ∈ tail, ¬ p x) (ht' : ∀ x ∈ tail', ¬ p x)
    (h : earlier ++ a :: tail = earlier' ++ a' :: tail') : a = a' ∧ tail = tail' := by
  induction earlier generalizing earlier' with
  | nil =>
    cases earlier' with
    | nil => exact ⟨(List.cons.inj h).1, (List.cons.inj h).2⟩
    | cons b bs =>
      obtain ⟨-, rfl⟩ : a = b ∧ tail = bs ++ a' :: tail' := by simpa using h
      exact absurd hp' (ht a' (by simp))
  | cons b bs ih =>
    cases earlier' with
    | nil =>
      obtain ⟨-, rfl⟩ : b = a' ∧ bs ++ a :: tail = tail' := by simpa using h
      exact absurd hp (ht' a (by simp))
    | cons d ds => exact ih (List.cons.inj h).2

/-- **The latest segment is one only.** -/
theorem Segment.unique (h : Segment p R log a ext later) (h' : Segment p R log a' ext' later')
    (hl : Latest p ext later) (hl' : Latest p ext' later') :
    a = a' ∧ ext = ext' ∧ later = later' := by
  obtain ⟨earlier, hlog⟩ := h.split
  obtain ⟨earlier', hlog'⟩ := h'.split
  obtain ⟨rfl, htail⟩ := opening_unique h.opens h'.opens hl hl' (hlog.symm.trans hlog')
  exact ⟨rfl, chain_unique h.chain h'.chain h.stops h'.stops htail⟩

/-- In a log that only its first entry opens, that entry's segment is the only one. -/
theorem Segment.of_head {tail : List α} (h : Segment p R (x :: tail) a ext later)
    (ht : ∀ y ∈ tail, ¬ p y) : a = x ∧ Latest p ext later := by
  obtain ⟨earlier, hlog⟩ := h.split
  cases earlier with
  | nil =>
    obtain ⟨rfl, rfl⟩ := List.cons.inj hlog
    exact ⟨rfl, ht⟩
  | cons b bs =>
    obtain ⟨-, rfl⟩ := List.cons.inj hlog
    exact absurd h.opens (ht a (by simp))

/-- When no continuing entry opens a segment, a segment that the log ends in is the latest. -/
theorem Segment.latest_of_nil (hpR : ∀ x y, R x y → ¬ p y) (h : Segment p R log a ext []) :
    Latest p ext [] := by
  have hchain := h.chain
  clear h
  unfold Latest
  rw [List.append_nil]
  induction ext generalizing a with
  | nil => simp
  | cons b bs ih =>
    obtain ⟨hr, htail⟩ := List.isChain_cons_cons.mp hchain
    intro x hx
    rcases List.mem_cons.mp hx with rfl | hx
    · exact hpR a x hr
    · exact ih htail x hx

/-! ## The latest segment computed -/

section Latest

variable [DecidablePred p] [DecidableRel R]

variable (p R) in
/-- One more entry: it opens a segment, continues the latest one or comes after it. -/
def track (current : Option (α × List α × List α)) (x : α) : Option (α × List α × List α) :=
  if p x then some (x, [], [])
  else match current with
    | none => none
    | some (a, ext, []) =>
      if R (ext.getLastD a) x then some (a, ext ++ [x], []) else some (a, ext, [x])
    | some (a, ext, y :: ys) => some (a, ext, y :: ys ++ [x])

variable (p R) in
/-- The latest segment of the log and what came after it. -/
def latest (log : List α) : Option (α × List α × List α) := log.foldl (track p R) none

theorem latest_concat (log : List α) (x : α) :
    latest p R (log ++ [x]) = track p R (latest p R log) x := by
  unfold latest
  rw [List.foldl_append]
  rfl

theorem track_opens (current : Option (α × List α × List α)) (hx : p x) :
    track p R current x = some (x, [], []) := by
  unfold track
  rw [if_pos hx]

theorem track_none (hx : ¬ p x) : track p R none x = none := by
  unfold track
  rw [if_neg hx]

theorem track_extend (hx : ¬ p x) (hr : R (ext.getLastD a) x) :
    track p R (some (a, ext, [])) x = some (a, ext ++ [x], []) := by
  unfold track
  rw [if_neg hx]
  exact if_pos hr

theorem track_passOver (hx : ¬ p x) (hr : later = [] → ¬ R (ext.getLastD a) x) :
    track p R (some (a, ext, later)) x = some (a, ext, later ++ [x]) := by
  unfold track
  rw [if_neg hx]
  cases later with
  | nil => exact if_neg (hr rfl)
  | cons y ys => rfl

theorem segment_of_latest (h : latest p R log = some (a, ext, later)) :
    Segment p R log a ext later ∧ Latest p ext later := by
  induction log using List.reverseRecOn generalizing a ext later with
  | nil => exact absurd h (by simp [latest])
  | append_singleton log x ih =>
    rw [latest_concat] at h
    unfold track at h
    split at h
    · rename_i hx
      obtain ⟨rfl, rfl, rfl⟩ : x = a ∧ [] = ext ∧ [] = later := by simpa using h
      exact ⟨segment_of_opens hx, by simp [Latest]⟩
    rename_i hx
    split at h
    · exact absurd h (by simp)
    · rename_i b before hlog
      obtain ⟨hseg, hlat⟩ := ih hlog
      have hlat' : ∀ y ∈ before ++ [x], ¬ p y := by
        intro y hy
        rcases List.mem_append.mp hy with hy | hy
        · exact hlat y (by simpa using hy)
        · rw [List.mem_singleton.mp hy]
          exact hx
      split at h
      · rename_i hr
        obtain ⟨rfl, rfl, rfl⟩ : b = a ∧ before ++ [x] = ext ∧ [] = later := by simpa using h
        exact ⟨hseg.extend hr, by rw [Latest, List.append_nil]; exact hlat'⟩
      · rename_i hr
        obtain ⟨rfl, rfl, rfl⟩ : b = a ∧ before = ext ∧ [x] = later := by simpa using h
        exact ⟨hseg.passOver (fun _ => hr), hlat'⟩
    · rename_i b before y ys hlog
      obtain ⟨hseg, hlat⟩ := ih hlog
      obtain ⟨rfl, rfl, rfl⟩ : b = a ∧ before = ext ∧ y :: ys ++ [x] = later := by simpa using h
      refine ⟨hseg.passOver (fun hn => absurd hn (by simp)), fun z hz => ?_⟩
      rw [← List.append_assoc] at hz
      rcases List.mem_append.mp hz with hz | hz
      · exact hlat z hz
      · rw [List.mem_singleton.mp hz]
        exact hx

theorem latest_isSome (hp : ∃ x ∈ log, p x) : (latest p R log).isSome = true := by
  induction log using List.reverseRecOn with
  | nil => exact absurd hp (by simp)
  | append_singleton log x ih =>
    rw [latest_concat]
    unfold track
    split
    · rfl
    · rename_i hx
      obtain ⟨y, hy, hpy⟩ := hp
      have hy' : y ∈ log := by
        rcases List.mem_append.mp hy with hy | hy
        · exact hy
        · rw [List.mem_singleton.mp hy] at hpy
          exact absurd hpy hx
      have hsome := ih ⟨y, hy', hpy⟩
      split
      · rename_i hlog
        rw [hlog] at hsome
        exact Bool.noConfusion hsome
      · split <;> rfl
      · rfl

theorem not_latest_none (h : latest p R log = none) (h' : Segment p R log a ext later) : False := by
  obtain ⟨earlier, hlog⟩ := h'.split
  have hsome : (latest p R log).isSome = true :=
    latest_isSome ⟨a, by rw [hlog]; simp, h'.opens⟩
  rw [h] at hsome
  exact Bool.noConfusion hsome

/-- **`latest` computes the latest segment.** -/
theorem latest_eq_some_iff : latest p R log = some (a, ext, later) ↔
    Segment p R log a ext later ∧ Latest p ext later := by
  refine ⟨segment_of_latest, fun ⟨hseg, hlat⟩ => ?_⟩
  cases hb : latest p R log with
  | none => exact (not_latest_none hb hseg).elim
  | some t =>
    obtain ⟨b, ext', later'⟩ := t
    obtain ⟨hseg', hlat'⟩ := segment_of_latest hb
    obtain ⟨rfl, rfl, rfl⟩ := hseg.unique hseg' hlat hlat'
    rfl

end Latest

end Log
