import OpenALE.Relay.Worker

/-!
# Answers and committed reports

The relay answers 201 for a report that is on disk. A batch is one transaction: when a statement or
the `COMMIT` fails, everything is rolled back, but the answers collected so far stay.

Results:
* `durable_iff`: the answers are right unless a report stored before the failure was answered.
* `durable_fail`: a `COMMIT` that fails under a batch of one.
-/

namespace OpenALE.Relay

open Worker

/-- The status `handleIngest` sends: for no answer, after the worker's timeout, it is 500. -/
def respond (results : List IngestResult) (reqId : Nat) : Nat :=
  match results.find? (·.reqId = reqId) with
  | none => 500
  | some r => if r.status = 201 then 201 else if r.status = 409 then 409 else 500

/-- The item's row is in the database after the batch. -/
def Committed (fails : Point → Bool) (db : Db) (batch : List IngestItem) (it : IngestItem) : Prop :=
  ∃ row ∈ (flush fails db batch).1.reports, row.item = it

/-- The transaction was opened and did not come through. -/
def RolledBack (fails : Point → Bool) (batch : List IngestItem) : Prop :=
  fails .begin = false ∧ ∃ n, Interrupted fails batch n

/-- The answers are those of what is on disk. -/
structure Durable (fails : Point → Bool) (db : Db) (batch : List IngestItem) : Prop where
  created : ∀ it ∈ batch, respond (flush fails db batch).2 it.reqId = 201 ↔
    Committed fails db batch it
  refused : RolledBack fails batch → ∀ it ∈ batch,
    400 ≤ respond (flush fails db batch).2 it.reqId

/-! ## The answers a request reads -/

theorem respond_eq_201 {results : List IngestResult} {reqId : Nat}
    (h : (results.map IngestResult.reqId).Nodup) :
    respond results reqId = 201 ↔ ∃ r ∈ results, r.reqId = reqId ∧ r.status = 201 := by
  unfold respond
  induction results with
  | nil => simp
  | cons r results ih =>
    rw [List.map_cons, List.nodup_cons] at h
    by_cases hr : r.reqId = reqId
    · rw [List.find?_cons_of_pos (by simpa using hr)]
      constructor
      · intro hs
        refine ⟨r, List.mem_cons_self, hr, ?_⟩
        by_contra hne
        dsimp only at hs
        rw [if_neg hne] at hs
        split at hs <;> cases hs
      · rintro ⟨r', hmem, hreq, hs⟩
        obtain rfl | hmem := List.mem_cons.mp hmem
        · exact if_pos hs
        · refine absurd ?_ h.1
          rw [hr, ← hreq]
          exact List.mem_map_of_mem hmem
    · rw [List.find?_cons_of_neg (by simpa using hr), ih h.2]
      constructor
      · rintro ⟨r', hmem, hreq⟩
        exact ⟨r', List.mem_cons_of_mem r hmem, hreq⟩
      · rintro ⟨r', hmem, hreq, hs⟩
        obtain rfl | hmem := List.mem_cons.mp hmem
        · exact absurd hreq hr
        · exact ⟨r', hmem, hreq, hs⟩

theorem respond_cases (results : List IngestResult) (reqId : Nat) :
    respond results reqId = 201 ∨ 400 ≤ respond results reqId := by
  unfold respond
  split
  · exact Or.inr (by decide)
  · split_ifs
    · exact Or.inl rfl
    · exact Or.inr (by decide)
    · exact Or.inr (by decide)

/-- The outer `catch` only adds answers of 500. -/
theorem answerRest_eq (batch : List IngestItem) (results : List IngestResult) :
    ∃ rest, answerRest batch results = results ++ rest ∧ ∀ r ∈ rest, r.status = 500 := by
  unfold answerRest
  induction batch generalizing results with
  | nil => exact ⟨[], (List.append_nil results).symm, nofun⟩
  | cons it batch ih =>
    rw [List.foldl_cons]
    split
    · exact ih results
    · obtain ⟨rest, heq, hrest⟩ := ih (results ++ [{ reqId := it.reqId, status := 500 }])
      refine ⟨{ reqId := it.reqId, status := 500 } :: rest, ?_, ?_⟩
      · rw [heq, List.append_assoc]
        rfl
      · exact List.forall_mem_cons.mpr ⟨rfl, hrest⟩

theorem respond_answerRest {batch : List IngestItem} {results : List IngestResult} {reqId : Nat} :
    respond (answerRest batch results) reqId = 201 ↔ respond results reqId = 201 := by
  obtain ⟨rest, heq, hrest⟩ := answerRest_eq batch results
  rw [heq]
  unfold respond
  rw [List.find?_append]
  cases results.find? (·.reqId = reqId) with
  | some r => exact Iff.rfl
  | none =>
    rw [Option.none_or]
    cases hf : rest.find? (·.reqId = reqId) with
    | none => exact Iff.rfl
    | some r =>
      have hs := hrest r (List.mem_of_find?_eq_some hf)
      dsimp only
      rw [hs]
      decide

/-! ## The batch -/

variable {fails : Point → Bool} {db : Db} {batch : List IngestItem}

/-- Without a failure the transaction comes through. -/
theorem flush_of_clean (hbegin : fails .begin = false) (hne : batch ≠ [])
    (h : ¬ ∃ n, Interrupted fails batch n) : flush fails db batch = storeAll db batch := by
  have hclean : ∀ k < batch.length, failsAt fails k = false := by
    by_contra hn
    push Not at hn
    have hexists : ∃ k, k < batch.length ∧ failsAt fails k = true := by simpa using hn
    classical
    obtain ⟨hlt, hat⟩ := Nat.find_spec hexists
    refine h ⟨Nat.find hexists, fun k hk => ?_, Or.inl ⟨hlt, hat⟩⟩
    by_contra hk'
    exact Nat.find_min hexists hk ⟨hk.trans hlt, by simpa using hk'⟩
  have hcommit : fails .commit = false := by
    by_contra hn
    exact h ⟨batch.length, hclean, Or.inr ⟨rfl, by simpa using hn⟩⟩
  have hloop := ingestAll_eq_of_clean batch 0 db [] (by simpa using hclean)
  unfold flush
  rw [if_neg hne, hbegin, if_neg Bool.false_ne_true, hloop]
  dsimp only
  rw [hcommit, if_neg Bool.false_ne_true, List.nil_append]

/-- With a failure the database stays, and so do the answers in front of it. -/
theorem flush_of_interrupted (hbegin : fails .begin = false) (hne : batch ≠ []) {n : Nat}
    (h : Interrupted fails batch n) :
    flush fails db batch = (db, answerRest batch (storeAll db (batch.take n)).2) := by
  unfold flush
  rw [if_neg hne, hbegin, if_neg Bool.false_ne_true]
  obtain ⟨hbefore, ⟨hlt, hat⟩ | ⟨rfl, hcommit⟩⟩ := h
  · obtain ⟨hfail, hanswers⟩ := ingestAll_eq_of_interrupted batch 0 n db [] hlt
      (by simpa using hbefore) (by simpa using hat)
    split
    · rename_i hloop
      rw [hloop] at hfail
      cases hfail
    · rename_i hloop
      rw [hloop, List.nil_append] at hanswers
      dsimp only at hanswers
      rw [hanswers]
  · have hloop := ingestAll_eq_of_clean batch 0 db [] (by simpa using hbefore)
    rw [hloop]
    dsimp only
    rw [hcommit, if_pos rfl, List.nil_append, List.take_length]

theorem storeAll_nodup (hnodup : (batch.map IngestItem.reqId).Nodup) (n : Nat) :
    ((storeAll db (batch.take n)).2.map IngestResult.reqId).Nodup := by
  rw [storeAll_reqIds]
  exact hnodup.sublist ((List.take_sublist n batch).map _)

/-- **The answers of a batch** are right exactly if, where a failure rolls it back, all the items in
front of the failure collided with reports that were there before: for those the answer is 409. -/
theorem durable_iff (fails : Point → Bool) (db : Db) (batch : List IngestItem)
    (hnodup : (batch.map IngestItem.reqId).Nodup)
    (hfresh : ∀ row ∈ db.reports, row.item.reqId ∉ batch.map IngestItem.reqId) :
    Durable fails db batch ↔ ∀ n, fails .begin = false → Interrupted fails batch n →
      ∀ it ∈ batch.take n, db.duplicate it = true := by
  have hold : ∀ it ∈ batch, ¬ ∃ row ∈ db.reports, row.item = it := by
    rintro it hit ⟨row, hrow, rfl⟩
    exact hfresh row hrow (List.mem_map_of_mem hit)
  by_cases hne : batch = []
  · subst hne
    exact iff_of_true ⟨nofun, fun _ => nofun⟩ (by simp)
  cases hbegin : fails .begin with
  | true =>
    have hflush : flush fails db batch = (db, []) := by
      unfold flush
      rw [if_neg hne, if_pos hbegin]
    refine iff_of_true ⟨fun it hit => ?_, fun h => ?_⟩ nofun
    · unfold Committed
      rw [hflush]
      exact iff_of_false (show ¬ (500 : Nat) = 201 by decide) (hold it hit)
    · rw [h.1] at hbegin
      cases hbegin
  | false =>
    by_cases hint : ∃ n, Interrupted fails batch n
    · obtain ⟨n, hn⟩ := hint
      have hflush : flush fails db batch = (db, answerRest batch (storeAll db (batch.take n)).2) :=
        flush_of_interrupted hbegin hne hn
      have hanswer : ∀ reqId, respond (flush fails db batch).2 reqId = 201 ↔
          ∃ r ∈ (storeAll db (batch.take n)).2, r.reqId = reqId ∧ r.status = 201 := by
        intro reqId
        rw [hflush, respond_answerRest, respond_eq_201 (storeAll_nodup hnodup n)]
      have hdup : Durable fails db batch ↔ ∀ it ∈ batch.take n, db.duplicate it = true := by
        rw [← no_201_iff]
        constructor
        · intro hd r hr hs
          have hreq : r.reqId ∈ (batch.take n).map IngestItem.reqId := by
            rw [← storeAll_reqIds db]
            exact List.mem_map_of_mem hr
          obtain ⟨it, hit, hreq⟩ := List.mem_map.mp hreq
          have hbatch := List.mem_of_mem_take hit
          have hcommitted := (hd.created it hbatch).mp ((hanswer it.reqId).mpr ⟨r, hr, hreq.symm, hs⟩)
          unfold Committed at hcommitted
          rw [hflush] at hcommitted
          exact hold it hbatch hcommitted
        · intro hno
          have hnot : ∀ reqId, respond (flush fails db batch).2 reqId ≠ 201 := by
            intro reqId h201
            obtain ⟨r, hr, -, hs⟩ := (hanswer reqId).mp h201
            exact hno r hr hs
          refine ⟨fun it hit => iff_of_false (hnot it.reqId) ?_, fun _ it _ => ?_⟩
          · unfold Committed
            rw [hflush]
            exact hold it hit
          · exact (respond_cases _ it.reqId).resolve_left (hnot it.reqId)
      rw [hdup]
      refine ⟨fun h m _ hm => ?_, fun h => h n rfl hn⟩
      -- two first failures come after as many items
      have hmn : m = n := by
        obtain ⟨hm1, hm2⟩ := hm
        obtain ⟨hn1, hn2⟩ := hn
        obtain hlt | rfl | hlt := Nat.lt_trichotomy m n
        · have hbad := hn1 m hlt
          obtain ⟨-, hat⟩ | ⟨rfl, -⟩ := hm2
          · rw [hat] at hbad
            cases hbad
          · obtain ⟨h', -⟩ | ⟨h', -⟩ := hn2 <;> omega
        · rfl
        · have hbad := hm1 n hlt
          obtain ⟨-, hat⟩ | ⟨rfl, -⟩ := hn2
          · rw [hat] at hbad
            cases hbad
          · obtain ⟨h', -⟩ | ⟨h', -⟩ := hm2 <;> omega
      rw [hmn]
      exact h
    · have hflush : flush fails db batch = storeAll db batch := flush_of_clean hbegin hne hint
      refine iff_of_true ⟨fun it hit => ?_, fun h => absurd h.2 hint⟩
        fun n _ hn => absurd ⟨n, hn⟩ hint
      have hnodup' : ((storeAll db batch).2.map IngestResult.reqId).Nodup := by
        rw [storeAll_reqIds]
        exact hnodup
      unfold Committed
      rw [hflush, respond_eq_201 hnodup']
      exact answered_iff_stored hnodup hfresh hit

/-- A report of one station. -/
def sampleItem (reqId : Nat) : IngestItem :=
  { reqId, observer := ['O', 'B', 'S'], source := ['S', 'R', 'C'], receivedAt := ['t'] }

/-- Two reports, of which the second one's row cannot be written. -/
theorem durable_iff_two :
    ¬ Durable (· = .insert 1) {} [sampleItem 1, sampleItem 2] := by
  rw [durable_iff (· = .insert 1) {} [sampleItem 1, sampleItem 2] (by decide) nofun]
  intro h
  have hdup := h 1 rfl ⟨by decide, Or.inl (by decide)⟩ (sampleItem 1) (by decide)
  revert hdup
  decide

/-- A `COMMIT` that fails: the report is answered 201 and is not on disk. -/
theorem durable_fail : ¬ ∀ (fails : Point → Bool) (db : Db) (batch : List IngestItem),
    (batch.map IngestItem.reqId).Nodup →
      (∀ row ∈ db.reports, row.item.reqId ∉ batch.map IngestItem.reqId) → Durable fails db batch := by
  intro h
  have hd := h (· = .commit) {} [sampleItem 1] (by decide) nofun
  obtain ⟨row, hrow, -⟩ := (hd.created (sampleItem 1) (by decide)).mp (by decide)
  have hnone : (flush (· = .commit) {} [sampleItem 1]).1.reports = [] := by decide
  rw [hnone] at hrow
  cases hrow

end OpenALE.Relay
