import OpenALE.Relay.Db

/-!
# The database worker

Model of `flush` in `tools/location-relay-server/db-worker.js`: the pending reports in one
transaction, each one's statements in order, and the answers. Which statements fail, and whether
`COMMIT` does, is an argument. A transaction that does not commit leaves the database as it was,
whether or not `ROLLBACK` fails.

Results:
* `ingestAll_eq_of_clean`, `ingestAll_eq_of_interrupted`: the loop up to the first failure.
* `answered_iff_stored`: without a failure, 201 means stored.
-/

namespace OpenALE.Relay

/-- A statement of the batch: `insert k` and so on belong to its `k`-th item. -/
inductive Point where
  | begin
  | insert (k : Nat)
  | station (k : Nat)
  | observer (k : Nat)
  | commit
  deriving Repr, DecidableEq

/-- An entry of `results`. -/
structure IngestResult where
  reqId : Nat
  status : Nat
  id : Option Nat := none
  deriving Repr, DecidableEq

namespace Worker

/-- The answer to an item, by the row it got. -/
def answer (it : IngestItem) : Option Nat → IngestResult
  | some id => { reqId := it.reqId, status := 201, id := some id }
  | none => { reqId := it.reqId, status := 409 }

@[simp] theorem answer_reqId (it : IngestItem) (id : Option Nat) :
    (answer it id).reqId = it.reqId := by
  cases id <;> rfl

/-- The body of the loop; `none` when a statement throws past the inner `catch`. -/
def ingestOne (fails : Point → Bool) (k : Nat) (db : Db) (it : IngestItem) :
    Option (Db × IngestResult) :=
  if fails (.insert k) then none
  else
    let inserted := db.insertReport it
    if fails (.station k) then none
    else
      let db := inserted.2.upsertStation it
      if fails (.observer k) then none
      else
        some (db.upsertObserver it, answer it inserted.1)

/-- The loop from the `k`-th item on: whether it came to its end, the database and the answers
collected. -/
def ingestAll (fails : Point → Bool) :
    Nat → Db → List IngestResult → List IngestItem → Bool × Db × List IngestResult
  | _, db, results, [] => (true, db, results)
  | k, db, results, it :: items =>
    match ingestOne fails k db it with
    | none => (false, db, results)
    | some (db, r) => ingestAll fails (k + 1) db (results ++ [r]) items

/-- The answers after the outer `catch`: what is answered already stays. -/
def answerRest (batch : List IngestItem) (results : List IngestResult) : List IngestResult :=
  batch.foldl
    (fun results it =>
      if results.any (·.reqId = it.reqId) then results
      else results ++ [{ reqId := it.reqId, status := 500 }])
    results

/-- `flush`. When `BEGIN` throws, the batch is gone and nothing is answered. -/
def flush (fails : Point → Bool) (db : Db) (batch : List IngestItem) : Db × List IngestResult :=
  if batch = [] then (db, [])
  else if fails .begin then (db, [])
  else
    match ingestAll fails 0 db [] batch with
    | (true, db', results) =>
      if fails .commit then (db, answerRest batch results) else (db', results)
    | (false, _, results) => (db, answerRest batch results)

/-- The statements of items that do not fail, and their answers. -/
def storeAll : Db → List IngestItem → Db × List IngestResult
  | db, [] => (db, [])
  | db, it :: items =>
    let stored := db.store it
    let rest := storeAll stored.2 items
    (rest.1, answer it stored.1 :: rest.2)

/-- A statement of the `k`-th item fails. -/
def failsAt (fails : Point → Bool) (k : Nat) : Bool :=
  fails (.insert k) || fails (.station k) || fails (.observer k)

/-- The first failure comes after `n` items: in the next one, or at the commit. -/
def Interrupted (fails : Point → Bool) (batch : List IngestItem) (n : Nat) : Prop :=
  (∀ k < n, failsAt fails k = false) ∧
    (n < batch.length ∧ failsAt fails n = true ∨ n = batch.length ∧ fails .commit = true)

/-! ## The loop -/

theorem ingestOne_eq_of_clean {fails : Point → Bool} {k : Nat} (h : failsAt fails k = false)
    (db : Db) (it : IngestItem) :
    ingestOne fails k db it = some ((db.store it).2, answer it (db.store it).1) := by
  unfold failsAt at h
  rw [Bool.or_eq_false_iff, Bool.or_eq_false_iff] at h
  obtain ⟨⟨h1, h2⟩, h3⟩ := h
  unfold ingestOne
  rw [h1, h2, h3]
  rfl

theorem ingestOne_eq_none {fails : Point → Bool} {k : Nat} (h : failsAt fails k = true) (db : Db)
    (it : IngestItem) : ingestOne fails k db it = none := by
  unfold failsAt at h
  unfold ingestOne
  split_ifs with h1 h2 h3
  · rfl
  · rfl
  · rfl
  · simp [h1, h2, h3] at h

theorem ingestAll_eq_of_clean {fails : Point → Bool} (items : List IngestItem) (k : Nat) (db : Db)
    (results : List IngestResult) (h : ∀ j < items.length, failsAt fails (k + j) = false) :
    ingestAll fails k db results items =
      (true, (storeAll db items).1, results ++ (storeAll db items).2) := by
  induction items generalizing k db results with
  | nil => simp [ingestAll, storeAll]
  | cons it items ih =>
    have hone := ingestOne_eq_of_clean (h 0 (Nat.zero_lt_succ _)) db it
    have hrest : ∀ j < items.length, failsAt fails (k + 1 + j) = false := by
      intro j hj
      have hnext := h (j + 1) (Nat.succ_lt_succ hj)
      rwa [Nat.add_comm j 1, ← Nat.add_assoc] at hnext
    rw [Nat.add_zero] at hone
    unfold ingestAll
    rw [hone]
    dsimp only
    rw [ih _ _ _ hrest, List.append_assoc]
    rfl

/-- **The loop up to a failure**: the answers of the items in front of it stay. -/
theorem ingestAll_eq_of_interrupted {fails : Point → Bool} (items : List IngestItem) (k n : Nat)
    (db : Db) (results : List IngestResult) (hn : n < items.length)
    (hbefore : ∀ j < n, failsAt fails (k + j) = false) (hat : failsAt fails (k + n) = true) :
    (ingestAll fails k db results items).1 = false ∧
      (ingestAll fails k db results items).2.2 =
        results ++ (storeAll db (items.take n)).2 := by
  induction items generalizing k n db results with
  | nil => exact absurd hn (Nat.not_lt_zero n)
  | cons it items ih =>
    unfold ingestAll
    cases n with
    | zero =>
      rw [Nat.add_zero] at hat
      rw [ingestOne_eq_none hat]
      exact ⟨rfl, (List.append_nil results).symm⟩
    | succ n =>
      have hone := ingestOne_eq_of_clean (hbefore 0 (Nat.zero_lt_succ _)) db it
      rw [Nat.add_zero] at hone
      have hnext : ∀ j, k + (j + 1) = k + 1 + j := fun j => by omega
      rw [hone]
      dsimp only
      obtain ⟨hfail, hanswers⟩ := ih (k + 1) n (db.store it).2 (results ++ [_])
        (Nat.lt_of_succ_lt_succ hn)
        (fun j hj => by rw [← hnext]; exact hbefore (j + 1) (Nat.succ_lt_succ hj))
        (by rw [← hnext]; exact hat)
      refine ⟨hfail, ?_⟩
      rw [hanswers, List.append_assoc]
      rfl

/-! ## The answers -/

theorem storeAll_mode (db : Db) (items : List IngestItem) :
    (storeAll db items).1.mode = db.mode := by
  induction items generalizing db with
  | nil => rfl
  | cons it items ih =>
    unfold storeAll
    dsimp only
    rw [ih, Db.store_mode]

theorem storeAll_reqIds (db : Db) (items : List IngestItem) :
    (storeAll db items).2.map IngestResult.reqId = items.map IngestItem.reqId := by
  induction items generalizing db with
  | nil => rfl
  | cons it items ih =>
    unfold storeAll
    dsimp only
    rw [List.map_cons, List.map_cons, ih, answer_reqId]

/-- What is stored stays, and what is added is one of the items. -/
theorem mem_storeAll (db : Db) (items : List IngestItem) :
    (∀ row ∈ db.reports, row ∈ (storeAll db items).1.reports) ∧
      ∀ row ∈ (storeAll db items).1.reports, row ∈ db.reports ∨ row.item ∈ items := by
  induction items generalizing db with
  | nil => exact ⟨fun _ => id, fun _ => Or.inl⟩
  | cons it items ih =>
    unfold storeAll
    dsimp only
    obtain ⟨hkeep, hnew⟩ := ih (db.store it).2
    obtain ⟨-, -, hreports⟩ | ⟨-, id, -, hreports⟩ := db.store_cases it
    · rw [hreports] at hkeep hnew
      refine ⟨hkeep, fun row hrow => ?_⟩
      obtain hrow | hrow := hnew row hrow
      · exact Or.inl hrow
      · exact Or.inr (List.mem_cons_of_mem it hrow)
    · rw [hreports] at hkeep hnew
      refine ⟨fun row hrow => hkeep row (List.mem_append_left _ hrow), fun row hrow => ?_⟩
      obtain hrow | hrow := hnew row hrow
      · obtain hrow | hrow := List.mem_append.mp hrow
        · exact Or.inl hrow
        · rw [List.mem_singleton.mp hrow]
          exact Or.inr List.mem_cons_self
      · exact Or.inr (List.mem_cons_of_mem it hrow)

/-- **201 means stored**, for items with requests of their own. -/
theorem answered_iff_stored {db : Db} {items : List IngestItem}
    (hnodup : (items.map IngestItem.reqId).Nodup)
    (hfresh : ∀ row ∈ db.reports, row.item.reqId ∉ items.map IngestItem.reqId) {it : IngestItem}
    (hit : it ∈ items) :
    (∃ r ∈ (storeAll db items).2, r.reqId = it.reqId ∧ r.status = 201) ↔
      ∃ row ∈ (storeAll db items).1.reports, row.item = it := by
  induction items generalizing db with
  | nil => cases hit
  | cons first items ih =>
    rw [List.map_cons, List.nodup_cons] at hnodup
    obtain ⟨hfirst, hnodup⟩ := hnodup
    have hreqIds := storeAll_reqIds (db.store first).2 items
    have hlater : ∀ r ∈ (storeAll (db.store first).2 items).2, r.reqId ≠ first.reqId := by
      intro r hr he
      refine hfirst ?_
      rw [← hreqIds, ← he]
      exact List.mem_map_of_mem hr
    obtain ⟨hkeep, hnew⟩ := mem_storeAll (db.store first).2 items
    have hfresh' : ∀ row ∈ (db.store first).2.reports, row.item.reqId ∉ items.map IngestItem.reqId := by
      intro row hrow hmem
      obtain ⟨-, -, hreports⟩ | ⟨-, id, -, hreports⟩ := db.store_cases first
      · rw [hreports] at hrow
        exact hfresh row hrow (List.mem_cons_of_mem _ hmem)
      · rw [hreports] at hrow
        obtain hrow | hrow := List.mem_append.mp hrow
        · exact hfresh row hrow (List.mem_cons_of_mem _ hmem)
        · rw [List.mem_singleton.mp hrow] at hmem
          exact hfirst hmem
    have hall : (storeAll db (first :: items)).2 =
        answer first (db.store first).1 :: (storeAll (db.store first).2 items).2 := rfl
    have hdb : (storeAll db (first :: items)).1 = (storeAll (db.store first).2 items).1 := rfl
    rw [hall, hdb]
    by_cases hsame : it = first
    · subst hsame
      obtain ⟨-, hnone, hreports⟩ | ⟨-, id, hsome, hreports⟩ := db.store_cases it
      · rw [hnone]
        constructor
        · rintro ⟨r, hr, hreq, hstatus⟩
          obtain rfl | hr := List.mem_cons.mp hr
          · cases hstatus
          · exact absurd hreq (hlater r hr)
        · rintro ⟨row, hrow, rfl⟩
          rw [hreports] at hnew
          obtain hrow | hrow := hnew row hrow
          · exact absurd List.mem_cons_self (hfresh row hrow)
          · exact absurd (List.mem_map_of_mem hrow) hfirst
      · rw [hsome]
        refine iff_of_true ⟨_, List.mem_cons_self, rfl, rfl⟩ ⟨⟨id, it⟩, hkeep _ ?_, rfl⟩
        rw [hreports]
        exact List.mem_append_right _ (List.mem_singleton.mpr rfl)
    · have hmem : it ∈ items := (List.mem_cons.mp hit).resolve_left hsame
      rw [← ih hnodup hfresh' hmem]
      constructor
      · rintro ⟨r, hr, hreq, hstatus⟩
        obtain rfl | hr := List.mem_cons.mp hr
        · refine absurd (List.mem_map_of_mem (f := IngestItem.reqId) hmem) ?_
          rw [← hreq, answer_reqId]
          exact hfirst
        · exact ⟨r, hr, hreq, hstatus⟩
      · rintro ⟨r, hr, hreq⟩
        exact ⟨r, List.mem_cons_of_mem _ hr, hreq⟩

/-- No answer is 201 exactly when every item collides with a report that was there before. -/
theorem no_201_iff {db : Db} {items : List IngestItem} :
    (∀ r ∈ (storeAll db items).2, r.status ≠ 201) ↔ ∀ it ∈ items, db.duplicate it = true := by
  induction items generalizing db with
  | nil => simp [storeAll]
  | cons it items ih =>
    have hall : (storeAll db (it :: items)).2 =
        answer it (db.store it).1 :: (storeAll (db.store it).2 items).2 := rfl
    rw [hall, List.forall_mem_cons, List.forall_mem_cons, ih]
    obtain ⟨hdup, hnone, hreports⟩ | ⟨hnew, id, hsome, -⟩ := db.store_cases it
    · have hsame : ∀ x, (db.store it).2.duplicate x = db.duplicate x := by
        intro x
        unfold Db.duplicate
        rw [hreports, Db.store_mode]
      rw [hnone]
      simp only [hsame, hdup]
      simp [answer]
    · rw [hsome, hnew]
      simp [answer]

end Worker

end OpenALE.Relay
