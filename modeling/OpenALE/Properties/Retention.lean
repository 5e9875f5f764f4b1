import OpenALE.Library.Machine
import OpenALE.Lqa.Database

/-!
# What an update of the LQA database keeps

Every update finds its entry or makes room for it: `upsert_retains` says so once, for any edit that
keeps the key. `retention` is the run over the eight updates.
-/

namespace OpenALE

namespace LQADatabase

/-- What is evicted is the least active of all. -/
theorem oldest_least : ∀ {es : List LQAEntry} {o : LQAEntry}, oldest es = some o →
    o ∈ es ∧ ∀ e ∈ es, o.lastActivityMs ≤ e.lastActivityMs := by
  intro es
  cases es with
  | nil => intro o h; cases h
  | cons e es =>
    intro o h
    have hfold := Option.some.inj h
    clear h
    induction es generalizing e with
    | nil =>
      subst hfold
      simp
    | cons x es ih =>
      rw [List.foldl_cons] at hfold
      obtain ⟨hmem, hle⟩ := ih _ hfold
      have hhead := hle _ List.mem_cons_self
      by_cases hx : x.lastActivityMs < e.lastActivityMs
      · rw [if_pos hx] at hmem hle hhead
        refine ⟨List.mem_cons_of_mem _ hmem, fun y hy => ?_⟩
        obtain rfl | rfl | hy := List.mem_cons.mp hy |>.imp_right List.mem_cons.mp
        · exact UInt32.le_trans hhead (UInt32.le_of_lt hx)
        · exact hhead
        · exact hle y (List.mem_cons_of_mem _ hy)
      · rw [if_neg hx] at hmem hle hhead
        refine ⟨?_, fun y hy => ?_⟩
        · obtain rfl | hmem := List.mem_cons.mp hmem
          · exact List.mem_cons_self
          · exact List.mem_cons_of_mem _ (List.mem_cons_of_mem _ hmem)
        · obtain rfl | rfl | hy := List.mem_cons.mp hy |>.imp_right List.mem_cons.mp
          · exact hhead
          · exact UInt32.le_trans hhead (UInt32.not_lt.mp hx)
          · exact hle y (List.mem_cons_of_mem _ hy)

theorem oldest_cons (e : LQAEntry) (es : List LQAEntry) : ∃ o, oldest (e :: es) = some o := ⟨_, rfl⟩

/-! ## The invariant -/

/-- The key of an entry. -/
def keyOf (e : LQAEntry) : Nat × Str := (e.frequencyHz, e.remoteStation)

theorem isAt_iff {e : LQAEntry} {f : Nat} {s : Str} : e.IsAt f s ↔ keyOf e = (f, s) := by
  simp [keyOf, LQAEntry.IsAt]

/-- A map within its capacity. -/
structure Sound (db : LQADatabase) : Prop where
  keys : (db.entries.map keyOf).Nodup
  fits : db.entries.length ≤ capacity

variable {db : LQADatabase} {f : Nat} {s : Str}

theorem Sound.nodup (h : db.Sound) : db.entries.Nodup := List.Nodup.of_map _ h.keys

theorem insert_perm (db : LQADatabase) (e : LQAEntry) :
    (db.insert e).entries.Perm (e :: db.entries) := by
  unfold insert
  refine List.perm_middle.trans ?_
  rw [List.takeWhile_append_dropWhile]

/-- Making room removes at most one entry, the least active. -/
theorem evictOldestIfFull_cases (h : db.Sound) :
    (db.evictOldestIfFull = db ∧ db.entries.length < capacity) ∨
      ∃ o ∈ db.entries, (∀ e ∈ db.entries, o.lastActivityMs ≤ e.lastActivityMs) ∧
        db.evictOldestIfFull.entries = db.entries.erase o ∧ db.entries.length = capacity := by
  unfold evictOldestIfFull
  split
  · rename_i hroom
    exact .inl ⟨rfl, hroom⟩
  · rename_i hfull
    have hfits := h.fits
    cases hes : db.entries with
    | nil =>
      rw [hes] at hfull
      exact absurd (by decide) hfull
    | cons e es =>
      obtain ⟨o, ho⟩ := oldest_cons e es
      obtain ⟨hmem, hle⟩ := oldest_least ho
      rw [← hes] at ho hmem hle
      refine .inr ⟨o, hes ▸ hmem, hes ▸ hle, ?_, ?_⟩
      · rw [← hes, ho]
      · rw [← hes]
        omega

/-! ## One update -/

/-- After the update of a key the map fits and has an entry of it; at most one other entry went,
the least active of all, and those of the other keys that stay are as they were. -/
structure Retains (db db' : LQADatabase) (f : Nat) (s : Str) : Prop where
  fits : db'.entries.length ≤ capacity
  present : ∃ e ∈ db'.entries, e.IsAt f s
  removed : (∀ e ∈ db.entries, ¬ e.IsAt f s → e ∈ db'.entries) ∨
    ∃ o ∈ db.entries, (∀ e ∈ db.entries, o.lastActivityMs ≤ e.lastActivityMs) ∧
      ∀ e ∈ db.entries, ¬ e.IsAt f s → e ≠ o → e ∈ db'.entries
  unchanged : ∀ e ∈ db'.entries, ¬ e.IsAt f s → e ∈ db.entries

section upsert

variable {fresh : LQAEntry} {edit : LQAEntry → LQAEntry}

/-- What there is of a key, after the update of another entry of it. -/
theorem keys_map (hedit : ∀ e, e.IsAt f s → (edit e).IsAt f s) (es : List LQAEntry) :
    (es.map fun e => if e.IsAt f s then edit e else e).map keyOf = es.map keyOf := by
  rw [List.map_map]
  refine List.map_congr_left fun e _ => ?_
  rw [Function.comp]
  split
  · rename_i hat
    rw [isAt_iff.mp (hedit e hat), isAt_iff.mp hat]
  · rfl

theorem Sound.evict (h : db.Sound) : db.evictOldestIfFull.Sound ∧
    db.evictOldestIfFull.entries.length < capacity := by
  obtain ⟨heq, hroom⟩ | ⟨o, ho, -, heq, hfull⟩ := evictOldestIfFull_cases h
  · rw [heq]
    exact ⟨h, hroom⟩
  · have hlen : (db.entries.erase o).length < capacity := by
      rw [List.length_erase_of_mem ho, hfull]
      decide
    refine ⟨⟨?_, ?_⟩, ?_⟩
    · rw [heq]
      exact (List.erase_sublist.map keyOf).nodup h.keys
    · rw [heq]
      exact hlen.le
    · rw [heq]
      exact hlen

theorem Sound.upsert (h : db.Sound) (hfresh : fresh.IsAt f s)
    (hedit : ∀ e, e.IsAt f s → (edit e).IsAt f s) : (db.upsert f s fresh edit).Sound := by
  unfold LQADatabase.upsert
  cases hf : db.find f s with
  | some found =>
    refine ⟨?_, ?_⟩
    · rw [keys_map hedit]
      exact h.keys
    · rw [List.length_map]
      exact h.fits
  | none =>
    obtain ⟨hsound, hroom⟩ := h.evict
    refine ⟨?_, ?_⟩
    · rw [((insert_perm _ fresh).map keyOf).nodup_iff, List.map_cons, List.nodup_cons]
      refine ⟨fun hmem => ?_, hsound.keys⟩
      obtain ⟨e, he, hkey⟩ := List.mem_map.mp hmem
      have hat : e.IsAt f s := by rw [isAt_iff, hkey, ← isAt_iff]; exact hfresh
      exact absurd hat (by simpa using List.find?_eq_none.mp hf e (mem_evictOldestIfFull he))
    · rw [(insert_perm _ fresh).length_eq, List.length_cons]
      exact hroom

/-- **One update.** -/
theorem upsert_retains (h : db.Sound) (hfresh : fresh.IsAt f s)
    (hedit : ∀ e, e.IsAt f s → (edit e).IsAt f s) : Retains db (db.upsert f s fresh edit) f s where
  fits := (h.upsert hfresh hedit).fits
  present := by
    have hsome : ((db.upsert f s fresh edit).find f s).isSome = true :=
      find_upsert_isSome hfresh hedit
    unfold find at hsome
    rw [List.find?_isSome] at hsome
    obtain ⟨e, he, hat⟩ := hsome
    exact ⟨e, he, by simpa using hat⟩
  removed := by
    unfold LQADatabase.upsert
    cases hf : db.find f s with
    | some found =>
      refine .inl fun e he hat => List.mem_map.mpr ⟨e, he, if_neg hat⟩
    | none =>
      have hmem e : e ∈ (db.evictOldestIfFull.insert fresh).entries ↔
          e = fresh ∨ e ∈ db.evictOldestIfFull.entries := by
        rw [(insert_perm _ fresh).mem_iff, List.mem_cons]
      simp only [hmem]
      obtain ⟨heq, -⟩ | ⟨o, ho, hle, heq, -⟩ := evictOldestIfFull_cases h
      · rw [heq]
        exact .inl fun e he _ => .inr he
      · rw [heq]
        exact .inr ⟨o, ho, hle, fun e he _ hne => .inr ((List.mem_erase_of_ne hne).mpr he)⟩
  unchanged := by
    intro e he hat
    obtain ⟨hmem, -⟩ | ⟨x, -, hx, rfl, -⟩ | ⟨-, rfl⟩ := mem_upsert he
    · exact hmem
    · exact absurd (hedit x hx) hat
    · exact absurd hfresh hat

end upsert

/-! ## The calls -/

/-- A call that updates the database; `wall` is what the clock shows. -/
inductive Call where
  | updateEntry (f : Nat) (s : Str) (m : Measurement) (t wall : UInt32)
  | updateEntryExtended (f : Nat) (s : Str) (m : Measurement) (t wall : UInt32)
  | updateBilateral (f : Nat) (s : Str) (sinad ber mp : Nat) (t wall : UInt32)
  | markBilateralAttempted (f : Nat) (s : Str) (wall : UInt32)
  | recordHandshakeFail (f : Nat) (s : Str) (t wall : UInt32)
  | setSoundingAvailability (f : Nat) (s : Str) (twas : Bool) (t wall : UInt32)
  | updateNoiseFloor (f maxDb meanDb : Nat) (t wall : UInt32)
  | setPropagationAtMeasurement (f : Nat) (s : Str) (solarElev sfi : Float32)

/-- The key of a call. -/
def Call.key : Call → Nat × Str
  | .updateEntry f s .. | .updateEntryExtended f s .. | .updateBilateral f s ..
  | .markBilateralAttempted f s .. | .recordHandshakeFail f s .. | .setSoundingAvailability f s ..
  | .setPropagationAtMeasurement f s .. => (f, s)
  | .updateNoiseFloor f .. => (f, [])

/-- One call. -/
def exec (db : LQADatabase) : Call → LQADatabase
  | .updateEntry f s m t wall => db.updateEntry f s m t wall
  | .updateEntryExtended f s m t wall => db.updateEntryExtended f s m t wall
  | .updateBilateral f s sinad ber mp t wall => db.updateBilateral f s sinad ber mp t wall
  | .markBilateralAttempted f s wall => db.markBilateralAttempted f s wall
  | .recordHandshakeFail f s t wall => db.recordHandshakeFail f s t wall
  | .setSoundingAvailability f s twas t wall => db.setSoundingAvailability f s twas t wall
  | .updateNoiseFloor f maxDb meanDb t wall => db.updateNoiseFloor f maxDb meanDb t wall
  | .setPropagationAtMeasurement f s solarElev sfi => db.setPropagationAtMeasurement f s solarElev sfi

/-- A noise report whose both values are the code for none. -/
def Call.ReportsNothing : Call → Prop
  | .updateNoiseFloor _ maxDb meanDb _ _ => maxDb = 127 ∧ meanDb = 127
  | _ => False

/-- What a call keeps: everything, if it reports nothing. -/
def Keeps (db : LQADatabase) (c : Call) : Prop :=
  (c.ReportsNothing → db.exec c = db) ∧
    (¬ c.ReportsNothing → Retains db (db.exec c) c.key.1 c.key.2)

/-- Every call that reports something is an update of its key. -/
theorem exec_eq_upsert (db : LQADatabase) (c : Call) (h : ¬ c.ReportsNothing) :
    ∃ fresh edit, db.exec c = db.upsert c.key.1 c.key.2 fresh edit ∧ fresh.IsAt c.key.1 c.key.2 ∧
      ∀ e : LQAEntry, e.IsAt c.key.1 c.key.2 → (edit e).IsAt c.key.1 c.key.2 := by
  have hmeasured (f : Nat) (s : Str) m t wall : (measured db.config f s m t wall).IsAt f s := by
    simp [measured, LQAEntry.IsAt, LQAEntry.scored]
  cases c with
  | updateEntry f s m t wall =>
    refine ⟨_, _, rfl, hmeasured f s _ _ wall, fun e he => ?_⟩
    simpa [averageBasic, LQAEntry.IsAt, LQAEntry.scored] using he
  | updateEntryExtended f s m t wall =>
    refine ⟨_, _, rfl, hmeasured f s m _ wall, fun e he => ?_⟩
    simpa [average, LQAEntry.IsAt, LQAEntry.scored] using he
  | updateNoiseFloor f maxDb meanDb t wall =>
    refine ⟨_, _, if_neg h, ⟨rfl, rfl⟩, fun e he => he⟩
  | updateBilateral => exact ⟨_, _, rfl, ⟨rfl, rfl⟩, fun e he => he⟩
  | markBilateralAttempted => exact ⟨_, _, rfl, ⟨rfl, rfl⟩, fun e he => he⟩
  | recordHandshakeFail => exact ⟨_, _, rfl, ⟨rfl, rfl⟩, fun e he => he⟩
  | setSoundingAvailability => exact ⟨_, _, rfl, ⟨rfl, rfl⟩, fun e he => he⟩
  | setPropagationAtMeasurement => exact ⟨_, _, rfl, ⟨rfl, rfl⟩, fun e he => he⟩

theorem exec_of_reportsNothing (db : LQADatabase) (c : Call) (h : c.ReportsNothing) :
    db.exec c = db := by
  cases c with
  | updateNoiseFloor => exact if_pos h
  | _ => exact absurd h (by simp [Call.ReportsNothing])

theorem Sound.exec (h : db.Sound) (c : Call) : (db.exec c).Sound := by
  by_cases hn : c.ReportsNothing
  · rw [exec_of_reportsNothing db c hn]
    exact h
  · obtain ⟨fresh, edit, heq, hfresh, hedit⟩ := exec_eq_upsert db c hn
    rw [heq]
    exact h.upsert hfresh hedit

theorem keeps_exec (h : db.Sound) (c : Call) : db.Keeps c := by
  refine ⟨exec_of_reportsNothing db c, fun hn => ?_⟩
  obtain ⟨fresh, edit, heq, hfresh, hedit⟩ := exec_eq_upsert db c hn
  rw [heq]
  exact upsert_retains h hfresh hedit

/-- **The database within its capacity, over whole runs.** -/
theorem retention (config : LQAConfig) (calls : List Call) :
    Machine.AllStates exec (fun db => db.entries.length ≤ capacity) { config := config } calls ∧
      Machine.AllSteps exec Keeps { config := config } calls := by
  have h0 : ({ config := config } : LQADatabase).Sound := ⟨List.nodup_nil, Nat.zero_le _⟩
  have hrun : Machine.AllStates exec Sound { config := config } calls :=
    Machine.allStates_of_inv' (fun _ c h => h.exec c) h0 calls
  exact ⟨hrun.mono fun _ h => h.fits, hrun.allSteps fun _ c h => keeps_exec h c⟩

/-- A noise report without a value makes no entry. -/
theorem retention_fail :
    ¬ ∀ (config : LQAConfig) (calls : List Call),
      Machine.AllSteps exec (fun db c => Retains db (db.exec c) c.key.1 c.key.2)
        { config := config } calls := by
  intro h
  obtain ⟨e, he, -⟩ := (h {} [.updateNoiseFloor 7102000 127 127 0 0]).1.present
  cases he

end LQADatabase

end OpenALE
