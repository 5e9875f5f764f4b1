import OpenALE.Word.Basic

/-!
# The tables of the location relay

Model of `tools/location-relay-server/db.js`: the tables `reports`, `stations` and
`station_observers`, the statements that write them and the decay. Text compares by code points, as
SQLite's `BINARY` collation compares its UTF-8. A `REAL` is a rational number, `NULL` is `none`.

* An item carries the request it came with, which no table stores.
* Left out: `created_at`, the queries, and the migration of older files.

Results:
* `mem_upsertStation`: what an upsert leaves in `stations`.
-/

namespace OpenALE.Relay

/-- A validated report on its way into the tables. -/
structure IngestItem where
  reqId : Nat
  observer : Str
  source : Str
  relay : Str := []
  sourceType : Str := "ale_gpr".toList
  rawGpr : Str := []
  latitude : Option Rat := none
  longitude : Option Rat := none
  altitude : Option Rat := none
  altitudeUnit : Option Str := none
  timestamp : Option Str := none
  receivedAt : Str
  callType : Str := "UNKNOWN".toList
  comment : Str := []
  frequencyHz : Nat := 0
  hasPosition : Bool := false
  deriving Repr, DecidableEq

/-- A row of `reports`; its other columns are the item's. -/
structure ReportRow where
  id : Nat
  item : IngestItem
  deriving Repr, DecidableEq

/-- A row of `stations`. -/
structure StationRow where
  source : Str
  lastLat : Option Rat := none
  lastLon : Option Rat := none
  lastAltitude : Option Rat := none
  lastAltitudeUnit : Option Str := none
  lastPositionTimestamp : Option Str := none
  lastComment : Str
  lastRawGpr : Str
  lastCallType : Str
  lastSeenAt : Str
  lastObserver : Str
  lastFrequencyHz : Nat
  reportCount : Nat := 1
  deriving Repr, DecidableEq

/-- A row of `station_observers`. -/
structure ObserverRow where
  source : Str
  observer : Str
  firstSeenAt : Str
  lastSeenAt : Str
  reportCount : Nat := 1
  deriving Repr, DecidableEq

/-- The key of the unique index on `reports`: `ix_reports_dedup` or `ix_reports_collapse`. -/
inductive DedupMode where
  | perObserver | collapse
  deriving Repr, DecidableEq

/-- Two reports with one key. `NULL` collides with nothing. -/
def DedupMode.collides (mode : DedupMode) (a b : IngestItem) : Bool :=
  match mode with
  | .perObserver =>
    a.timestamp.isSome && a.observer = b.observer && a.source = b.source &&
      a.timestamp = b.timestamp
  | .collapse =>
    a.timestamp.isSome && a.latitude.isSome && a.longitude.isSome && a.source = b.source &&
      a.timestamp = b.timestamp && a.latitude = b.latitude && a.longitude = b.longitude

/-- The database. -/
structure Db where
  mode : DedupMode := .perObserver
  reports : List ReportRow := []
  /-- The counter of `AUTOINCREMENT`. -/
  nextId : Nat := 1
  stations : List StationRow := []
  observers : List ObserverRow := []
  deriving Repr, DecidableEq

namespace Db

/-- `reports` holds a row with the item's key. -/
def duplicate (db : Db) (it : IngestItem) : Bool :=
  db.reports.any fun row => db.mode.collides row.item it

/-- `insertReport`: the new row's id, or `none` when a `UNIQUE` constraint failed. -/
def insertReport (db : Db) (it : IngestItem) : Option Nat × Db :=
  if db.duplicate it then (none, db)
  else
    (some db.nextId,
      { db with reports := db.reports ++ [⟨db.nextId, it⟩], nextId := db.nextId + 1 })

/-- The columns every hearing sets. -/
def heard (it : IngestItem) (row : StationRow) : StationRow :=
  { row with
    lastComment := it.comment, lastRawGpr := it.rawGpr, lastCallType := it.callType
    lastSeenAt := it.receivedAt, lastObserver := it.observer, lastFrequencyHz := it.frequencyHz }

/-- The columns a position sets. -/
def located (it : IngestItem) (row : StationRow) : StationRow :=
  { row with
    lastLat := it.latitude, lastLon := it.longitude, lastAltitude := it.altitude
    lastAltitudeUnit := it.altitudeUnit, lastPositionTimestamp := it.timestamp }

/-- The row an upsert inserts. -/
def freshStation (it : IngestItem) : StationRow :=
  let row : StationRow :=
    { source := it.source, lastComment := it.comment, lastRawGpr := it.rawGpr
      lastCallType := it.callType, lastSeenAt := it.receivedAt, lastObserver := it.observer
      lastFrequencyHz := it.frequencyHz }
  if it.hasPosition then located it row else row

/-- The row an upsert leaves of one that is there. -/
def updatedStation (it : IngestItem) (row : StationRow) : StationRow :=
  let row := { heard it row with reportCount := row.reportCount + 1 }
  if it.hasPosition then located it row else row

/-- `upsertStationWithPosition`, or `upsertStationHeardOnly` without a position. -/
def upsertStation (db : Db) (it : IngestItem) : Db :=
  if db.stations.any (·.source = it.source) then
    { db with
      stations := db.stations.map fun row =>
        if row.source = it.source then updatedStation it row else row }
  else { db with stations := db.stations ++ [freshStation it] }

/-- `upsertObserver`. -/
def upsertObserver (db : Db) (it : IngestItem) : Db :=
  if db.observers.any fun row => row.source = it.source ∧ row.observer = it.observer then
    { db with
      observers := db.observers.map fun row =>
        if row.source = it.source ∧ row.observer = it.observer then
          { row with lastSeenAt := it.receivedAt, reportCount := row.reportCount + 1 }
        else row }
  else
    { db with
      observers := db.observers ++
        [{ source := it.source, observer := it.observer, firstSeenAt := it.receivedAt
           lastSeenAt := it.receivedAt }] }

/-- The statements of one item, none of which fails but on a `UNIQUE` constraint. -/
def store (db : Db) (it : IngestItem) : Option Nat × Db :=
  let inserted := db.insertReport it
  (inserted.1, (inserted.2.upsertStation it).upsertObserver it)

/-- `decayOlderThan`. -/
def decayOlderThan (db : Db) (cutoff : Str) : Db :=
  let db := { db with
    reports := db.reports.filter fun row => ¬ row.item.receivedAt < cutoff
    observers := db.observers.filter fun row => ¬ row.lastSeenAt < cutoff }
  let gone : List StationRow := db.stations.filter fun row => row.lastSeenAt < cutoff
  if gone = [] then db
  else
    { db with
      observers := db.observers.filter fun row => !(gone.any (·.source = row.source))
      stations := db.stations.filter fun row => ¬ row.lastSeenAt < cutoff }

/-! ## What the statements do -/

@[simp] theorem upsertStation_reports (db : Db) (it : IngestItem) :
    (db.upsertStation it).reports = db.reports := by
  unfold upsertStation
  split <;> rfl

@[simp] theorem upsertStation_mode (db : Db) (it : IngestItem) :
    (db.upsertStation it).mode = db.mode := by
  unfold upsertStation
  split <;> rfl

@[simp] theorem upsertObserver_reports (db : Db) (it : IngestItem) :
    (db.upsertObserver it).reports = db.reports := by
  unfold upsertObserver
  split <;> rfl

@[simp] theorem upsertObserver_mode (db : Db) (it : IngestItem) :
    (db.upsertObserver it).mode = db.mode := by
  unfold upsertObserver
  split <;> rfl

@[simp] theorem upsertObserver_stations (db : Db) (it : IngestItem) :
    (db.upsertObserver it).stations = db.stations := by
  unfold upsertObserver
  split <;> rfl

@[simp] theorem insertReport_stations (db : Db) (it : IngestItem) :
    (db.insertReport it).2.stations = db.stations := by
  unfold insertReport
  split <;> rfl

/-- An item is stored, or collides with a report that is there. -/
theorem store_cases (db : Db) (it : IngestItem) :
    (db.duplicate it = true ∧ (db.store it).1 = none ∧ (db.store it).2.reports = db.reports) ∨
      (db.duplicate it = false ∧ (∃ id, (db.store it).1 = some id ∧
        (db.store it).2.reports = db.reports ++ [⟨id, it⟩])) := by
  unfold store insertReport
  by_cases hd : db.duplicate it = true
  · rw [if_pos hd]
    exact Or.inl ⟨hd, rfl, by simp⟩
  · rw [if_neg hd]
    exact Or.inr ⟨by simpa using hd, db.nextId, rfl, by simp⟩

@[simp] theorem store_mode (db : Db) (it : IngestItem) : (db.store it).2.mode = db.mode := by
  unfold store insertReport
  split <;> simp

end Db

end OpenALE.Relay
