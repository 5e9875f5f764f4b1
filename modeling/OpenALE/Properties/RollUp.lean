import OpenALE.Library.Machine
import OpenALE.Relay.Db

/-!
# The roll-up of the reports

`stations` has one row for each station heard, written by each report in the order of arrival. A
report without a position leaves the last position there is, a duplicate counts as a hearing.
`received_at` is a text the client sends; nothing compares it before the decay does.

Results:
* `rolled_up_iff`: the rows are those of the latest reports exactly if no report arrives behind a
  later one of its station.
* `rolled_up_fail`: a report that was held back takes the row over.
-/

namespace OpenALE.Relay

/-- The database and the reports ingested for the stations it has rows of. -/
structure RollUp where
  db : Db := {}
  log : List IngestItem := []

/-- What writes `stations`. -/
inductive RollUpOp where
  | ingest (it : IngestItem)
  | decay (cutoff : Str)
  deriving Repr, DecidableEq

namespace RollUp

/-- One operation. With its row a station's reports are gone. -/
def step (x : RollUp) : RollUpOp → RollUp
  | .ingest it => { db := (x.db.store it).2, log := x.log ++ [it] }
  | .decay cutoff =>
    let db := x.db.decayOlderThan cutoff
    { db, log := x.log.filter fun r => db.stations.any (·.source = r.source) }

/-! ## The property -/

/-- The row shows what the report says but for a position. -/
def ShowsHeard (r : IngestItem) (row : StationRow) : Prop :=
  row.lastComment = r.comment ∧ row.lastRawGpr = r.rawGpr ∧ row.lastCallType = r.callType ∧
    row.lastSeenAt = r.receivedAt ∧ row.lastObserver = r.observer ∧
      row.lastFrequencyHz = r.frequencyHz

/-- The row shows the report's position. -/
def ShowsPosition (r : IngestItem) (row : StationRow) : Prop :=
  row.lastLat = r.latitude ∧ row.lastLon = r.longitude ∧ row.lastAltitude = r.altitude ∧
    row.lastAltitudeUnit = r.altitudeUnit ∧ row.lastPositionTimestamp = r.timestamp

/-- The report has the greatest received-at among those of its station that satisfy `p`. -/
def Latest (log : List IngestItem) (p : IngestItem → Prop) (source : Str) (r : IngestItem) : Prop :=
  (r ∈ log ∧ r.source = source ∧ p r) ∧
    ∀ r' ∈ log, r'.source = source → p r' → r'.receivedAt ≤ r.receivedAt

/-- A row shows the latest report of its station, and the latest position of one. -/
structure ShowsLatest (log : List IngestItem) (row : StationRow) : Prop where
  heard : ∃ r, Latest log (fun _ => True) row.source r ∧ ShowsHeard r row
  position : (∃ r, Latest log (·.hasPosition = true) row.source r ∧ ShowsPosition r row) ∨
    ((∀ r ∈ log, r.source = row.source → r.hasPosition = false) ∧
      row.lastLat = none ∧ row.lastLon = none)

/-- The roll-up is that of the reports. -/
structure RolledUp (x : RollUp) : Prop where
  shows : ∀ row ∈ x.db.stations, ShowsLatest x.log row
  covers : ∀ r ∈ x.log, ∃ row ∈ x.db.stations, row.source = r.source

/-- A row survives a decay exactly if a report of its station is not older than the cutoff. -/
def Survives (x : RollUp) (op : RollUpOp) : Prop :=
  ∀ cutoff, op = .decay cutoff → ∀ row ∈ x.db.stations, row ∈ (x.step op).db.stations ↔
    ∃ r ∈ x.log, r.source = row.source ∧ ¬ r.receivedAt < cutoff

/-- No report of the station is later than the one that is ingested. -/
def InOrder (x : RollUp) : RollUpOp → Prop
  | .ingest it => ∀ r ∈ x.log, r.source = it.source → r.receivedAt ≤ it.receivedAt
  | .decay _ => True

/-! ## One operation -/

theorem store_stations (db : Db) (it : IngestItem) :
    (db.store it).2.stations = if db.stations.any (·.source = it.source) then
      db.stations.map fun row => if row.source = it.source then Db.updatedStation it row else row
    else db.stations ++ [Db.freshStation it] := by
  unfold Db.store
  dsimp only
  rw [Db.upsertObserver_stations]
  unfold Db.upsertStation
  rw [Db.insertReport_stations]
  split <;> rfl

/-- What an item leaves in `stations`. -/
theorem mem_store {db : Db} {it : IngestItem} {row : StationRow}
    (h : row ∈ (db.store it).2.stations) :
    (row ∈ db.stations ∧ row.source ≠ it.source) ∨
      (∃ old ∈ db.stations, old.source = it.source ∧ row = Db.updatedStation it old) ∨
        ((∀ old ∈ db.stations, old.source ≠ it.source) ∧ row = Db.freshStation it) := by
  rw [store_stations] at h
  split at h
  · obtain ⟨old, hold, rfl⟩ := List.mem_map.mp h
    by_cases hs : old.source = it.source
    · rw [if_pos hs]
      exact Or.inr (Or.inl ⟨old, hold, hs, rfl⟩)
    · rw [if_neg hs]
      exact Or.inl ⟨hold, hs⟩
  · rename_i hnone
    have hother : ∀ old ∈ db.stations, old.source ≠ it.source := by simpa using hnone
    obtain h | h := List.mem_append.mp h
    · exact Or.inl ⟨h, hother row h⟩
    · exact Or.inr (Or.inr ⟨hother, List.mem_singleton.mp h⟩)

theorem exists_store (db : Db) (it : IngestItem) :
    ∃ row ∈ (db.store it).2.stations, row.source = it.source ∧ row.lastSeenAt = it.receivedAt := by
  rw [store_stations]
  split
  · rename_i hany
    obtain ⟨old, hold, hs⟩ : ∃ old ∈ db.stations, old.source = it.source := by simpa using hany
    refine ⟨_, List.mem_map_of_mem hold, ?_⟩
    rw [if_pos hs]
    unfold Db.updatedStation
    dsimp only
    split
    · exact ⟨hs, rfl⟩
    · exact ⟨hs, rfl⟩
  · refine ⟨_, List.mem_append_right _ (List.mem_singleton.mpr rfl), ?_⟩
    unfold Db.freshStation
    dsimp only
    split
    · exact ⟨rfl, rfl⟩
    · exact ⟨rfl, rfl⟩

theorem exists_store_of_mem {db : Db} {it : IngestItem} {row : StationRow} (h : row ∈ db.stations) :
    ∃ row' ∈ (db.store it).2.stations, row'.source = row.source := by
  by_cases hs : row.source = it.source
  · obtain ⟨row', hmem, hs', -⟩ := exists_store db it
    exact ⟨row', hmem, hs'.trans hs.symm⟩
  · refine ⟨row, ?_, rfl⟩
    rw [store_stations]
    split
    · exact List.mem_map.mpr ⟨row, h, if_neg hs⟩
    · exact List.mem_append_left _ h

theorem decay_stations (db : Db) (cutoff : Str) :
    (db.decayOlderThan cutoff).stations =
      db.stations.filter fun row => ¬ row.lastSeenAt < cutoff := by
  unfold Db.decayOlderThan
  dsimp only
  split
  · rename_i hgone
    refine (List.filter_eq_self.mpr fun row hrow => ?_).symm
    have hnot := List.filter_eq_nil_iff.mp hgone row hrow
    simpa using hnot
  · rfl

/-- A row of another station is that of the reports there were. -/
theorem ShowsLatest.append {log : List IngestItem} {row : StationRow} {it : IngestItem}
    (h : ShowsLatest log row) (hs : row.source ≠ it.source) : ShowsLatest (log ++ [it]) row := by
  have hlatest : ∀ (p : IngestItem → Prop) r, Latest log p row.source r →
      Latest (log ++ [it]) p row.source r := by
    rintro p r ⟨⟨hmem, hsource, hp⟩, hmax⟩
    refine ⟨⟨List.mem_append_left _ hmem, hsource, hp⟩, fun r' hr' hs' hp' => ?_⟩
    obtain hr' | hr' := List.mem_append.mp hr'
    · exact hmax r' hr' hs' hp'
    · rw [List.mem_singleton.mp hr'] at hs'
      exact absurd hs'.symm hs
  obtain ⟨⟨r, hr, hshows⟩, hposition⟩ := h
  refine ⟨⟨r, hlatest _ r hr, hshows⟩, ?_⟩
  obtain ⟨r, hr, hshows⟩ | ⟨hnone, hnull⟩ := hposition
  · exact Or.inl ⟨r, hlatest _ r hr, hshows⟩
  · refine Or.inr ⟨fun r hr hs' => ?_, hnull⟩
    obtain hr | hr := List.mem_append.mp hr
    · exact hnone r hr hs'
    · rw [List.mem_singleton.mp hr] at hs'
      exact absurd hs'.symm hs

/-- A report in order is the latest of its station. -/
theorem latest_append {log : List IngestItem} {it : IngestItem}
    (h : ∀ r ∈ log, r.source = it.source → r.receivedAt ≤ it.receivedAt) {p : IngestItem → Prop}
    (hp : p it) : Latest (log ++ [it]) p it.source it := by
  refine ⟨⟨List.mem_append_right _ (List.mem_singleton.mpr rfl), rfl, hp⟩, fun r' hr' hs' _ => ?_⟩
  obtain hr' | hr' := List.mem_append.mp hr'
  · exact h r' hr' hs'
  · rw [List.mem_singleton.mp hr']

/-- The row of the report's own station. -/
theorem showsLatest_own {log : List IngestItem} {it : IngestItem} {row : StationRow}
    (h : ∀ r ∈ log, r.source = it.source → r.receivedAt ≤ it.receivedAt)
    (hsource : row.source = it.source) (hheard : ShowsHeard it row)
    (hlocated : it.hasPosition = true → ShowsPosition it row)
    (hkept : it.hasPosition = false →
      (∃ r, Latest log (·.hasPosition = true) it.source r ∧ ShowsPosition r row) ∨
        ((∀ r ∈ log, r.source = it.source → r.hasPosition = false) ∧
          row.lastLat = none ∧ row.lastLon = none)) : ShowsLatest (log ++ [it]) row := by
  refine ⟨?_, ?_⟩
  · rw [hsource]
    exact ⟨it, latest_append h trivial, hheard⟩
  · rw [hsource]
    cases hp : it.hasPosition with
    | true => exact Or.inl ⟨it, latest_append h hp, hlocated hp⟩
    | false =>
      obtain ⟨r, ⟨⟨hmem, hs, hr⟩, hmax⟩, hshows⟩ | ⟨hnone, hnull⟩ := hkept hp
      · refine Or.inl ⟨r, ⟨⟨List.mem_append_left _ hmem, hs, hr⟩, fun r' hr' hs' hp' => ?_⟩, hshows⟩
        obtain hr' | hr' := List.mem_append.mp hr'
        · exact hmax r' hr' hs' hp'
        · rw [List.mem_singleton.mp hr', hp] at hp'
          cases hp'
      · refine Or.inr ⟨fun r hr hs => ?_, hnull⟩
        obtain hr | hr := List.mem_append.mp hr
        · exact hnone r hr hs
        · rw [List.mem_singleton.mp hr]
          exact hp

theorem rolledUp_ingest {x : RollUp} {it : IngestItem} (h : x.RolledUp)
    (hop : x.InOrder (.ingest it)) : (x.step (.ingest it)).RolledUp := by
  obtain ⟨hshows, hcovers⟩ := h
  refine ⟨fun row hrow => ?_, fun r hr => ?_⟩
  · obtain ⟨hold, hs⟩ | ⟨old, hold, hs, rfl⟩ | ⟨hnew, rfl⟩ := mem_store hrow
    · exact (hshows row hold).append hs
    · have hposition := (hshows old hold).position
      rw [hs] at hposition
      refine showsLatest_own hop ?_ ?_ (fun hp => ?_) (fun hp => ?_)
      · unfold Db.updatedStation
        dsimp only
        split <;> exact hs
      · unfold Db.updatedStation
        dsimp only
        split <;> exact ⟨rfl, rfl, rfl, rfl, rfl, rfl⟩
      · unfold Db.updatedStation
        dsimp only
        rw [if_pos hp]
        exact ⟨rfl, rfl, rfl, rfl, rfl⟩
      · unfold Db.updatedStation
        dsimp only
        rw [hp, if_neg Bool.false_ne_true]
        exact hposition
    · refine showsLatest_own hop ?_ ?_ (fun hp => ?_) (fun hp => ?_)
      · unfold Db.freshStation
        dsimp only
        split <;> rfl
      · unfold Db.freshStation
        dsimp only
        split <;> exact ⟨rfl, rfl, rfl, rfl, rfl, rfl⟩
      · unfold Db.freshStation
        dsimp only
        rw [if_pos hp]
        exact ⟨rfl, rfl, rfl, rfl, rfl⟩
      · unfold Db.freshStation
        dsimp only
        rw [hp, if_neg Bool.false_ne_true]
        refine Or.inr ⟨fun r hr hs => ?_, rfl, rfl⟩
        obtain ⟨row, hrow, hs'⟩ := hcovers r hr
        exact absurd (hs'.trans hs) (hnew row hrow)
  · obtain hr | hr := List.mem_append.mp hr
    · obtain ⟨row, hrow, hs⟩ := hcovers r hr
      obtain ⟨row', hrow', hs'⟩ : ∃ row' ∈ (x.db.store it).2.stations, row'.source = row.source :=
        exists_store_of_mem hrow
      exact ⟨row', hrow', hs'.trans hs⟩
    · obtain ⟨row, hrow, hs, -⟩ := exists_store x.db it
      rw [List.mem_singleton.mp hr]
      exact ⟨row, hrow, hs⟩

theorem rolledUp_decay {x : RollUp} {cutoff : Str} (h : x.RolledUp) :
    (x.step (.decay cutoff)).RolledUp := by
  obtain ⟨hshows, hcovers⟩ := h
  have hany : ∀ r ∈ (x.step (.decay cutoff)).log, ∃ row ∈ (x.step (.decay cutoff)).db.stations,
      row.source = r.source := by
    intro r hr
    obtain ⟨row, hrow, hs⟩ := List.any_eq_true.mp (List.mem_filter.mp hr).2
    exact ⟨row, hrow, of_decide_eq_true hs⟩
  refine ⟨fun row hrow => ?_, hany⟩
  have hold : row ∈ x.db.stations := by
    have hrow' : row ∈ (x.db.decayOlderThan cutoff).stations := hrow
    rw [decay_stations] at hrow'
    exact List.mem_of_mem_filter hrow'
  have hkeeps : ∀ r ∈ x.log, r.source = row.source → r ∈ (x.step (.decay cutoff)).log := by
    intro r hr hs
    refine List.mem_filter.mpr ⟨hr, List.any_eq_true.mpr ⟨row, hrow, ?_⟩⟩
    exact decide_eq_true hs.symm
  have hlatest : ∀ (p : IngestItem → Prop) r, Latest x.log p row.source r →
      Latest (x.step (.decay cutoff)).log p row.source r := by
    rintro p r ⟨⟨hmem, hs, hp⟩, hmax⟩
    exact ⟨⟨hkeeps r hmem hs, hs, hp⟩,
      fun r' hr' hs' hp' => hmax r' (List.mem_of_mem_filter hr') hs' hp'⟩
  obtain ⟨⟨r, hr, hheard⟩, hposition⟩ := hshows row hold
  refine ⟨⟨r, hlatest _ r hr, hheard⟩, ?_⟩
  obtain ⟨r, hr, hshown⟩ | ⟨hnone, hnull⟩ := hposition
  · exact Or.inl ⟨r, hlatest _ r hr, hshown⟩
  · exact Or.inr ⟨fun r hr hs => hnone r (List.mem_of_mem_filter hr) hs, hnull⟩

theorem rolledUp_step {x : RollUp} {op : RollUpOp} (h : x.RolledUp) (hop : x.InOrder op) :
    (x.step op).RolledUp := by
  cases op with
  | ingest it => exact rolledUp_ingest h hop
  | decay cutoff => exact rolledUp_decay h

theorem survives_step {x : RollUp} (h : x.RolledUp) (op : RollUpOp) : x.Survives op := by
  rintro cutoff rfl row hrow
  obtain ⟨⟨r, ⟨⟨hmem, hs, -⟩, hmax⟩, -, -, -, hseen, -⟩, -⟩ := h.shows row hrow
  change row ∈ (x.db.decayOlderThan cutoff).stations ↔ _
  rw [decay_stations, List.mem_filter, decide_eq_true_iff, hseen]
  constructor
  · rintro ⟨-, hnot⟩
    exact ⟨r, hmem, hs, hnot⟩
  · rintro ⟨r', hmem', hs', hnot⟩
    refine ⟨hrow, fun hlt => hnot (lt_of_le_of_lt (hmax r' hmem' hs' trivial) hlt)⟩

/-- A report behind a later one takes the row over. -/
theorem not_rolledUp {x : RollUp} {op : RollUpOp} (hop : ¬ x.InOrder op) :
    ¬ (x.step op).RolledUp := by
  cases op with
  | ingest it =>
    intro hd
    refine hop fun r hr hs => ?_
    obtain ⟨row, hrow, hs', hseen⟩ := exists_store x.db it
    obtain ⟨⟨r', ⟨-, hmax⟩, -, -, -, hseen', -⟩, -⟩ := hd.shows row hrow
    have hle := hmax r (List.mem_append_left _ hr) (hs.trans hs'.symm) trivial
    rwa [← hseen', hseen] at hle
  | decay cutoff => exact absurd trivial hop

end RollUp

end OpenALE.Relay
