import OpenALE.Word.Basic

/-!
# `LQADatabase`: what the station knows of its channels

Model of `src/LQA/lqa_database.cpp`, with the penalty test of `src/LQA/lqa_analyzer.cpp`. A
`float` is `Float32`, a frequency `Nat`, an `int` `Int`, and a timestamp `UInt32`.

* The map is the list of its entries in key order.
* `get_current_time_ms` is the argument `wall`. A timestamp of 0 stands for it.
* Left out: the propagation context, the score of a channel over all stations, the configuration's
  thresholds and the file.

Results:
* `mem_upsert`: what an update leaves in the database.
-/

namespace OpenALE

/-! ## Entries -/

/-- `std::min`. -/
def minFloat (a b : Float32) : Float32 := if b < a then b else a

/-- `std::max`. -/
def maxFloat (a b : Float32) : Float32 := if a < b then b else a

/-- `LQAEntry`. -/
structure LQAEntry where
  frequencyHz : Nat
  remoteStation : Str
  snrDb : Float32 := 0
  ber : Float32 := 0
  sinadDb : Float32 := 0
  fecErrors : Int := 0
  totalWords : Int := 0
  multipathScore : Float32 := 0
  noiseFloorDbm : Float32 := -120
  lastSoundingMs : UInt32 := 0
  lastContactMs : UInt32 := 0
  score : Float32 := 0
  sampleCount : UInt32 := 0
  bilateralSinad : Nat := 31
  bilateralBer : Nat := 31
  bilateralMp : Nat := 7
  bilateralHandshakeTried : Bool := false
  lastFailedHandshakeMs : UInt32 := 0
  soundingTwas : Bool := false
  solarElevationDegAtMeasurement : Float32 := 0
  sfiAtMeasurement : Float32 := 0
  deriving Repr, DecidableEq

/-- `LQAConfig`. -/
structure LQAConfig where
  snrWeight : Float32 := 0.5
  successWeight : Float32 := 0.3
  recencyWeight : Float32 := 0.2
  maxAgeMs : UInt32 := 90000000
  timeDecayFactor : Float32 := 0.9
  deriving Repr, DecidableEq

/-- The best quality. -/
abbrev lqaQualityMax : Float32 := 30

/-- The share of the bit error count in a quality. -/
abbrev berLeadWeight : Float32 := 0.7

namespace LQAEntry

/-- `last_activity_ms`. -/
def lastActivityMs (e : LQAEntry) : UInt32 :=
  if e.lastContactMs > e.lastSoundingMs then e.lastContactMs else e.lastSoundingMs

/-- The entry of a key. -/
def IsAt (e : LQAEntry) (frequencyHz : Nat) (remoteStation : Str) : Prop :=
  e.frequencyHz = frequencyHz ∧ e.remoteStation = remoteStation

instance (e : LQAEntry) (f : Nat) (s : Str) : Decidable (e.IsAt f s) := by
  unfold IsAt
  infer_instance

/-- `EntryKey::operator<`. -/
def before (a b : LQAEntry) : Bool :=
  if a.frequencyHz ≠ b.frequencyHz then a.frequencyHz < b.frequencyHz
  else decide (a.remoteStation < b.remoteStation)

/-- The mix of the two measured qualities; `-1` stands for none. -/
def mixQuality (ber sinad : Option Float32) : Float32 :=
  match ber, sinad with
  | some b, some s => berLeadWeight * b + (1.0 - berLeadWeight) * s
  | some b, none => b
  | none, some s => s
  | none, none => -1.0

/-- `from_direction_quality`. -/
def fromDirectionQuality (e : LQAEntry) : Float32 :=
  mixQuality
    (if 0 < e.totalWords then some ((1.0 - minFloat 1.0 (e.ber / 48.0)) * lqaQualityMax) else none)
    (if e.sinadDb > 0.0 then some (minFloat lqaQualityMax e.sinadDb) else none)

/-- `to_direction_quality`. -/
def toDirectionQuality (e : LQAEntry) : Float32 :=
  mixQuality
    (if e.bilateralBer ≤ 30 then some (lqaQualityMax - Float32.ofNat e.bilateralBer) else none)
    (if e.bilateralSinad ≤ 30 then
      some (minFloat lqaQualityMax (Float32.ofNat e.bilateralSinad)) else none)

/-- `bilateral_quality_score`. -/
def bilateralQualityScore (e : LQAEntry) : Float32 :=
  let q := e.toDirectionQuality
  if q < 0.0 then 0.0 else minFloat lqaQualityMax (maxFloat 0.0 q)

/-- The time since the last activity that `compute_score` reads; `none` for an entry that has
none. -/
def ageMs (e : LQAEntry) (wall : UInt32) : Option UInt32 :=
  if e.lastActivityMs > 0 then some (wall - e.lastActivityMs) else none

/-- The test of `rank_channels_for_station` for a handshake that failed of late. -/
def penalised (e : LQAEntry) (windowMs wall : UInt32) : Bool :=
  e.lastFailedHandshakeMs > 0 && wall - e.lastFailedHandshakeMs < windowMs

/-- The recency of `compute_score`, from 0 to 30. -/
def recency (config : LQAConfig) (age : UInt32) : Float32 :=
  let factor := 1.0 - Float32.ofNat age.toNat / Float32.ofNat config.maxAgeMs.toNat
  maxFloat 0.0 (minFloat 1.0 factor) * lqaQualityMax

/-- `compute_score`. -/
def computeScore (e : LQAEntry) (config : LQAConfig) (wall : UInt32) : Float32 :=
  let q := e.fromDirectionQuality
  let q := if q ≥ 0.0 then q else e.bilateralQualityScore
  let score := q * (config.snrWeight + config.successWeight)
  let score := match e.ageMs wall with
    | some age => score + recency config age * config.recencyWeight
    | none => score
  minFloat lqaQualityMax (maxFloat 0.0 score)

/-- The entry with its score computed anew. -/
def scored (e : LQAEntry) (config : LQAConfig) (wall : UInt32) : LQAEntry :=
  { e with score := e.computeScore config wall }

/-- The stamp of an update: a channel sounding has no station. -/
def stamp (e : LQAEntry) (t : UInt32) : LQAEntry :=
  if e.remoteStation = [] then { e with lastSoundingMs := t } else { e with lastContactMs := t }

@[simp] theorem stamp_station (e : LQAEntry) (t : UInt32) :
    (e.stamp t).remoteStation = e.remoteStation := by
  unfold stamp
  split <;> rfl

@[simp] theorem stamp_frequency (e : LQAEntry) (t : UInt32) :
    (e.stamp t).frequencyHz = e.frequencyHz := by
  unfold stamp
  split <;> rfl

@[simp] theorem stamp_failed (e : LQAEntry) (t : UInt32) :
    (e.stamp t).lastFailedHandshakeMs = e.lastFailedHandshakeMs := by
  unfold stamp
  split <;> rfl

theorem stamp_contact (e : LQAEntry) (t : UInt32) :
    (e.stamp t).lastContactMs = if e.remoteStation = [] then e.lastContactMs else t := by
  unfold stamp
  split <;> rfl

theorem stamp_sounding (e : LQAEntry) (t : UInt32) :
    (e.stamp t).lastSoundingMs = if e.remoteStation = [] then t else e.lastSoundingMs := by
  unfold stamp
  split <;> rfl

end LQAEntry

/-! ## The database -/

/-- `LQADatabase`. -/
structure LQADatabase where
  config : LQAConfig := {}
  entries : List LQAEntry := []
  deriving Repr, DecidableEq

/-- `timestamp_ms == 0 ? get_current_time_ms() : timestamp_ms`. -/
def stampOr (timestampMs wall : UInt32) : UInt32 := if timestampMs = 0 then wall else timestampMs

namespace LQADatabase

/-- `kCapacity`. -/
abbrev capacity : Nat := 10000

/-- `entries_.find`, `get_entry`. -/
def find (db : LQADatabase) (f : Nat) (s : Str) : Option LQAEntry :=
  db.entries.find? (·.IsAt f s)

/-- `time_weighted_average`. -/
def timeWeightedAverage (config : LQAConfig) (old new : Float32) (oldSamples : UInt32) : Float32 :=
  let n := Float32.ofNat oldSamples.toNat
  (old * config.timeDecayFactor * n + new) / (n * config.timeDecayFactor + 1.0)

/-- The first of the oldest entries. -/
def oldest : List LQAEntry → Option LQAEntry
  | [] => none
  | e :: es => some (es.foldl (fun o x => if x.lastActivityMs < o.lastActivityMs then x else o) e)

/-- `evict_oldest_if_full`. -/
def evictOldestIfFull (db : LQADatabase) : LQADatabase :=
  if db.entries.length < capacity then db
  else match oldest db.entries with
    | none => db
    | some o => { db with entries := db.entries.erase o }

/-- `entries_[key] = entry` for a key that is new. -/
def insert (db : LQADatabase) (e : LQAEntry) : LQADatabase :=
  { db with entries := db.entries.takeWhile (·.before e) ++ e :: db.entries.dropWhile (·.before e) }

/-- An update: `edit` changes the entry there is, `fresh` is stored where there is none. -/
def upsert (db : LQADatabase) (f : Nat) (s : Str) (fresh : LQAEntry)
    (edit : LQAEntry → LQAEntry) : LQADatabase :=
  match db.find f s with
  | some _ => { db with entries := db.entries.map fun e => if e.IsAt f s then edit e else e }
  | none => db.evictOldestIfFull.insert fresh

/-- What a measurement brings. -/
structure Measurement where
  snrDb : Float32
  ber : Float32
  sinadDb : Float32
  multipathScore : Float32 := 0
  noiseFloorDbm : Float32 := -120
  fecErrors : Int := 0
  totalWords : Int := 1
  deriving Repr, DecidableEq

/-- `update_entry` on the entry there is. -/
def averageBasic (config : LQAConfig) (m : Measurement) (t wall : UInt32) (e : LQAEntry) : LQAEntry :=
  let avg := fun old new => timeWeightedAverage config old new e.sampleCount
  ({ e with
    snrDb := avg e.snrDb m.snrDb
    ber := avg e.ber m.ber
    fecErrors := e.fecErrors + m.fecErrors
    totalWords := e.totalWords + m.totalWords
    sampleCount := e.sampleCount + 1 }.stamp t).scored config wall

/-- `update_entry_extended` on the entry there is. -/
def average (config : LQAConfig) (m : Measurement) (t wall : UInt32) (e : LQAEntry) : LQAEntry :=
  let avg := fun old new => timeWeightedAverage config old new e.sampleCount
  ({ e with
    snrDb := avg e.snrDb m.snrDb
    ber := avg e.ber m.ber
    sinadDb := avg e.sinadDb m.sinadDb
    multipathScore := avg e.multipathScore m.multipathScore
    noiseFloorDbm := avg e.noiseFloorDbm m.noiseFloorDbm
    fecErrors := e.fecErrors + m.fecErrors
    totalWords := e.totalWords + m.totalWords
    sampleCount := e.sampleCount + 1 }.stamp t).scored config wall

/-- The entry a first measurement makes. -/
def measured (config : LQAConfig) (f : Nat) (s : Str) (m : Measurement) (t wall : UInt32) :
    LQAEntry :=
  ({ frequencyHz := f, remoteStation := s, snrDb := m.snrDb, ber := m.ber, sinadDb := m.sinadDb
     multipathScore := m.multipathScore, noiseFloorDbm := m.noiseFloorDbm
     fecErrors := m.fecErrors, totalWords := m.totalWords, sampleCount := 1 : LQAEntry }.stamp
    t).scored config wall

/-- `update_entry`: the SINAD, the multipath score and the noise floor of the measurement are not
read. -/
def updateEntry (db : LQADatabase) (f : Nat) (s : Str) (m : Measurement)
    (timestampMs wall : UInt32) : LQADatabase :=
  let t := stampOr timestampMs wall
  let basic : Measurement := { m with sinadDb := 0, multipathScore := 0, noiseFloorDbm := -120 }
  db.upsert f s (measured db.config f s basic t wall) (averageBasic db.config m t wall)

/-- `update_entry_extended`. -/
def updateEntryExtended (db : LQADatabase) (f : Nat) (s : Str) (m : Measurement)
    (timestampMs wall : UInt32) : LQADatabase :=
  let t := stampOr timestampMs wall
  db.upsert f s (measured db.config f s m t wall) (average db.config m t wall)

/-- `update_bilateral` on an entry. -/
def report (config : LQAConfig) (sinad ber mp : Nat) (t wall : UInt32) (e : LQAEntry) : LQAEntry :=
  { e with
    bilateralSinad := sinad, bilateralBer := ber, bilateralMp := mp
    bilateralHandshakeTried := true, lastContactMs := t }.scored config wall

/-- `update_bilateral`. -/
def updateBilateral (db : LQADatabase) (f : Nat) (s : Str) (sinad ber mp : Nat)
    (timestampMs wall : UInt32) : LQADatabase :=
  let edit := report db.config sinad ber mp (stampOr timestampMs wall) wall
  db.upsert f s (edit { frequencyHz := f, remoteStation := s }) edit

/-- `mark_bilateral_attempted` on an entry. -/
def attempt (config : LQAConfig) (wall : UInt32) (e : LQAEntry) : LQAEntry :=
  { e with bilateralHandshakeTried := true }.scored config wall

/-- `mark_bilateral_attempted`. -/
def markBilateralAttempted (db : LQADatabase) (f : Nat) (s : Str) (wall : UInt32) : LQADatabase :=
  let edit := attempt db.config wall
  db.upsert f s (edit { frequencyHz := f, remoteStation := s, lastContactMs := wall }) edit

/-- `record_handshake_fail`: an entry there is keeps its last contact. -/
def recordHandshakeFail (db : LQADatabase) (f : Nat) (s : Str) (timestampMs wall : UInt32) :
    LQADatabase :=
  let t := stampOr timestampMs wall
  let edit : LQAEntry → LQAEntry := fun e => { e with lastFailedHandshakeMs := t }
  db.upsert f s (edit { frequencyHz := f, remoteStation := s, lastContactMs := t }) edit

/-- `set_sounding_availability`. -/
def setSoundingAvailability (db : LQADatabase) (f : Nat) (s : Str) (twas : Bool)
    (timestampMs wall : UInt32) : LQADatabase :=
  let t := stampOr timestampMs wall
  let edit : LQAEntry → LQAEntry := fun e =>
    { e with soundingTwas := twas, lastSoundingMs := t }.scored db.config wall
  db.upsert f s (edit { frequencyHz := f, remoteStation := s }) edit

/-- `update_noise_floor`. -/
def updateNoiseFloor (db : LQADatabase) (f maxDb meanDb : Nat) (timestampMs wall : UInt32) :
    LQADatabase :=
  if maxDb = 127 ∧ meanDb = 127 then db
  else
    let t := stampOr timestampMs wall
    let edit : LQAEntry → LQAEntry := fun e =>
      { e with
        noiseFloorDbm := if meanDb < 127 then Float32.ofNat meanDb - 120.0 else e.noiseFloorDbm
        lastSoundingMs := t }
    db.upsert f [] (edit { frequencyHz := f, remoteStation := [] }) edit

/-- `set_propagation_at_measurement`. -/
def setPropagationAtMeasurement (db : LQADatabase) (f : Nat) (s : Str) (solarElev sfi : Float32) :
    LQADatabase :=
  let edit : LQAEntry → LQAEntry := fun e =>
    { e with solarElevationDegAtMeasurement := solarElev, sfiAtMeasurement := sfi }
  db.upsert f s (edit { frequencyHz := f, remoteStation := s }) edit

/-- `get_entries_for_station`, with the age limit in milliseconds. -/
def getEntriesForStation (db : LQADatabase) (s : Str) (maxAgeMs wall : UInt32) : List LQAEntry :=
  (db.entries.filter fun e => e.remoteStation = s ∧
    (maxAgeMs = 0 ∨ wall - e.lastActivityMs ≤ maxAgeMs)).mergeSort
      fun a b => a.frequencyHz ≤ b.frequencyHz

/-- The test of `prune_stale_entries`. -/
def stale (db : LQADatabase) (wall : UInt32) (e : LQAEntry) : Bool :=
  wall - e.lastActivityMs > db.config.maxAgeMs

/-- `prune_stale_entries`. -/
def pruneStaleEntries (db : LQADatabase) (wall : UInt32) : LQADatabase :=
  { db with entries := db.entries.filter fun e => !db.stale wall e }

theorem mem_evictOldestIfFull {db : LQADatabase} {e : LQAEntry}
    (h : e ∈ db.evictOldestIfFull.entries) : e ∈ db.entries := by
  unfold evictOldestIfFull at h
  split at h
  · exact h
  · split at h
    · exact h
    · exact List.mem_of_mem_erase h

theorem mem_insert {db : LQADatabase} {e x : LQAEntry} (h : x ∈ (db.insert e).entries) :
    x = e ∨ x ∈ db.entries := by
  unfold insert at h
  rw [List.mem_append, List.mem_cons] at h
  obtain h | h | h := h
  · exact Or.inr (List.takeWhile_subset _ h)
  · exact Or.inl h
  · exact Or.inr (List.dropWhile_subset _ h)

/-- **What an update leaves**: the other entries, the entry changed, or a fresh one. -/
theorem mem_upsert {db : LQADatabase} {f : Nat} {s : Str} {fresh x : LQAEntry}
    {edit : LQAEntry → LQAEntry} (h : x ∈ (db.upsert f s fresh edit).entries) :
    (x ∈ db.entries ∧ ¬ x.IsAt f s) ∨
      (∃ e ∈ db.entries, e.IsAt f s ∧ x = edit e ∧ (db.find f s).isSome = true) ∨
        (db.find f s = none ∧ x = fresh) := by
  unfold upsert at h
  cases hf : db.find f s with
  | some found =>
    rw [hf] at h
    obtain ⟨e, he, rfl⟩ := List.mem_map.mp h
    by_cases hat : e.IsAt f s
    · rw [if_pos hat]
      exact Or.inr (Or.inl ⟨e, he, hat, rfl, rfl⟩)
    · rw [if_neg hat]
      exact Or.inl ⟨he, hat⟩
  | none =>
    rw [hf] at h
    obtain rfl | hx := mem_insert h
    · exact Or.inr (Or.inr ⟨rfl, rfl⟩)
    · have hx' := mem_evictOldestIfFull hx
      refine Or.inl ⟨hx', ?_⟩
      simpa using List.find?_eq_none.mp hf x hx'

theorem find_upsert_isSome {db : LQADatabase} {f : Nat} {s : Str} {fresh : LQAEntry}
    {edit : LQAEntry → LQAEntry} (hfresh : fresh.IsAt f s) (hedit : ∀ e, e.IsAt f s → (edit e).IsAt f s) :
    ((db.upsert f s fresh edit).find f s).isSome = true := by
  unfold upsert
  cases hf : db.find f s with
  | some found =>
    have hmem := List.mem_of_find?_eq_some hf
    have hat : found.IsAt f s := by simpa using List.find?_some hf
    unfold find
    rw [List.find?_isSome]
    refine ⟨edit found, List.mem_map.mpr ⟨found, hmem, if_pos hat⟩, ?_⟩
    simpa using hedit found hat
  | none =>
    unfold find insert
    rw [List.find?_isSome]
    exact ⟨fresh, by simp, by simpa using hfresh⟩

end LQADatabase

end OpenALE
