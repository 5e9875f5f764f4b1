import OpenALE.Word.Basic

/-!
# The LQA metrics collector

Model of `LQAMetrics::add_sample`, `update_database` and `compute_average`
(`src/LQA/lqa_metrics.cpp`) and of `BerAccumulator` (`include/LQA/lqa_metrics.h`).

`float` is `Float32`, `int` is `Int`. The database is known by whether one is attached: what
`update_entry_extended` is called with is returned.

Results:
* `addSample_of_fills`, `addSample_of_not_fills`: one call, whether the window is full or not.
-/

namespace OpenALE

/-- `MetricsSample`. -/
structure MetricsSample where
  snrDb : Float32 := 0
  sinadDb : Float32 := 0
  signalPowerDbm : Float32 := -120
  noisePowerDbm : Float32 := -120
  fecErrorsCorrected : Int := 0
  decodeSuccess : Bool := false
  multipathDelayMs : Float32 := 0
  timestampMs : UInt32 := 0
  nonUnanimousCount : UInt8 := 0
  golayUncorrectable : Bool := false

/-- `BerAccumulator`. -/
structure BerAccumulator where
  runningSum : UInt32 := 0
  wordCount : UInt32 := 0
  deriving Repr, DecidableEq

namespace BerAccumulator

/-- `add_word`. -/
def addWord (b : BerAccumulator) (nonUnanimousCount : UInt8) (golayUncorrectable : Bool) :
    BerAccumulator :=
  { runningSum := b.runningSum + if golayUncorrectable then 48 else nonUnanimousCount.toUInt32
    wordCount := b.wordCount + 1 }

/-- `ber_score`. -/
def berScore (b : BerAccumulator) : UInt8 :=
  if b.wordCount = 0 then 0
  else
    let score := b.runningSum / b.wordCount
    if score > 48 then 48 else score.toUInt8

end BerAccumulator

/-- `MetricsConfig`, without `enable_sinad`, which nothing reads. -/
structure MetricsConfig where
  enableMultipath : Bool := true
  averagingWindow : UInt32 := 10
  multipathThresholdDb : Float32 := 3

/-- `LQAMetrics::NoiseFloorSample`. -/
structure NoiseFloorSample where
  timestampMs : UInt32
  noiseDbm : Float32

/-- `LQAMetrics::AccumulatedMetrics`, the members that are read or written. -/
structure AccumulatedMetrics where
  frequencyHz : UInt32 := 0
  remoteStation : Str := []
  totalFecErrors : Int := 0
  totalWords : Int := 0

/-- The arguments of `LQADatabase::update_entry_extended`. -/
structure EntryUpdate where
  frequencyHz : UInt32
  remoteStation : Str
  snrDb : Float32
  ber : Float32
  sinadDb : Float32
  multipathScore : Float32
  noiseFloorDbm : Float32
  fecErrors : Int
  totalWords : Int
  timestampMs : UInt32

/-- `LQAMetrics`. -/
structure LQAMetrics where
  /-- `database_` is set. -/
  database : Bool := false
  config : MetricsConfig := {}
  samples : List MetricsSample := []
  berAcc : BerAccumulator := {}
  noiseWindow : List NoiseFloorSample := []
  accumulated : AccumulatedMetrics := {}

/-! ## Averages -/

/-- The running sum of a loop over the samples, from `0.0f`. -/
def sumFloats (xs : List Float32) : Float32 := xs.foldl (· + ·) 0

/-- `compute_average`. -/
def computeAverage (samples : List MetricsSample) : MetricsSample :=
  match samples.getLast? with
  | none => {}
  | some last =>
    let n := Float32.ofNat samples.length
    { snrDb := sumFloats (samples.map (·.snrDb)) / n
      sinadDb := sumFloats (samples.map (·.sinadDb)) / n
      signalPowerDbm := sumFloats (samples.map (·.signalPowerDbm)) / n
      noisePowerDbm := sumFloats (samples.map (·.noisePowerDbm)) / n
      multipathDelayMs := sumFloats (samples.map (·.multipathDelayMs)) / n
      timestampMs := last.timestampMs }

/-- `sinad_to_lqa_code`. -/
def sinadToLqaCode (sinadDb : Float32) : UInt8 :=
  if sinadDb ≤ 0 then 0 else if 30 ≤ sinadDb then 30 else sinadDb.round.toUInt8

/-- `std::min(1.0f, std::max(0.0f, x))`. -/
def clampUnit (x : Float32) : Float32 :=
  let y := if 0 < x then x else 0
  if y < 1 then y else 1

/-- `detect_multipath`. -/
def detectMultipath (config : MetricsConfig) (samples : List Float32) : Float32 :=
  if samples.length < 3 then 0
  else
    let n := Float32.ofNat samples.length
    let mean := sumFloats samples / n
    let variance := sumFloats (samples.map fun s => (s - mean) * (s - mean)) / n
    clampUnit (variance.sqrt / config.multipathThresholdDb)

/-- `measure_noise_floor`: the first smallest element. -/
def measureNoiseFloor : List Float32 → Float32
  | [] => -120
  | s :: samples => samples.foldl (fun low x => if x < low then x else low) s

namespace LQAMetrics

/-- `set_database` and `set_config` on a new collector. -/
def init (database : Bool) (config : MetricsConfig) : LQAMetrics :=
  { database := database, config := config }

/-- What `update_database` stores, of the samples in the window and the accumulators. -/
def entryUpdate (m : LQAMetrics) (frequencyHz : UInt32) (remoteStation : Str) : EntryUpdate :=
  let avg := computeAverage m.samples
  { frequencyHz := frequencyHz
    remoteStation := remoteStation
    snrDb := avg.snrDb
    ber := m.berAcc.berScore.toFloat32
    sinadDb := (sinadToLqaCode avg.sinadDb).toFloat32
    multipathScore :=
      if m.config.enableMultipath then
        detectMultipath m.config (m.samples.map (·.signalPowerDbm))
      else 0
    noiseFloorDbm := measureNoiseFloor (m.samples.map (·.noisePowerDbm))
    fecErrors := m.accumulated.totalFecErrors
    totalWords := m.accumulated.totalWords
    timestampMs := avg.timestampMs }

/-- `update_database`. -/
def updateDatabase (m : LQAMetrics) (frequencyHz : UInt32) (remoteStation : Str) :
    LQAMetrics × Option EntryUpdate :=
  if !m.database || m.samples.isEmpty then (m, none)
  else
    ({ m with
        accumulated := { m.accumulated with totalFecErrors := 0, totalWords := 0 }
        berAcc := {} }, some (m.entryUpdate frequencyHz remoteStation))

/-- The noise window of `add_sample`: readings above -120 dBm of the last 3600 s. -/
def addNoise (window : List NoiseFloorSample) (sample : MetricsSample) : List NoiseFloorSample :=
  if -120 < sample.noisePowerDbm then
    let window := window ++ [{ timestampMs := sample.timestampMs, noiseDbm := sample.noisePowerDbm }]
    if sample.timestampMs > 3600000 then
      window.filter fun s => !(s.timestampMs < sample.timestampMs - 3600000)
    else window
  else window

/-- `add_sample` up to the test of the window. -/
def accumulate (m : LQAMetrics) (sample : MetricsSample) (frequencyHz : UInt32)
    (remoteStation : Str) : LQAMetrics :=
  { m with
    noiseWindow := addNoise m.noiseWindow sample
    berAcc := m.berAcc.addWord sample.nonUnanimousCount sample.golayUncorrectable
    samples := m.samples ++ [sample]
    accumulated :=
      { frequencyHz := frequencyHz
        remoteStation := remoteStation
        totalFecErrors := m.accumulated.totalFecErrors + sample.fecErrorsCorrected
        totalWords := m.accumulated.totalWords + 1 } }

/-- `add_sample`. -/
def addSample (m : LQAMetrics) (sample : MetricsSample) (frequencyHz : UInt32)
    (remoteStation : Str) : LQAMetrics × Option EntryUpdate :=
  let m := m.accumulate sample frequencyHz remoteStation
  if m.config.averagingWindow.toNat ≤ m.samples.length then
    let r := m.updateDatabase frequencyHz remoteStation
    -- the last sample stays for continuity
    ({ r.1 with samples := r.1.samples.getLast?.toList }, r.2)
  else (m, none)

variable {m : LQAMetrics} {sample : MetricsSample} {f : UInt32} {s : Str}

/-- A call that fills the window of a collector with a database. -/
theorem addSample_of_fills (hdb : m.database = true)
    (h : m.config.averagingWindow.toNat ≤ m.samples.length + 1) :
    m.addSample sample f s =
      ({ m.accumulate sample f s with
          samples := [sample]
          accumulated := { frequencyHz := f, remoteStation := s }
          berAcc := {} }, some ((m.accumulate sample f s).entryUpdate f s)) := by
  have hlen : (m.accumulate sample f s).config.averagingWindow.toNat ≤
      (m.accumulate sample f s).samples.length := by
    simpa [accumulate] using h
  have hdb' : (m.accumulate sample f s).database = true := hdb
  have hne : (m.accumulate sample f s).samples.isEmpty = false := by simp [accumulate]
  unfold addSample
  dsimp only
  rw [if_pos hlen]
  unfold updateDatabase
  rw [hdb', hne]
  simp [accumulate]

/-- A call that does not fill the window. -/
theorem addSample_of_not_fills (h : m.samples.length + 1 < m.config.averagingWindow.toNat) :
    m.addSample sample f s = (m.accumulate sample f s, none) := by
  have hlen : ¬ (m.accumulate sample f s).config.averagingWindow.toNat ≤
      (m.accumulate sample f s).samples.length := by
    simpa [accumulate] using h
  unfold addSample
  dsimp only
  rw [if_neg hlen]

/-- Without a database nothing is stored, and none gets attached. -/
theorem addSample_of_no_database (hdb : m.database = false) :
    (m.addSample sample f s).2 = none ∧ (m.addSample sample f s).1.database = false := by
  have hdb' : (m.accumulate sample f s).database = false := hdb
  unfold addSample
  dsimp only
  split
  · unfold updateDatabase
    rw [hdb']
    exact ⟨rfl, hdb'⟩
  · exact ⟨rfl, hdb'⟩

end LQAMetrics

end OpenALE
