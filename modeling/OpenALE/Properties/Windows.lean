import OpenALE.Library.Machine
import OpenALE.Lqa.Metrics

/-!
# What an LQA update averages over

A `Meter` is the metrics collector with the calls it has been given: those up to the last one that
filled the window, and those since.

Results:
* `unmixed_iff`: each update averages over calls with its own station and frequency exactly when no
  call up to the last one that fills the window differs from the others.
* `unmixed_fail`: nine words of one station and one of another.
-/

namespace OpenALE

/-- A call of `add_sample`. -/
structure SampleCall where
  sample : MetricsSample
  frequencyHz : UInt32
  remoteStation : Str

/-- The channel and the station a call is given with. -/
def SampleCall.link (c : SampleCall) : UInt32 × Str := (c.frequencyHz, c.remoteStation)

/-- The vote counts of some calls. -/
def votes (calls : List SampleCall) : BerAccumulator :=
  calls.foldl (fun b c => b.addWord c.sample.nonUnanimousCount c.sample.golayUncorrectable) {}

/-- The FEC errors of some calls. -/
def fecErrors (calls : List SampleCall) : Int := (calls.map (·.sample.fecErrorsCorrected)).sum

theorem votes_append_singleton (calls : List SampleCall) (c : SampleCall) :
    votes (calls ++ [c]) =
      (votes calls).addWord c.sample.nonUnanimousCount c.sample.golayUncorrectable := by
  unfold votes
  rw [List.foldl_append]
  rfl

theorem fecErrors_append_singleton (calls : List SampleCall) (c : SampleCall) :
    fecErrors (calls ++ [c]) = fecErrors calls + c.sample.fecErrorsCorrected := by
  simp [fecErrors]

/-- **The update of a window**: the averages over the calls of the window, votes, FEC errors and
words of the calls counted. -/
def windowUpdate (config : MetricsConfig) (window counted : List SampleCall) (frequencyHz : UInt32)
    (remoteStation : Str) : EntryUpdate :=
  let samples := window.map (·.sample)
  let avg := computeAverage samples
  { frequencyHz := frequencyHz
    remoteStation := remoteStation
    snrDb := avg.snrDb
    ber := (votes counted).berScore.toFloat32
    sinadDb := (sinadToLqaCode avg.sinadDb).toFloat32
    multipathScore :=
      if config.enableMultipath then detectMultipath config (samples.map (·.signalPowerDbm)) else 0
    noiseFloorDbm := measureNoiseFloor (samples.map (·.noisePowerDbm))
    fecErrors := fecErrors counted
    totalWords := counted.length
    timestampMs := avg.timestampMs }

/-- The collector with the calls it has been given. -/
structure Meter where
  metrics : LQAMetrics
  /-- The calls up to the last one that updated the database. -/
  filed : List SampleCall := []
  /-- The calls since. -/
  counted : List SampleCall := []

namespace Meter

/-- A collector as it is set up. -/
def init (database : Bool) (config : MetricsConfig) : Meter :=
  { metrics := LQAMetrics.init database config }

/-- The calls whose samples are in the window: the last one filed and those since. -/
def window (x : Meter) : List SampleCall := x.filed.getLast?.toList ++ x.counted

/-- `add_sample` and the log of it. -/
def step (x : Meter) (c : SampleCall) : Meter :=
  let r := x.metrics.addSample c.sample c.frequencyHz c.remoteStation
  match r.2 with
  | some _ => { metrics := r.1, filed := x.filed ++ (x.counted ++ [c]), counted := [] }
  | none => { metrics := r.1, filed := x.filed, counted := x.counted ++ [c] }

/-- An update that the call makes is the update of its window, and all the calls behind it were
given with its own station and frequency. -/
def Unmixed (x : Meter) (c : SampleCall) : Prop :=
  ∀ u, (x.metrics.addSample c.sample c.frequencyHz c.remoteStation).2 = some u →
    u = windowUpdate x.metrics.config (x.window ++ [c]) (x.counted ++ [c]) c.frequencyHz
      c.remoteStation ∧
    (∀ d ∈ x.window ++ [c], d.link = (u.frequencyHz, u.remoteStation)) ∧
    ∀ d ∈ x.counted ++ [c], d.link = (u.frequencyHz, u.remoteStation)

/-- Calls that fill the window for the first time. -/
def first (window : Nat) : Nat := max window 1

/-- Calls that fill it again, with one sample kept. -/
def stride (window : Nat) : Nat := max (window - 1) 1

/-- The number of the last of `n` calls that fills a window of the given size, 0 if none does. -/
def lastFill (window n : Nat) : Nat :=
  if n < first window then 0 else first window + (n - first window) / stride window * stride window

/-- **The invariant**: the window and the accumulators hold what the log says, and the database was
updated at each call that filled the window. -/
structure Traced (x : Meter) (config : MetricsConfig) : Prop where
  database : x.metrics.database = true
  settings : x.metrics.config = config
  samples : x.metrics.samples = x.window.map (·.sample)
  votes : x.metrics.berAcc = votes x.counted
  errors : x.metrics.accumulated.totalFecErrors = fecErrors x.counted
  words : x.metrics.accumulated.totalWords = x.counted.length
  fills : x.filed = [] ∨ ∃ k, x.filed.length =
    first config.averagingWindow.toNat + k * stride config.averagingWindow.toNat
  room : x.counted.length <
    if x.filed = [] then first config.averagingWindow.toNat else stride config.averagingWindow.toNat

variable {x : Meter} {c : SampleCall} {config : MetricsConfig}

theorem first_pos (window : Nat) : 0 < first window :=
  Nat.lt_of_lt_of_le Nat.zero_lt_one (Nat.le_max_right _ _)

theorem stride_pos (window : Nat) : 0 < stride window :=
  Nat.lt_of_lt_of_le Nat.zero_lt_one (Nat.le_max_right _ _)

theorem traced_init (config : MetricsConfig) : Traced (init true config) config where
  database := rfl
  settings := rfl
  samples := rfl
  votes := rfl
  errors := rfl
  words := rfl
  fills := Or.inl rfl
  room := first_pos _

/-- The call fills the window. -/
def Fills (x : Meter) (config : MetricsConfig) : Prop :=
  x.counted.length + 1 =
    if x.filed = [] then first config.averagingWindow.toNat else stride config.averagingWindow.toNat

/-- The window holds the calls counted, and one more once the database has been updated. -/
theorem length_window (x : Meter) :
    x.window.length = (if x.filed = [] then 0 else 1) + x.counted.length := by
  unfold window
  rw [List.length_append]
  by_cases h : x.filed = []
  · simp [h]
  · simp [h, List.getLast?_eq_some_getLast h]

theorem fills_iff (h : Traced x config) :
    x.Fills config ↔ x.metrics.config.averagingWindow.toNat ≤ x.metrics.samples.length + 1 := by
  have hc := h.room
  unfold Fills
  rw [h.settings, h.samples, List.length_map, length_window]
  by_cases hf : x.filed = []
  · simp only [hf, if_true] at hc ⊢
    unfold first at hc ⊢
    omega
  · simp only [hf, if_false] at hc ⊢
    unfold stride at hc ⊢
    omega

/-- What the code stores is the update of the window. -/
theorem entryUpdate_accumulate (h : Traced x config) :
    (x.metrics.accumulate c.sample c.frequencyHz c.remoteStation).entryUpdate c.frequencyHz
        c.remoteStation =
      windowUpdate config (x.window ++ [c]) (x.counted ++ [c]) c.frequencyHz c.remoteStation := by
  have hs : x.metrics.samples ++ [c.sample] = (x.window ++ [c]).map (·.sample) := by
    rw [h.samples, List.map_append]
    rfl
  have hw : x.metrics.accumulated.totalWords + 1 = ((x.counted ++ [c]).length : Int) := by
    rw [h.words, List.length_append]
    rfl
  unfold LQAMetrics.entryUpdate LQAMetrics.accumulate windowUpdate
  dsimp only
  rw [hs, hw, h.votes, h.errors, h.settings, votes_append_singleton, fecErrors_append_singleton]

/-- A call that fills the window updates the database with it and keeps its own sample. -/
theorem addSample_of_fills (h : Traced x config) (hf : x.Fills config) :
    x.metrics.addSample c.sample c.frequencyHz c.remoteStation =
      ({ x.metrics.accumulate c.sample c.frequencyHz c.remoteStation with
          samples := [c.sample]
          accumulated := { frequencyHz := c.frequencyHz, remoteStation := c.remoteStation }
          berAcc := {} },
        some (windowUpdate config (x.window ++ [c]) (x.counted ++ [c]) c.frequencyHz
          c.remoteStation)) := by
  rw [LQAMetrics.addSample_of_fills h.database ((fills_iff h).mp hf), entryUpdate_accumulate h]

theorem addSample_of_not_fills (h : Traced x config) (hf : ¬ x.Fills config) :
    x.metrics.addSample c.sample c.frequencyHz c.remoteStation =
      (x.metrics.accumulate c.sample c.frequencyHz c.remoteStation, none) :=
  LQAMetrics.addSample_of_not_fills (Nat.lt_of_not_le fun hle => hf ((fills_iff h).mpr hle))

theorem step_of_fills (h : Traced x config) (hf : x.Fills config) :
    x.step c =
      { metrics :=
          { x.metrics.accumulate c.sample c.frequencyHz c.remoteStation with
            samples := [c.sample]
            accumulated := { frequencyHz := c.frequencyHz, remoteStation := c.remoteStation }
            berAcc := {} }
        filed := x.filed ++ (x.counted ++ [c])
        counted := [] } := by
  unfold step
  rw [addSample_of_fills h hf]

theorem step_of_not_fills (h : Traced x config) (hf : ¬ x.Fills config) :
    x.step c =
      { metrics := x.metrics.accumulate c.sample c.frequencyHz c.remoteStation
        filed := x.filed
        counted := x.counted ++ [c] } := by
  unfold step
  rw [addSample_of_not_fills h hf]

/-- The filled windows after one more. -/
theorem length_filed (h : Traced x config) (hf : x.Fills config) :
    ∃ k, (x.filed ++ (x.counted ++ [c])).length =
      first config.averagingWindow.toNat + k * stride config.averagingWindow.toNat := by
  unfold Fills at hf
  rw [List.length_append, List.length_append, List.length_singleton, hf]
  obtain hnil | ⟨k, hk⟩ := h.fills
  · refine ⟨0, ?_⟩
    rw [hnil, if_pos rfl]
    simp
  · have hpos := first_pos config.averagingWindow.toNat
    have hne : x.filed ≠ [] := List.ne_nil_of_length_pos (by omega)
    refine ⟨k + 1, ?_⟩
    rw [if_neg hne, hk, Nat.add_assoc, Nat.succ_mul]

/-- **The step lemma.** -/
theorem traced_step (h : Traced x config) (c : SampleCall) : Traced (x.step c) config := by
  by_cases hf : x.Fills config
  · rw [step_of_fills h hf]
    have hne : x.filed ++ (x.counted ++ [c]) ≠ [] := by simp
    refine ⟨h.database, h.settings, ?_, rfl, rfl, rfl, Or.inr (length_filed h hf), ?_⟩
    · unfold window
      simp
    · rw [if_neg hne]
      exact stride_pos _
  · rw [step_of_not_fills h hf]
    refine ⟨h.database, h.settings, ?_, ?_, ?_, ?_, h.fills, ?_⟩
    · simp [LQAMetrics.accumulate, h.samples, window]
    · rw [votes_append_singleton, ← h.votes]
      rfl
    · rw [fecErrors_append_singleton, ← h.errors]
      rfl
    · rw [List.length_append, Nat.cast_add, ← h.words]
      rfl
    · have hroom := h.room
      unfold Fills at hf
      rw [List.length_append, List.length_singleton]
      exact Nat.lt_of_le_of_ne hroom hf

/-- The invariant along a run, with the log of it. -/
theorem run_traced (config : MetricsConfig) (calls : List SampleCall) :
    Traced (Machine.run step (init true config) calls) config := by
  have h : Machine.AllStates step (fun x => Traced x config) (init true config) calls :=
    @Machine.allStates_of_inv' _ _ step (fun x => Traced x config) _
      (fun _ c hx => traced_step hx c) (traced_init config) calls
  exact h.last

/-- The log is the list of calls. -/
theorem step_log (x : Meter) (c : SampleCall) :
    (x.step c).filed ++ (x.step c).counted = x.filed ++ x.counted ++ [c] := by
  unfold step
  dsimp only
  split
  · simp
  · simp

theorem run_log (x : Meter) (calls : List SampleCall) :
    (Machine.run step x calls).filed ++ (Machine.run step x calls).counted =
      x.filed ++ x.counted ++ calls := by
  induction calls generalizing x with
  | nil => simp
  | cons c cs ih =>
    rw [Machine.run_cons, ih, step_log]
    simp

/-- The number of the last call that filled the window. -/
theorem length_filed_eq (h : Traced x config) :
    x.filed.length =
      lastFill config.averagingWindow.toNat (x.filed.length + x.counted.length) := by
  have hroom := h.room
  have hpos := first_pos config.averagingWindow.toNat
  have hstride := stride_pos config.averagingWindow.toNat
  unfold lastFill
  obtain hnil | ⟨k, hk⟩ := h.fills
  · rw [hnil, if_pos rfl] at hroom
    rw [hnil, if_pos (by simpa using hroom)]
    rfl
  · have hne : x.filed ≠ [] := List.ne_nil_of_length_pos (by omega)
    rw [if_neg hne] at hroom
    rw [if_neg (by omega)]
    have hsub : x.filed.length + x.counted.length - first config.averagingWindow.toNat =
        x.counted.length + k * stride config.averagingWindow.toNat := by
      omega
    rw [hsub, Nat.add_mul_div_right _ _ hstride, Nat.div_eq_of_lt hroom, Nat.zero_add]
    exact hk

/-- The calls up to the last filled window. -/
theorem run_filed (config : MetricsConfig) (calls : List SampleCall) :
    (Machine.run step (init true config) calls).filed =
      calls.take (lastFill config.averagingWindow.toNat calls.length) := by
  have hlog := run_log (init true config) calls
  have hlen := length_filed_eq (run_traced config calls)
  have hcalls : (Machine.run step (init true config) calls).filed ++
      (Machine.run step (init true config) calls).counted = calls := by
    rw [hlog]
    rfl
  rw [← List.length_append, hcalls] at hlen
  rw [← hlen]
  exact List.prefix_iff_eq_take.mp ⟨_, hcalls⟩

/-! ## Mixing -/

/-- The calls are given with one channel and one station. -/
def Steady (calls : List SampleCall) : Prop := calls.Pairwise fun c d => c.link = d.link

instance (calls : List SampleCall) : Decidable (Steady calls) := by
  unfold Steady
  infer_instance

/-- A call is unmixed when it fills no window, or fills one of calls with its own link. -/
theorem unmixed_iff_of_traced (h : Traced x config) :
    Unmixed x c ↔ (x.Fills config → ∀ d ∈ x.window, d.link = c.link) := by
  unfold Unmixed
  by_cases hf : x.Fills config
  · rw [addSample_of_fills h hf]
    constructor
    · intro hu _ d hd
      obtain ⟨_, hw, _⟩ := hu _ rfl
      exact hw d (List.mem_append_left _ hd)
    · rintro hw u hu
      rw [← Option.some.inj hu]
      have hall : ∀ d ∈ x.window ++ [c], d.link = c.link := by
        intro d hd
        obtain hd | hd := List.mem_append.mp hd
        · exact hw hf d hd
        · rw [List.mem_singleton.mp hd]
      refine ⟨by rw [h.settings], hall, ?_⟩
      intro d hd
      refine hall d ?_
      unfold window
      rw [List.append_assoc]
      exact List.mem_append_right _ hd
  · rw [addSample_of_not_fills h hf]
    constructor
    · intro _ hf'
      exact absurd hf' hf
    · rintro _ u hu
      exact absurd hu (by simp)

/-- One more call filled in. -/
theorem steady_filed (h : Traced x config) (hf : x.Fills config) :
    Steady (x.step c).filed ↔ Steady x.filed ∧ ∀ d ∈ x.window, d.link = c.link := by
  rw [step_of_fills h hf]
  unfold Steady window
  dsimp only
  rw [List.pairwise_append]
  constructor
  · rintro ⟨hfiled, hcounted, hacross⟩
    refine ⟨hfiled, ?_⟩
    intro d hd
    obtain hd | hd := List.mem_append.mp hd
    · have hmem : d ∈ x.filed := by
        rw [Option.mem_toList] at hd
        exact List.mem_of_getLast? hd
      exact hacross d hmem c (by simp)
    · exact (List.pairwise_append.mp hcounted).2.2 d hd c (by simp)
  · rintro ⟨hfiled, hwindow⟩
    have hcounted : ∀ d ∈ x.counted ++ [c], d.link = c.link := by
      intro d hd
      obtain hd | hd := List.mem_append.mp hd
      · exact hwindow d (List.mem_append_right _ hd)
      · rw [List.mem_singleton.mp hd]
    refine ⟨hfiled, ?_, ?_⟩
    · exact List.pairwise_of_forall_mem_list fun d hd e he => by rw [hcounted d hd, hcounted e he]
    · intro d hd e he
      rw [hcounted e he]
      -- the last call filed stands for all of them
      obtain ⟨init, last, hlast⟩ := List.eq_nil_or_concat x.filed |>.resolve_left
        (List.ne_nil_of_mem hd)
      rw [hlast, List.concat_eq_append] at hd hfiled hwindow
      have hl : last.link = c.link := hwindow last (by simp)
      obtain hd | hd := List.mem_append.mp hd
      · rw [(List.pairwise_append.mp hfiled).2.2 d hd last (by simp), hl]
      · rw [List.mem_singleton.mp hd, hl]

/-- A run is unmixed when the calls filed are all alike. -/
theorem allSteps_unmixed_iff (config : MetricsConfig) (calls : List SampleCall) :
    Machine.AllSteps step Unmixed (init true config) calls ↔
      Steady (Machine.run step (init true config) calls).filed := by
  induction calls using List.reverseRecOn with
  | nil => exact ⟨fun _ => List.Pairwise.nil, fun _ => trivial⟩
  | append_singleton calls c ih =>
    have ht := run_traced config calls
    rw [Machine.allSteps_append, ih, Machine.run_append, Machine.run_cons, Machine.run_nil]
    have hsingle : Machine.AllSteps step Unmixed (Machine.run step (init true config) calls) [c] ↔
        Unmixed (Machine.run step (init true config) calls) c := and_iff_left trivial
    rw [hsingle, unmixed_iff_of_traced ht]
    by_cases hf : (Machine.run step (init true config) calls).Fills config
    · rw [steady_filed ht hf, imp_iff_right hf]
    · rw [step_of_not_fills ht hf]
      exact and_iff_left fun hf' => absurd hf' hf

/-- A collector without a database updates nothing. -/
theorem allSteps_unmixed_of_no_database {x : Meter} (hdb : x.metrics.database = false)
    (calls : List SampleCall) : Machine.AllSteps step Unmixed x calls := by
  induction calls generalizing x with
  | nil => trivial
  | cons c cs ih =>
    obtain ⟨hnone, hdb'⟩ := @LQAMetrics.addSample_of_no_database x.metrics c.sample
      c.frequencyHz c.remoteStation hdb
    refine ⟨?_, ih ?_⟩
    · intro u hu
      rw [hnone] at hu
      exact absurd hu (by simp)
    · unfold step
      dsimp only
      rw [hnone]
      exact hdb'

/-- **LQA measurements are not mixed exactly when there is nothing to mix.** In every run of calls,
each update of the database averages over calls with its own station and frequency if and only if
the calls up to the last one that fills the window all have one station and one frequency: the last
sample of a window stays in the next one, so a change of either gets into an update sooner or
later. -/
theorem unmixed_iff (database : Bool) (config : MetricsConfig) (calls : List SampleCall) :
    Machine.AllSteps step Unmixed (init database config) calls ↔
      (database = true →
        Steady (calls.take (lastFill config.averagingWindow.toNat calls.length))) := by
  cases database with
  | false => exact ⟨fun _ h => absurd h (by simp),
      fun _ => allSteps_unmixed_of_no_database rfl calls⟩
  | true => rw [allSteps_unmixed_iff, run_filed, imp_iff_right rfl]

/-- A word with perfect votes. -/
private def word (timestampMs : UInt32) : MetricsSample :=
  { sinadDb := 20, timestampMs := timestampMs, decodeSuccess := true }

/-- Nine words of one station and one of another fill the default window. -/
private def changeover : List SampleCall :=
  (List.range 9).map (fun i => ⟨word (392 * i).toUInt32, 7073000, ['A', 'B', 'C']⟩) ++
    [⟨word 4000, 7073000, ['D', 'E', 'F']⟩]

theorem unmixed_fail : ¬ Machine.AllSteps step Unmixed (init true {}) changeover := by
  rw [allSteps_unmixed_iff, run_filed]
  decide

end Meter

end OpenALE
