import OpenALE.Control.Channel
import OpenALE.Library.WeakOrder

/-!
# Ranking the channels for a station

Model of `rank_channels_for_station` and `rank_channels_for_call` (`src/LQA/lqa_analyzer.cpp`), with
the qualities of `src/LQA/lqa_database.cpp` that they read, over exact scores.

* `compute_solar_elevation` is not modelled: the context holds the present elevation.
* One call reads the clock once.
* `std::sort` is any `Sorter`. `std::stable_sort`, and the sort of `get_entries_for_station` by
  frequency, leave no choice: both are merge sort.
* Left out: the columns of a rank that no comparator reads.
-/

namespace OpenALE

open WeakOrder

namespace LQAAnalyzer

/-- `SelectionMode`. -/
inductive SelectionMode where
  | linkEstablishment
  | broadcast
  | listening
  deriving Repr, DecidableEq

/-- `LQA_QUALITY_MAX`. -/
def qualityMax : ℚ := 30

/-- `kBerLeadWeight`. -/
def berLead : ℚ := 7 / 10

/-- What an `LQAEntry` tells the analyzer. -/
structure RatedEntry where
  frequencyHz : Nat
  remoteStation : Str
  ber : ℚ := 0
  sinadDb : ℚ := 0
  totalWords : Int := 0
  score : ℚ := 0
  sampleCount : Nat := 0
  bilateralSinad : Nat := 31
  bilateralBer : Nat := 31
  lastFailedHandshakeMs : UInt32 := 0
  solarElevation : ℚ := 0
  sfi : ℚ := 0
  deriving DecidableEq

/-- `PropagationContext`, with the elevation of the sun in place of position and time. -/
structure PropagationContext where
  positionValid : Bool := false
  elevationNow : ℚ := 0
  sfiCurrent : ℚ := 0

/-- `ChannelRank`. -/
structure ChannelRank where
  frequencyHz : Nat
  score : ℚ
  fromQuality : ℚ := -1
  toQuality : ℚ := -1
  deriving DecidableEq

/-- The map of the database: its entries in any order, no two of one key. -/
structure EntryMap where
  entries : List RatedEntry
  keys : (entries.map fun e => (e.frequencyHz, e.remoteStation)).Nodup

end LQAAnalyzer

open LQAAnalyzer

/-- `LQAAnalyzer`: its configuration, its context and what its clock shows. -/
structure LQAAnalyzer where
  penaltyWindowMs : UInt32 := 300000
  failScoreFactor : ℚ := 1 / 2
  context : PropagationContext := {}
  nowMs : UInt32 := 0

namespace LQAAnalyzer

/-! ## Scores -/

/-- The mix of a BER and a SINAD quality; `-1` stands for none. -/
def mixExact (ber sinad : Option ℚ) : ℚ :=
  match ber, sinad with
  | some b, some s => berLead * b + (1 - berLead) * s
  | some b, none => b
  | none, some s => s
  | none, none => -1

namespace RatedEntry

/-- `from_direction_quality`. -/
def fromDirectionQuality (e : RatedEntry) : ℚ :=
  mixExact
    (if 0 < e.totalWords then some ((1 - min 1 (e.ber / 48)) * qualityMax) else none)
    (if 0 < e.sinadDb then some (min qualityMax e.sinadDb) else none)

/-- `to_direction_quality`. -/
def toDirectionQuality (e : RatedEntry) : ℚ :=
  mixExact
    (if e.bilateralBer ≤ 30 then some (qualityMax - e.bilateralBer) else none)
    (if e.bilateralSinad ≤ 30 then some (min qualityMax e.bilateralSinad) else none)

/-- `channel_to_score`. -/
def channelToScore (e : RatedEntry) : ℚ := e.toDirectionQuality

/-- `channel_from_score`. -/
def channelFromScore (e : RatedEntry) : ℚ :=
  if 0 ≤ e.fromDirectionQuality then e.fromDirectionQuality else e.score

/-- `bilateral_channel_score`: the score, and the qualities from and to the station. -/
def bilateralChannelScore (e : RatedEntry) : ℚ × ℚ × ℚ :=
  if e.toDirectionQuality < 0 then (e.score, -1, -1)
  else
    let fromQuality := if e.fromDirectionQuality < 0 then e.score else e.fromDirectionQuality
    ((fromQuality + e.toDirectionQuality) / 2, fromQuality, e.toDirectionQuality)

/-- The score by the mode, with the qualities that go into the rank. -/
def modeScore (e : RatedEntry) : SelectionMode → ℚ × ℚ × ℚ
  | .broadcast =>
    (if 0 ≤ e.channelToScore then e.channelToScore else e.score, -1, e.channelToScore)
  | .listening =>
    (if 0 ≤ e.channelFromScore then e.channelFromScore else e.score, e.channelFromScore, -1)
  | .linkEstablishment => e.bilateralChannelScore

end RatedEntry

variable (a : LQAAnalyzer)

/-- `compute_propagation_factor`. -/
def propagationFactor (e : RatedEntry) : ℚ :=
  if !a.context.positionValid then 1
  else if e.sampleCount = 0 ∨ e.solarElevation = 0 then 1
  else
    let solarSim := max 0 (1 - |a.context.elevationNow - e.solarElevation| / 45)
    let sfiSim :=
      if 0 < a.context.sfiCurrent ∧ 0 < e.sfi then max 0 (1 - |a.context.sfiCurrent - e.sfi| / 100)
      else 1
    1 / 2 + 1 / 2 * (solarSim * sfiSim)

/-- The factor for a handshake that failed of late. -/
def penaltyFactor (e : RatedEntry) : ℚ :=
  if 0 < e.lastFailedHandshakeMs ∧ a.nowMs - e.lastFailedHandshakeMs < a.penaltyWindowMs then
    a.failScoreFactor
  else 1

/-- The body of the loop of `rank_channels_for_station`. -/
def rankOf (mode : SelectionMode) (e : RatedEntry) : ChannelRank where
  frequencyHz := e.frequencyHz
  score := (e.modeScore mode).1 * a.propagationFactor e * a.penaltyFactor e
  fromQuality := (e.modeScore mode).2.1
  toQuality := (e.modeScore mode).2.2

/-! ## Ranking for a station -/

/-- The imbalance of a rank, 30 if one of the directions is not known. -/
def imbalance (r : ChannelRank) : ℚ :=
  if 0 ≤ r.fromQuality ∧ 0 ≤ r.toQuality then |r.fromQuality - r.toQuality| else 30

/-- The comparator of `rank_channels_for_station`. -/
def rankBefore (x y : ChannelRank) : Bool :=
  if |x.score - y.score| > 1 / 100 then decide (x.score > y.score)
  else decide (imbalance x < imbalance y)

/-- `get_entries_for_station`, without an age limit. -/
def entriesForStation (db : EntryMap) (station : Str) : List RatedEntry :=
  (db.entries.filter fun e => e.remoteStation = station).mergeSort
    fun x y => x.frequencyHz ≤ y.frequencyHz

/-- `rank_channels_for_station`. -/
def rankChannelsForStation (std : Sorter ChannelRank) (db : EntryMap) (station : Str)
    (mode : SelectionMode) : List ChannelRank :=
  std.sort rankBefore ((entriesForStation db station).map (a.rankOf mode))

/-! ## Ranking for a call -/

/-- `get_entries_for_channel`. -/
def entriesForChannel (db : EntryMap) (freq : Nat) : List RatedEntry :=
  db.entries.filter fun e => e.frequencyHz = freq

/-- `compute_channel_aggregate_score`. -/
def aggregateScore (db : EntryMap) (freq : Nat) : ℚ :=
  let scores := ((entriesForChannel db freq).filter fun e => e.remoteStation ≠ []).map
    fun e => e.bilateralChannelScore.1
  if 0 < scores.length then scores.sum / scores.length else 0

/-- `score_for`. -/
def scoreFor (ranked : List ChannelRank) (freq : Nat) : ℚ :=
  ((ranked.find? fun r => r.frequencyHz = freq).map (·.score)).getD (-1)

/-- The comparator of `rank_channels_for_call`. -/
def callBefore (db : EntryMap) (ranked : List ChannelRank) (x y : Channel) : Bool :=
  let sa := scoreFor ranked x.rxFrequencyHz
  let sb := scoreFor ranked y.rxFrequencyHz
  if sa ≥ 0 ∧ sb ≥ 0 then decide (sa > sb)
  else if sa ≥ 0 then true
  else if sb ≥ 0 then false
  else
    let aggA := aggregateScore db x.rxFrequencyHz
    let aggB := aggregateScore db y.rxFrequencyHz
    if aggA > 0 ∨ aggB > 0 then decide (aggA > aggB) else false

/-- `rank_channels_for_call`. -/
def rankChannelsForCall (std : Sorter ChannelRank) (db : EntryMap) (station : Str)
    (channels : List Channel) (mode : SelectionMode) : List Channel :=
  if channels = [] then channels
  else mergeBy (callBefore db (a.rankChannelsForStation std db station mode)) channels

/-! ## What the entries determine -/

variable {db db' : EntryMap} {station : Str}

theorem perm_filter_nodup (db : EntryMap) (station : Str) :
    ((db.entries.filter fun e => e.remoteStation = station).map (·.frequencyHz)).Nodup := by
  have hsub := (List.filter_sublist (p := fun e : RatedEntry => e.remoteStation = station)
    (l := db.entries)).map fun e => (e.frequencyHz, e.remoteStation)
  have hnodup := hsub.nodup db.keys
  refine List.Nodup.map_on ?_ (List.Nodup.of_map _ hnodup)
  intro x hx y hy hfreq
  have hx' : x.remoteStation = station := by simpa using (List.mem_filter.mp hx).2
  have hy' : y.remoteStation = station := by simpa using (List.mem_filter.mp hy).2
  exact List.inj_on_of_nodup_map hnodup hx hy (by rw [hfreq, hx', hy'])

theorem entriesForStation_perm (db : EntryMap) (station : Str) :
    (entriesForStation db station).Perm (db.entries.filter fun e => e.remoteStation = station) :=
  List.mergeSort_perm _ _

theorem entriesForStation_nodup (db : EntryMap) (station : Str) :
    ((entriesForStation db station).map (·.frequencyHz)).Nodup :=
  ((entriesForStation_perm db station).map _).nodup_iff.mpr (perm_filter_nodup db station)

theorem entriesForStation_sorted (db : EntryMap) (station : Str) :
    (entriesForStation db station).Pairwise fun x y => x.frequencyHz ≤ y.frequencyHz := by
  have hsorted := @List.pairwise_mergeSort RatedEntry
    (fun x y => x.frequencyHz ≤ y.frequencyHz)
    (fun x y z hxy hyz => by
      simp only [decide_eq_true_eq] at hxy hyz ⊢
      exact hxy.trans hyz)
    (fun x y => by
      simp only [Bool.or_eq_true, decide_eq_true_eq]
      exact le_total _ _)
    (db.entries.filter fun e => e.remoteStation = station)
  exact hsorted.imp fun h => by simpa using h

/-- The order in which the map holds its entries does not matter. -/
theorem entriesForStation_congr (h : db'.entries.Perm db.entries) (station : Str) :
    entriesForStation db' station = entriesForStation db station := by
  have hperm : (entriesForStation db' station).Perm (entriesForStation db station) :=
    (entriesForStation_perm db' station).trans
      ((h.filter _).trans (entriesForStation_perm db station).symm)
  refine hperm.eq_of_pairwise ?_ (entriesForStation_sorted db' station)
    (entriesForStation_sorted db station)
  intro x y hx hy hxy hyx
  exact List.inj_on_of_nodup_map (entriesForStation_nodup db station) (hperm.mem_iff.mp hx) hy
    (le_antisymm hxy hyx)

theorem rankChannelsForStation_congr (std : Sorter ChannelRank) (h : db'.entries.Perm db.entries)
    (station : Str) (mode : SelectionMode) :
    a.rankChannelsForStation std db' station mode = a.rankChannelsForStation std db station mode := by
  rw [rankChannelsForStation, entriesForStation_congr h, rankChannelsForStation]

theorem aggregateScore_congr (h : db'.entries.Perm db.entries) (freq : Nat) :
    aggregateScore db' freq = aggregateScore db freq := by
  have hperm := ((h.filter fun e => e.frequencyHz = freq).filter fun e => e.remoteStation ≠ []).map
    fun e => e.bilateralChannelScore.1
  unfold aggregateScore entriesForChannel
  dsimp only
  rw [hperm.length_eq, hperm.sum_eq]

theorem rankChannelsForCall_congr (std : Sorter ChannelRank) (h : db'.entries.Perm db.entries)
    (station : Str) (channels : List Channel) (mode : SelectionMode) :
    a.rankChannelsForCall std db' station channels mode =
      a.rankChannelsForCall std db station channels mode := by
  have hbefore : callBefore db' = callBefore db := by
    funext ranked x y
    simp only [callBefore, aggregateScore_congr h]
  simp only [rankChannelsForCall, rankChannelsForStation_congr a std h, hbefore]

/-! ## The comparators -/

theorem rankBefore_eq : rankBefore = tolerant (1 / 100) ChannelRank.score imbalance := rfl

/-- The tier of a channel, and its score in it. -/
def callKey (db : EntryMap) (ranked : List ChannelRank) (ch : Channel) : ℕ ×ₗ ℚ :=
  if 0 ≤ scoreFor ranked ch.rxFrequencyHz then toLex (1, scoreFor ranked ch.rxFrequencyHz)
  else toLex (0, max 0 (aggregateScore db ch.rxFrequencyHz))

theorem max_zero_lt_iff (x y : ℚ) : max 0 y < max 0 x ↔ (0 < x ∨ 0 < y) ∧ y < x := by
  rw [max_lt_iff, lt_max_iff, lt_max_iff]
  constructor
  · rintro ⟨h0 | h0, h1 | h1⟩
    · exact absurd h0 (lt_irrefl 0)
    · exact absurd h0 (lt_irrefl 0)
    · exact ⟨.inl h0, h1.trans h0⟩
    · exact ⟨.inl h0, h1⟩
  · rintro ⟨h0 | h0, h1⟩
    · exact ⟨.inr h0, .inr h1⟩
    · exact ⟨.inr (h0.trans h1), .inr h1⟩

theorem callBefore_eq (db : EntryMap) (ranked : List ChannelRank) :
    callBefore db ranked = byKey (callKey db ranked) := by
  funext x y
  simp only [callBefore, byKey, callKey, ge_iff_le, gt_iff_lt]
  by_cases hx : 0 ≤ scoreFor ranked x.rxFrequencyHz <;>
    by_cases hy : 0 ≤ scoreFor ranked y.rxFrequencyHz
  · simp [hx, hy, Prod.Lex.toLex_lt_toLex]
  · simp [hx, hy, Prod.Lex.toLex_lt_toLex]
  · simp [hx, hy, Prod.Lex.toLex_lt_toLex]
  · simp only [hx, hy, Prod.Lex.toLex_lt_toLex, false_and, if_false, lt_irrefl, true_and, false_or,
      max_zero_lt_iff]
    split
    · rename_i hpos
      simp [hpos]
    · rename_i hneg
      simp [hneg]

end LQAAnalyzer

end OpenALE
