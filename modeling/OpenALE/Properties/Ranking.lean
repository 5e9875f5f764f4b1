import OpenALE.Lqa.Ranking

/-!
# Ranking as an order

`rank_channels_for_station` takes scores within 0.01 for equal and goes by the balance then. That is
no order of a chain of close scores that leads down by more: `consistent_iff` says which sets of
entries have none. The comparator of `rank_channels_for_call` goes by a key (`callBefore_eq`).
-/

namespace OpenALE

open WeakOrder

namespace LQAAnalyzer

variable {a : LQAAnalyzer} {std : Sorter ChannelRank} {db : EntryMap} {station : Str}
  {channels : List Channel} {mode : SelectionMode}

/-- The ranks that are sorted, in the order of the database. -/
def ranksOf (a : LQAAnalyzer) (db : EntryMap) (station : Str) (mode : SelectionMode) :
    List ChannelRank :=
  (db.entries.filter fun e => e.remoteStation = station).map (a.rankOf mode)

/-- There is an entry of the station for this channel, with a score. -/
def HasData (a : LQAAnalyzer) (db : EntryMap) (station : Str) (mode : SelectionMode)
    (ch : Channel) : Prop :=
  ∃ e ∈ db.entries, e.remoteStation = station ∧ e.frequencyHz = ch.rxFrequencyHz ∧
    0 ≤ (a.rankOf mode e).score

/-- The ranking for a station sorts by an order: it permutes the ranks and puts none behind one that
has to precede it, however the entries are stored. -/
structure StationConsistent (a : LQAAnalyzer) (std : Sorter ChannelRank) (db : EntryMap)
    (station : Str) (mode : SelectionMode) : Prop where
  strictWeak : StrictWeakOn rankBefore (a.ranksOf db station mode)
  perm : (a.rankChannelsForStation std db station mode).Perm (a.ranksOf db station mode)
  ordered : (a.rankChannelsForStation std db station mode).Pairwise fun x y => rankBefore y x = false
  stored : ∀ db' : EntryMap, db'.entries.Perm db.entries →
    a.rankChannelsForStation std db' station mode = a.rankChannelsForStation std db station mode

/-- The ranking for a call sorts by an order, and puts the channels with data of the station before
those without. -/
structure CallConsistent (a : LQAAnalyzer) (std : Sorter ChannelRank) (db : EntryMap)
    (station : Str) (channels : List Channel) (mode : SelectionMode) : Prop where
  strictWeak :
    StrictWeakOn (callBefore db (a.rankChannelsForStation std db station mode)) channels
  perm : (a.rankChannelsForCall std db station channels mode).Perm channels
  ordered : (a.rankChannelsForCall std db station channels mode).Pairwise fun x y =>
    callBefore db (a.rankChannelsForStation std db station mode) y x = false
  tiers : (a.rankChannelsForCall std db station channels mode).Pairwise fun x y =>
    a.HasData db station mode y → a.HasData db station mode x
  stored : ∀ db' : EntryMap, db'.entries.Perm db.entries →
    a.rankChannelsForCall std db' station channels mode =
      a.rankChannelsForCall std db station channels mode

/-- No three entries of the station have scores that step down within the tolerance, but by more in
all, while the balance gets no worse. -/
def NoChain (a : LQAAnalyzer) (db : EntryMap) (station : Str) (mode : SelectionMode) : Prop :=
  ∀ x ∈ a.ranksOf db station mode, ∀ y ∈ a.ranksOf db station mode,
    ∀ z ∈ a.ranksOf db station mode,
      |x.score - y.score| ≤ 1 / 100 → |y.score - z.score| ≤ 1 / 100 →
        imbalance y ≤ imbalance x → imbalance z ≤ imbalance y → x.score ≤ z.score + 1 / 100

theorem strictWeakOn_ranks :
    StrictWeakOn rankBefore (a.ranksOf db station mode) ↔ a.NoChain db station mode := by
  rw [rankBefore_eq, tolerant_iff (by norm_num)]
  rfl

/-! ## For a station -/

theorem sorted_ranks_perm : ((entriesForStation db station).map (a.rankOf mode)).Perm
    (a.ranksOf db station mode) :=
  (entriesForStation_perm db station).map _

theorem strictWeakOn_sorted (h : StrictWeakOn rankBefore (a.ranksOf db station mode)) :
    StrictWeakOn rankBefore ((entriesForStation db station).map (a.rankOf mode)) :=
  h.of_subset sorted_ranks_perm.subset

theorem stationConsistent (h : StrictWeakOn rankBefore (a.ranksOf db station mode)) :
    a.StationConsistent std db station mode where
  strictWeak := h
  perm := (std.perm (strictWeakOn_sorted h)).trans sorted_ranks_perm
  ordered := std.ordered (strictWeakOn_sorted h)
  stored _ hdb := rankChannelsForStation_congr a std hdb station mode

/-! ## For a call -/

theorem rankChannelsForCall_eq : a.rankChannelsForCall std db station channels mode =
    mergeBy (callBefore db (a.rankChannelsForStation std db station mode)) channels := by
  unfold rankChannelsForCall
  split
  · rename_i hnil
    rw [hnil, mergeBy_nil]
  · rfl

theorem ranksOf_nodup : ((a.ranksOf db station mode).map (·.frequencyHz)).Nodup := by
  rw [ranksOf, List.map_map]
  exact perm_filter_nodup db station

theorem scoreFor_of_mem {ranked : List ChannelRank} (hnodup : (ranked.map (·.frequencyHz)).Nodup)
    {r : ChannelRank} (hr : r ∈ ranked) : scoreFor ranked r.frequencyHz = r.score := by
  have hsome : (ranked.find? fun x => x.frequencyHz = r.frequencyHz) = some r := by
    cases hfind : ranked.find? fun x => x.frequencyHz = r.frequencyHz with
    | none =>
      rw [List.find?_eq_none] at hfind
      exact absurd (hfind r hr) (by simp)
    | some x =>
      have hfreq : x.frequencyHz = r.frequencyHz := by simpa using List.find?_some hfind
      rw [List.inj_on_of_nodup_map hnodup (List.mem_of_find?_eq_some hfind) hr hfreq]
  rw [scoreFor, hsome]
  rfl

theorem exists_of_scoreFor {ranked : List ChannelRank} {freq : Nat} (h : 0 ≤ scoreFor ranked freq) :
    ∃ r ∈ ranked, r.frequencyHz = freq := by
  cases hfind : ranked.find? fun x => x.frequencyHz = freq with
  | none =>
    rw [scoreFor, hfind] at h
    exact absurd h (by decide)
  | some r => exact ⟨r, List.mem_of_find?_eq_some hfind, by simpa using List.find?_some hfind⟩

theorem scoreFor_nonneg_iff (h : a.StationConsistent std db station mode) (ch : Channel) :
    0 ≤ scoreFor (a.rankChannelsForStation std db station mode) ch.rxFrequencyHz ↔
      a.HasData db station mode ch := by
  have hnodup : ((a.rankChannelsForStation std db station mode).map (·.frequencyHz)).Nodup :=
    (h.perm.map _).nodup_iff.mpr ranksOf_nodup
  constructor
  · intro hscore
    obtain ⟨r, hr, hfreq⟩ := exists_of_scoreFor hscore
    rw [← hfreq, scoreFor_of_mem hnodup hr] at hscore
    obtain ⟨e, he, rfl⟩ := List.mem_map.mp (h.perm.mem_iff.mp hr)
    obtain ⟨hmem, hstation⟩ := List.mem_filter.mp he
    exact ⟨e, hmem, by simpa using hstation, hfreq, hscore⟩
  · rintro ⟨e, hmem, hstation, hfreq, hscore⟩
    have hr : a.rankOf mode e ∈ a.rankChannelsForStation std db station mode :=
      h.perm.mem_iff.mpr (List.mem_map_of_mem (List.mem_filter.mpr ⟨hmem, by simpa using hstation⟩))
    have hfor := scoreFor_of_mem hnodup hr
    rw [← hfreq, show e.frequencyHz = (a.rankOf mode e).frequencyHz from rfl, hfor]
    exact hscore

theorem callConsistent (h : a.StationConsistent std db station mode) :
    a.CallConsistent std db station channels mode := by
  have hweak l : StrictWeakOn
      (callBefore db (a.rankChannelsForStation std db station mode)) l := by
    rw [callBefore_eq]
    exact byKey_strictWeakOn _ l
  have hasymm : ∀ x y : Channel,
      callBefore db (a.rankChannelsForStation std db station mode) x y = true →
        callBefore db (a.rankChannelsForStation std db station mode) y x = false := by
    rw [callBefore_eq]
    exact byKey_asymm _
  have hordered : (a.rankChannelsForCall std db station channels mode).Pairwise fun x y =>
      callBefore db (a.rankChannelsForStation std db station mode) y x = false := by
    rw [rankChannelsForCall_eq]
    exact mergeBy_ordered hasymm hweak channels
  refine ⟨hweak channels, ?_, hordered, ?_,
    fun _ hdb => rankChannelsForCall_congr a std hdb station channels mode⟩
  · rw [rankChannelsForCall_eq]
    exact mergeBy_perm _ channels
  · refine hordered.imp fun {x y} hxy hy => ?_
    -- a channel with data precedes one without
    by_contra hx
    rw [← scoreFor_nonneg_iff h] at hx hy
    simp only [callBefore, ge_iff_le] at hxy
    simp [hx, hy] at hxy

/-- Three channels of one station, known by their composite scores alone. -/
def closeScores : EntryMap where
  entries :=
    [{ frequencyHz := 7102000, remoteStation := ['A', 'B', 'C'], score := 20 },
      { frequencyHz := 10145500, remoteStation := ['A', 'B', 'C'], score := 3999 / 200 },
      { frequencyHz := 14109000, remoteStation := ['A', 'B', 'C'], score := 3997 / 200 }]
  keys := by decide

end LQAAnalyzer

end OpenALE
