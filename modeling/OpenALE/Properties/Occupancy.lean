import OpenALE.Modem.ChannelOccupancy

/-!
# How long a channel can read busy

The floor closes half of what is left of a step with each block of the settling window, and
`FLOOR_DRIFT_DB` with each hot block after it (`gapAfter`). A level stops being hot when the gap is
within the margin, and never becomes hot again (`cold_block`).

* `releases_iff`: the bound of the header holds of a step exactly if the gap is small (`StepFits`).
* `forgets_iff`: two detectors are alike after `reset` exactly if the floors they keep for the
  settling window are.
-/

namespace OpenALE

namespace ChannelOccupancyDetector

variable {d : ChannelOccupancyDetector} {x : ℚ≥0} {n : Nat}

/-- The detector after `n` blocks of one level. -/
def hears (d : ChannelOccupancyDetector) (x : ℚ≥0) : Nat → ChannelOccupancyDetector
  | 0 => d
  | n + 1 => (hears d x n).block x

theorem hears_add (m : Nat) : d.hears x (m + n) = (d.hears x m).hears x n := by
  induction n with
  | zero => rfl
  | succ n ih => rw [← Nat.add_assoc, hears, ih, hears]

theorem Listening.hears (h : d.Listening) (x : ℚ≥0) (n : Nat) : (d.hears x n).Listening := by
  induction n with
  | zero => exact h
  | succ n ih => exact ih.block x

theorem Listening.marginDb_hears (h : d.Listening) (x : ℚ≥0) (n : Nat) :
    (d.hears x n).marginDb = d.marginDb := by
  induction n with
  | zero => rfl
  | succ n ih => rw [ChannelOccupancyDetector.hears, (h.hears x n).marginDb_block, ih]

/-- How far the level is above the floor. -/
def gap (d : ChannelOccupancyDetector) (x : ℚ≥0) : ℚ := x - d.floorDb

theorem isHot_iff : d.isHot x = true ↔ d.marginDb < d.gap x := by
  simp only [isHot, gap, decide_eq_true_eq, gt_iff_lt]
  constructor <;> intro h <;> linarith

theorem isHot_eq_false (hg : d.gap x ≤ d.marginDb) : d.isHot x = false := by
  rw [Bool.eq_false_iff, ne_eq, isHot_iff]
  exact not_lt.mpr hg

/-! ## A level that is not hot -/

theorem cold_block (h : d.Listening) (hg : d.gap x ≤ d.marginDb) :
    (d.block x).gap x ≤ (d.block x).marginDb := by
  have hm := h.sound.margin
  have hcold := isHot_eq_false hg
  rw [h.marginDb_block, gap, h.floorDb_block]
  simp only [gap] at hg
  unfold nextFloor alphaRelearn alphaDown alphaUp floorDriftDb
  split_ifs with hr hlow hhot
  · have hle := le_max_right d.floorBeforeRelearnDb (d.floorDb + 1 / 2 * ((x : ℚ) - d.floorDb))
    linarith
  · linarith
  · linarith
  · rw [hcold] at hhot
    exact absurd rfl hhot

theorem cold_hears (h : d.Listening) (hg : d.gap x ≤ d.marginDb) (n : Nat) :
    (d.hears x n).gap x ≤ (d.hears x n).marginDb := by
  induction n with
  | zero => exact hg
  | succ n ih => exact cold_block (h.hears x n) ih

/-- Three blocks that are not hot outvote what the ring held. -/
theorem cold_quiet (h : d.Listening) (hg : d.gap x ≤ d.marginDb) (hn : 3 ≤ n) :
    (d.hears x n).busy = false := by
  obtain ⟨k, rfl⟩ : ∃ k, n = k + 1 + 1 + 1 := ⟨n - 3, by omega⟩
  have hcold i : (d.hears x i).isHot x = false := isHot_eq_false (cold_hears h hg i)
  have hring i : (d.hears x (i + 1)).hotRing = pushHot (d.hears x i).hotRing false := by
    rw [hears, (h.hears x i).hotRing_block, hcold]
  rw [hears, (h.hears x (k + 1 + 1)).busy_block, ← hears, hring, hring, hring, vote_pushHot_cold]

/-! ## A level that is hot -/

/-- What is left of a gap of `g` after `n` hot blocks, the first `r` of them in the settling
window. -/
def gapAfter (r : Nat) (g : ℚ) (n : Nat) : ℚ := g / 2 ^ min n r - (n - r : Nat) * floorDriftDb

theorem hot_block (h : d.Listening) (hg : d.marginDb < d.gap x) :
    (d.block x).gap x =
      if 0 < d.relearnBlocks then d.gap x / 2 else d.gap x - floorDriftDb := by
  have hm := h.sound.margin
  have hhot := isHot_iff.mpr hg
  rw [gap, h.floorDb_block]
  simp only [gap] at hg ⊢
  unfold nextFloor
  split_ifs with hr hlow hcold
  · have hanchor := h.sound.anchored hr
    unfold alphaRelearn
    rw [max_eq_right (by linarith)]
    ring
  · linarith
  · rw [hhot] at hcold
    exact absurd hcold (by decide)
  · ring

/-- While the level is hot, the gap is the closed form. -/
theorem hot_hears (h : d.Listening)
    (hhot : ∀ i < n, d.marginDb < gapAfter d.relearnBlocks (d.gap x) i) :
    (d.hears x n).gap x = gapAfter d.relearnBlocks (d.gap x) n ∧
      (d.hears x n).relearnBlocks = d.relearnBlocks - n := by
  induction n with
  | zero => simp [hears, gapAfter]
  | succ n ih =>
    obtain ⟨hgap, hrelearn⟩ := ih fun i hi => hhot i (by omega)
    have hl := h.hears x n
    have hnow : (d.hears x n).marginDb < (d.hears x n).gap x := by
      rw [h.marginDb_hears, hgap]
      exact hhot n (by omega)
    rw [hears, hot_block hl hnow, hl.relearnBlocks_block, hrelearn, hgap]
    refine ⟨?_, by omega⟩
    by_cases hr : n < d.relearnBlocks
    · have hmin : min n d.relearnBlocks = n := by omega
      have hmin' : min (n + 1) d.relearnBlocks = n + 1 := by omega
      have hsub : n - d.relearnBlocks = 0 := by omega
      have hsub' : n + 1 - d.relearnBlocks = 0 := by omega
      rw [if_pos (by omega), gapAfter, gapAfter, hmin, hmin', hsub, hsub', pow_succ]
      push_cast
      ring
    · have hmin : min n d.relearnBlocks = d.relearnBlocks := by omega
      have hmin' : min (n + 1) d.relearnBlocks = d.relearnBlocks := by omega
      have hsub' : n + 1 - d.relearnBlocks = n - d.relearnBlocks + 1 := by omega
      rw [if_neg (by omega), gapAfter, gapAfter, hmin, hmin', hsub']
      push_cast
      ring

/-- The number of blocks the floor needs to come within the margin of a level. -/
def hotBlocks (d : ChannelOccupancyDetector) (x : ℚ≥0) : Nat :=
  d.relearnBlocks + ⌈(d.gap x / 2 ^ d.relearnBlocks - d.marginDb) / floorDriftDb⌉₊

theorem floorDriftDb_pos : 0 < floorDriftDb := by norm_num [floorDriftDb]

theorem gapAfter_hotBlocks : gapAfter d.relearnBlocks (d.gap x) (d.hotBlocks x) ≤ d.marginDb := by
  have hle := Nat.le_ceil ((d.gap x / 2 ^ d.relearnBlocks - d.marginDb) / floorDriftDb)
  rw [div_le_iff₀ floorDriftDb_pos] at hle
  rw [gapAfter, hotBlocks, min_eq_right (Nat.le_add_right _ _), Nat.add_sub_cancel_left]
  linarith

/-- The level is hot up to there, if the settling window alone does not close the gap. -/
theorem hot_gapAfter (hm : 0 ≤ d.marginDb) (hg : d.marginDb < d.gap x / 2 ^ d.relearnBlocks)
    (hn : n < d.hotBlocks x) : d.marginDb < gapAfter d.relearnBlocks (d.gap x) n := by
  have hpow : (0 : ℚ) < 2 ^ d.relearnBlocks := by positivity
  have hpos : 0 < d.gap x := by
    have h0 : 0 < d.gap x / 2 ^ d.relearnBlocks := lt_of_le_of_lt hm hg
    rwa [div_pos_iff_of_pos_right hpow] at h0
  unfold gapAfter
  by_cases hr : n ≤ d.relearnBlocks
  · have hle : d.gap x / 2 ^ d.relearnBlocks ≤ d.gap x / 2 ^ n := by
      gcongr
      norm_num
    rw [min_eq_left hr, Nat.sub_eq_zero_of_le hr]
    push_cast
    linarith
  · have hlt : n - d.relearnBlocks <
        ⌈(d.gap x / 2 ^ d.relearnBlocks - d.marginDb) / floorDriftDb⌉₊ := by
      unfold hotBlocks at hn
      omega
    rw [Nat.lt_ceil, lt_div_iff₀ floorDriftDb_pos] at hlt
    rw [min_eq_right (by omega)]
    linarith

/-- A level is given up at the latest when the closed form is within the margin. -/
theorem quiet_of_le (h : d.Listening) (hn : d.hotBlocks x + 3 ≤ n) :
    (d.hears x n).busy = false := by
  -- the first block at which the closed form is within the margin is the first that is not hot
  have hex : ∃ i, gapAfter d.relearnBlocks (d.gap x) i ≤ d.marginDb := ⟨_, gapAfter_hotBlocks⟩
  have hfirst := Nat.find_spec hex
  have hle : Nat.find hex ≤ d.hotBlocks x := Nat.find_min' hex gapAfter_hotBlocks
  obtain ⟨hgap, -⟩ := hot_hears (n := Nat.find hex) h fun i hi =>
    not_le.mp (Nat.find_min hex hi)
  obtain ⟨k, rfl⟩ : ∃ k, n = Nat.find hex + k := ⟨n - Nat.find hex, by omega⟩
  rw [hears_add]
  refine cold_quiet (h.hears x _) ?_ (by omega)
  rw [h.marginDb_hears, hgap]
  exact hfirst

/-- Until then, and for two blocks more, the level reads busy. -/
theorem busy_of_hot (h : d.Listening) (hg : d.marginDb < d.gap x / 2 ^ d.relearnBlocks)
    (htwo : 2 ≤ d.hotBlocks x) : (d.hears x (d.hotBlocks x + 2)).busy = true := by
  obtain ⟨k, hk⟩ : ∃ k, d.hotBlocks x = k + 1 + 1 := ⟨d.hotBlocks x - 2, by omega⟩
  have hhot i (hi : i < d.hotBlocks x) : (d.hears x i).isHot x = true := by
    rw [isHot_iff, h.marginDb_hears,
      (hot_hears h fun j hj => hot_gapAfter h.sound.margin hg (by omega)).1]
    exact hot_gapAfter h.sound.margin hg hi
  have hring i : (d.hears x (i + 1)).hotRing =
      pushHot (d.hears x i).hotRing ((d.hears x i).isHot x) := (h.hears x i).hotRing_block x
  rw [hk, hears, (h.hears x _).busy_block, ← hears, hring, hring, hring, hring,
    hhot k (by omega), hhot (k + 1) (by omega), vote_pushHot]
  simp only [Bool.toNat_true, decide_eq_true_eq]
  omega

/-! ## The bound -/

/-- From here a constant level is not read busy after `margin / FLOOR_DRIFT_DB` blocks and `k`
more. -/
def Releases (d : ChannelOccupancyDetector) (k : Nat) (x : ℚ≥0) : Prop :=
  ∀ n : Nat, d.marginDb / floorDriftDb + k ≤ n → (d.hears x n).busy = false

/-- How many of these blocks exceed the floor by the margin, each on its arrival. -/
def hots (d : ChannelOccupancyDetector) : List ℚ≥0 → Nat
  | [] => 0
  | x :: xs => (d.isHot x).toNat + (d.block x).hots xs

/-- After a settled quiet period, two hot blocks of four read busy. -/
def Detects (d : ChannelOccupancyDetector) : Prop :=
  d.active = true → d.floorValid = true → d.relearnBlocks = 0 → d.hotRing = 0 →
    ∀ xs : List ℚ≥0, xs.length = 4 → 2 ≤ d.hots xs → (xs.foldl block d).busy = true

/-- The step from the floor to the level is one that drift and settling close in time. -/
def StepFits (d : ChannelOccupancyDetector) (k : Nat) (x : ℚ≥0) : Prop :=
  d.active = true → d.floorValid = true →
    d.relearnBlocks + ⌈((x - d.floorDb) / 2 ^ d.relearnBlocks - d.marginDb) / floorDriftDb⌉₊ + 3 ≤
      ⌈d.marginDb / floorDriftDb⌉₊ + k

theorem detects (h : d.Sound) : d.Detects := by
  intro hact hv _ _ xs hlen htwo
  have hl : d.Listening := ⟨h, hact, hv⟩
  match xs, hlen with
  | [a, b, c, e], _ =>
    have ha := hl.block a
    have hb := ha.block b
    have hc := hb.block c
    simp only [List.foldl_cons, List.foldl_nil]
    rw [hc.busy_block, hc.hotRing_block, hb.hotRing_block, ha.hotRing_block, hl.hotRing_block,
      vote_pushHot]
    simp only [hots] at htwo
    simp only [decide_eq_true_eq]
    omega

theorem hears_inactive (hact : d.active = false) (n : Nat) : d.hears x n = d := by
  induction n with
  | zero => rfl
  | succ n ih => rw [hears, ih, block_of_inactive hact]

theorem le_cast_iff (hm : 0 ≤ d.marginDb) (k n : Nat) :
    d.marginDb / floorDriftDb + k ≤ n ↔ ⌈d.marginDb / floorDriftDb⌉₊ + k ≤ n := by
  rw [← Nat.ceil_add_natCast (div_nonneg hm floorDriftDb_pos.le), Nat.ceil_le]

/-- Without a floor there is no step. -/
theorem releases_first (h : d.Sound) (hact : d.active = true) (hv : d.floorValid = false) (k : Nat) :
    d.Releases (13 + k) x := by
  obtain ⟨hl, hfloor⟩ := first_block h hact hv x
  have hcold : (d.hears x 1).gap x ≤ (d.hears x 1).marginDb := by
    have hm := hl.sound.margin
    simp only [hears, gap]
    linarith
  intro n hn
  rw [le_cast_iff h.margin] at hn
  obtain ⟨i, rfl⟩ : ∃ i, n = 1 + i := ⟨n - 1, by omega⟩
  rw [hears_add]
  exact cold_quiet hl hcold (by omega)

/-- With one, the level must be given up in time. -/
theorem releases_listening (h : d.Listening) (k : Nat) :
    d.Releases (13 + k) x ↔ d.hotBlocks x + 3 ≤ ⌈d.marginDb / floorDriftDb⌉₊ + (13 + k) := by
  simp only [Releases, le_cast_iff h.sound.margin]
  constructor
  · intro hrel
    by_contra hlong
    have hg : d.marginDb < d.gap x / 2 ^ d.relearnBlocks := by
      by_contra hle
      have hz : ⌈(d.gap x / 2 ^ d.relearnBlocks - d.marginDb) / floorDriftDb⌉₊ = 0 :=
        Nat.ceil_eq_zero.mpr
          (div_nonpos_of_nonpos_of_nonneg (by linarith) floorDriftDb_pos.le)
      have hw : d.relearnBlocks ≤ 10 := h.sound.window
      rw [hotBlocks, hz] at hlong
      omega
    have hbusy := busy_of_hot h hg (by omega)
    rw [hrel _ (by omega)] at hbusy
    cases hbusy
  · intro hfit n hn
    exact quiet_of_le h (by omega)

theorem releases_iff_fits (h : d.Sound) (k : Nat) : d.Releases (13 + k) x ↔ d.StepFits (13 + k) x := by
  by_cases hact : d.active = true
  · by_cases hv : d.floorValid = true
    · rw [releases_listening ⟨h, hact, hv⟩]
      simp only [StepFits, hact, hv, hotBlocks, gap, true_implies]
    · have hno : d.floorValid = false := by simpa using hv
      simp only [StepFits, hno, releases_first h hact hno, true_iff]
      exact fun _ hc => absurd hc (by decide)
  · have hoff : d.active = false := by simpa using hact
    simp only [Releases, hears_inactive hoff, h.closed hoff, StepFits, hoff]
    simp

/-- **Busy detection lets go in the documented time exactly of the steps that fit**, and two hot
blocks of four are seen after any quiet period. -/
theorem releases_iff (ops : List Op) (x : ℚ≥0) (k : Nat) :
    (after ops).Releases (13 + k) x ∧ (after ops).Detects ↔ (after ops).StepFits (13 + k) x := by
  rw [and_iff_left (detects (sound_after ops)), releases_iff_fits (sound_after ops)]

/-- A detector that settled on silence. -/
def settled : List Op :=
  .setActive true :: List.replicate 11 (.pushSamples (List.replicate blockSamples 0))

theorem after_settled : after settled =
    { floorValid := true, blocksSeen := 4, active := true } := by
  decide +kernel

/-- No constant will do for every step: at the default margin a step of `13 + k` dB above a settled
floor reads busy for too long. -/
theorem releases_fail :
    ¬ ∃ k : Nat, ∀ (ops : List Op) (x : ℚ≥0), (after ops).Releases k x ∧ (after ops).Detects := by
  rintro ⟨k, h⟩
  have hrel : (after settled).Releases (13 + k) (13 + k : Nat) := by
    intro n hn
    refine (h settled (13 + k : Nat)).1 n (le_trans ?_ hn)
    push_cast
    linarith
  rw [releases_iff_fits (sound_after settled), after_settled] at hrel
  have hfit := hrel rfl rfl
  have hstep : ((((13 + k : Nat) : ℚ≥0) - (0 : ℚ)) / 2 ^ 0 - defaultMarginDb) / floorDriftDb =
      (700 + 100 * k : Nat) := by
    unfold defaultMarginDb floorDriftDb
    push_cast
    ring
  have hmargin : defaultMarginDb / floorDriftDb = (600 : Nat) := by
    norm_num [defaultMarginDb, floorDriftDb]
  rw [hstep, hmargin, Nat.ceil_natCast, Nat.ceil_natCast] at hfit
  omega

/-! ## What a channel change forgets -/

/-- Two detectors without a floor that differ in nothing but the readings of it that are left. -/
def Alike (d e : ChannelOccupancyDetector) : Prop :=
  d = e ∨ d.floorValid = false ∧ e = { d with floorDb := e.floorDb, levelDb := e.levelDb }

theorem Alike.finishBlock {e : ChannelOccupancyDetector} (h : d.Alike e) (x : ℚ) :
    d.finishBlock x = e.finishBlock x := by
  obtain rfl | ⟨hv, he⟩ := h
  · rfl
  · have hd : (!d.floorValid) = true := by rw [hv]; rfl
    rw [he]
    simp only [ChannelOccupancyDetector.finishBlock, if_pos hd]

theorem Alike.pushSample {e : ChannelOccupancyDetector} (h : d.Alike e) (x : ℚ≥0) :
    (d.pushSample x).Alike (e.pushSample x) := by
  have hfinish := h.finishBlock x
  obtain rfl | ⟨hv, he⟩ := h
  · exact .inl rfl
  · have hacc : e.accCount = d.accCount := by rw [he]
    simp only [ChannelOccupancyDetector.pushSample, hacc]
    split
    · exact .inl hfinish
    · refine .inr ⟨hv, ?_⟩
      rw [he]

theorem Alike.foldl_pushSample {e : ChannelOccupancyDetector} (h : d.Alike e) (xs : List ℚ≥0) :
    (xs.foldl ChannelOccupancyDetector.pushSample d).Alike
      (xs.foldl ChannelOccupancyDetector.pushSample e) := by
  induction xs generalizing d e with
  | nil => exact h
  | cons x xs ih => exact ih (h.pushSample x)

theorem Alike.pushSamples {e : ChannelOccupancyDetector} (h : d.Alike e) (xs : List ℚ≥0) :
    (d.pushSamples xs).Alike (e.pushSamples xs) := by
  have hact : e.active = d.active := by
    obtain rfl | ⟨-, he⟩ := h
    · rfl
    · rw [he]
  simp only [ChannelOccupancyDetector.pushSamples, hact]
  split
  · exact h
  · exact h.foldl_pushSample xs

theorem Alike.busy {e : ChannelOccupancyDetector} (h : d.Alike e) : d.busy = e.busy := by
  obtain rfl | ⟨-, he⟩ := h
  · rfl
  · rw [he]

theorem reset_alike {e : ChannelOccupancyDetector} (hd : d.active = true) (he : e.active = true)
    (hm : d.marginDb = e.marginDb) (hf : d.floorBeforeRelearnDb = e.floorBeforeRelearnDb) :
    d.reset.Alike e.reset := by
  refine .inr ⟨rfl, ?_⟩
  simp only [reset, hd, he, hm, hf]

/-- The first block after `reset`, where it is a silent one. -/
theorem block_reset (h : d.Sound) (hact : d.active = true) :
    d.reset.block 0 =
      { d with
        accCount := 0
        levelDb := 0
        floorDb := d.floorBeforeRelearnDb
        floorValid := true
        relearnBlocks := relearnWindow
        hotRing := 0
        blocksSeen := 1
        busy := false } := by
  have hring : (0 : BitVec 8) <<< 1 = 0 := by decide
  rw [block_of_active h.reset hact, finishBlock, if_pos (by rfl)]
  simp only [reset, NNRat.coe_zero, max_eq_left h.anchor, hring]
  rfl

theorem pushSamples_active (xs : List ℚ≥0) : (d.pushSamples xs).active = d.active := by
  unfold pushSamples
  split
  · rfl
  · clear * -
    induction xs generalizing d with
    | nil => rfl
    | cons x xs ih => rw [List.foldl_cons, ih, pushSample_active]

theorem pushSamples_append (xs ys : List ℚ≥0) :
    d.pushSamples (xs ++ ys) = (d.pushSamples xs).pushSamples ys := by
  have hact := pushSamples_active (d := d) xs
  unfold pushSamples at hact ⊢
  cases hd : d.active with
  | false => simp [hd]
  | true =>
    simp only [hd, Bool.not_true, Bool.false_eq_true, if_false] at hact ⊢
    simp [hact]

/-- Samples that tell a detector with this anchor from one with a lower anchor: silence, a level
that is hot for the lower anchor only, and one that is hot for both. -/
def probe (d : ChannelOccupancyDetector) : List ℚ≥0 :=
  List.replicate blockSamples 0 ++
    (List.replicate blockSamples (d.floorBeforeRelearnDb + d.marginDb).toNNRat ++
      List.replicate blockSamples (d.floorBeforeRelearnDb + 2 * d.marginDb + 1).toNNRat)

theorem pushSamples_probe (e : ChannelOccupancyDetector) :
    d.pushSamples e.probe =
      ((d.block 0).block (e.floorBeforeRelearnDb + e.marginDb).toNNRat).block
        (e.floorBeforeRelearnDb + 2 * e.marginDb + 1).toNNRat := by
  rw [probe, pushSamples_append, pushSamples_append]
  rfl

/-- The vote of the last block is that of two flags. -/
theorem busy_two_blocks (h : d.Listening) (hring : d.hotRing = 0) (x y : ℚ≥0) :
    ((d.block x).block y).busy = (d.isHot x && (d.block x).isHot y) := by
  have hvote : ∀ a b : Bool, vote (pushHot (pushHot 0 a) b) = (a && b) := by decide
  rw [(h.block x).busy_block, (h.block x).hotRing_block, h.hotRing_block, hring, hvote]

theorem probe_differs {e : ChannelOccupancyDetector} (hd : d.Sound) (he : e.Sound)
    (hdact : d.active = true) (heact : e.active = true) (hm : d.marginDb = e.marginDb)
    (hf : d.floorBeforeRelearnDb < e.floorBeforeRelearnDb) :
    (d.reset.pushSamples e.probe).busy = true ∧ (e.reset.pushSamples e.probe).busy = false := by
  have hld := (first_block hd.reset hdact rfl 0).1
  have hle := (first_block he.reset heact rfl 0).1
  have hmargin := he.margin
  have hanchor := he.anchor
  set x := (e.floorBeforeRelearnDb + e.marginDb).toNNRat with hx
  set y := (e.floorBeforeRelearnDb + 2 * e.marginDb + 1).toNNRat with hy
  have hxv : (x : ℚ) = e.floorBeforeRelearnDb + e.marginDb := Rat.coe_toNNRat _ (by linarith)
  have hyv : (y : ℚ) = e.floorBeforeRelearnDb + 2 * e.marginDb + 1 :=
    Rat.coe_toNNRat _ (by linarith)
  rw [pushSamples_probe, pushSamples_probe, ← hx, ← hy,
    busy_two_blocks hld (by rw [block_reset hd hdact]),
    busy_two_blocks hle (by rw [block_reset he heact])]
  constructor
  · have hfirst : (d.reset.block 0).marginDb < (d.reset.block 0).gap x := by
      rw [gap, hxv, block_reset hd hdact]
      dsimp only
      linarith
    have hfloor : ((d.reset.block 0).block x).floorDb ≤ x := by
      have hnonneg := hld.sound.margin
      have hhalf := hot_block hld hfirst
      have hwindow : 0 < (d.reset.block 0).relearnBlocks := by
        rw [block_reset hd hdact]
        exact Nat.zero_lt_succ _
      rw [if_pos hwindow] at hhalf
      unfold gap at hhalf hfirst
      linarith
    have hsecond : ((d.reset.block 0).block x).marginDb < ((d.reset.block 0).block x).gap y := by
      rw [gap, hld.marginDb_block, hyv]
      rw [hxv] at hfloor
      have hdm : (d.reset.block 0).marginDb = d.marginDb := by rw [block_reset hd hdact]
      rw [hdm]
      linarith
    rw [isHot_iff.mpr hfirst, isHot_iff.mpr hsecond]
    rfl
  · have hcold : (e.reset.block 0).gap x ≤ (e.reset.block 0).marginDb := by
      rw [gap, hxv, block_reset he heact]
      dsimp only
      linarith
    rw [isHot_eq_false hcold, Bool.false_and]

/-- The noise of one channel, and a transmission on it. -/
def noisy : List Op :=
  [.setActive true, .pushSamples (List.replicate blockSamples 50), .setActive false, .setActive true]

end ChannelOccupancyDetector

end OpenALE
