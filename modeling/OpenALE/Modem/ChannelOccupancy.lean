import OpenALE.Library.Machine

/-!
# The channel-occupancy detector

Model of `ChannelOccupancyDetector` (`include/Modem/channel_occupancy.h`), over exact levels.

* A sample stands for the level that a block has which it completes: the sums and the logarithm of
  `finish_block_` are not modelled. Power is not negative, so neither is a level.
* `reset` is what `notify_channel_changed_` (`src/App/ale_controller.cpp`) calls on a change of the
  receive frequency.
-/

namespace OpenALE

namespace ChannelOccupancyDetector

/-- `BLOCK_SAMPLES`. -/
abbrev blockSamples : Nat := 800

/-- `DEFAULT_MARGIN_DB`. -/
def defaultMarginDb : ℚ := 6

/-- `ALPHA_DOWN`. -/
def alphaDown : ℚ := 3 / 10

/-- `ALPHA_UP`. -/
def alphaUp : ℚ := 1 / 20

/-- `FLOOR_DRIFT_DB`. -/
def floorDriftDb : ℚ := 1 / 100

/-- `RELEARN_BLOCKS`. -/
def relearnWindow : Nat := 10

/-- `ALPHA_RELEARN`. -/
def alphaRelearn : ℚ := 1 / 2

end ChannelOccupancyDetector

open ChannelOccupancyDetector

/-- `ChannelOccupancyDetector`. -/
structure ChannelOccupancyDetector where
  accCount : Nat := 0
  levelDb : ℚ := 0
  floorDb : ℚ := 0
  floorValid : Bool := false
  relearnBlocks : Nat := 0
  floorBeforeRelearnDb : ℚ := 0
  marginDb : ℚ := defaultMarginDb
  hotRing : BitVec 8 := 0
  blocksSeen : Nat := 0
  busy : Bool := false
  active : Bool := false
  deriving DecidableEq

namespace ChannelOccupancyDetector

/-- The loop that counts the set bits of the ring. -/
def hotCount (ring : BitVec 8) : Nat := (List.range 8).countP fun i => ring.getLsbD i

/-- The 2-of-4 vote. -/
def vote (ring : BitVec 8) : Bool := decide (2 ≤ hotCount ring)

/-- The ring with one more flag. -/
def pushHot (ring : BitVec 8) (hot : Bool) : BitVec 8 :=
  (ring <<< 1 ||| (if hot then 1 else 0)) &&& 0x0F

/-- A block at this level is hot. -/
def isHot (d : ChannelOccupancyDetector) (levelDb : ℚ) : Bool :=
  decide (levelDb > d.floorDb + d.marginDb)

/-- The floor after a block, once there is one. -/
def nextFloor (d : ChannelOccupancyDetector) (levelDb : ℚ) : ℚ :=
  if 0 < d.relearnBlocks then
    max d.floorBeforeRelearnDb (d.floorDb + alphaRelearn * (levelDb - d.floorDb))
  else if levelDb < d.floorDb then
    d.floorDb + alphaDown * (levelDb - d.floorDb) + floorDriftDb
  else if !d.isHot levelDb then
    d.floorDb + alphaUp * (levelDb - d.floorDb) + floorDriftDb
  else d.floorDb + floorDriftDb

/-- `finish_block_`. -/
def finishBlock (d : ChannelOccupancyDetector) (levelDb : ℚ) : ChannelOccupancyDetector :=
  if !d.floorValid then
    { d with
      accCount := 0
      levelDb := levelDb
      floorDb := max d.floorBeforeRelearnDb levelDb
      floorValid := true
      relearnBlocks := relearnWindow
      hotRing := d.hotRing <<< 1
      blocksSeen := if d.blocksSeen < 4 then d.blocksSeen + 1 else d.blocksSeen
      busy := vote (d.hotRing <<< 1) }
  else
    { d with
      accCount := 0
      levelDb := levelDb
      floorDb := d.nextFloor levelDb
      relearnBlocks := d.relearnBlocks - 1
      hotRing := pushHot d.hotRing (d.isHot levelDb)
      blocksSeen := if d.blocksSeen < 4 then d.blocksSeen + 1 else d.blocksSeen
      busy := vote (pushHot d.hotRing (d.isHot levelDb)) }

/-- The body of the loop of `push_samples`. -/
def pushSample (d : ChannelOccupancyDetector) (x : ℚ≥0) : ChannelOccupancyDetector :=
  if d.accCount + 1 ≥ blockSamples then d.finishBlock x
  else { d with accCount := d.accCount + 1 }

/-- `push_samples`. -/
def pushSamples (d : ChannelOccupancyDetector) (samples : List ℚ≥0) : ChannelOccupancyDetector :=
  if !d.active then d else samples.foldl pushSample d

/-- `set_active`. -/
def setActive (d : ChannelOccupancyDetector) (on : Bool) : ChannelOccupancyDetector :=
  if d.active && !on then
    { d with
      active := on
      floorBeforeRelearnDb := d.floorDb
      busy := false
      accCount := 0
      floorValid := false
      relearnBlocks := 0
      hotRing := 0
      blocksSeen := 0 }
  else { d with active := on }

/-- `set_margin_db`. -/
def setMarginDb (d : ChannelOccupancyDetector) (db : ℚ) : ChannelOccupancyDetector :=
  { d with marginDb := if db < 0 then 0 else db }

/-- `reset`. -/
def reset (d : ChannelOccupancyDetector) : ChannelOccupancyDetector :=
  { d with
    accCount := 0
    floorValid := false
    relearnBlocks := 0
    hotRing := 0
    blocksSeen := 0
    busy := false }

/-- `clear_busy_latch`. -/
def clearBusyLatch (d : ChannelOccupancyDetector) : ChannelOccupancyDetector :=
  { d with busy := false, hotRing := 0, blocksSeen := 0, accCount := 0 }

/-- A call of the detector's interface. -/
inductive Op where
  | pushSamples (samples : List ℚ≥0)
  | setActive (on : Bool)
  | setMarginDb (db : ℚ)
  | reset
  | clearBusyLatch

/-- One call. -/
def step (d : ChannelOccupancyDetector) : Op → ChannelOccupancyDetector
  | .pushSamples samples => d.pushSamples samples
  | .setActive on => d.setActive on
  | .setMarginDb db => d.setMarginDb db
  | .reset => d.reset
  | .clearBusyLatch => d.clearBusyLatch

/-- A detector after these calls. -/
def after (ops : List Op) : ChannelOccupancyDetector := Machine.run step {} ops

/-! ## The vote -/

theorem vote_pushHot : ∀ (ring : BitVec 8) (a b c e : Bool),
    vote (pushHot (pushHot (pushHot (pushHot ring a) b) c) e) =
      decide (2 ≤ a.toNat + b.toNat + c.toNat + e.toNat) := by
  decide +kernel

theorem vote_pushHot_cold : ∀ ring : BitVec 8,
    vote (pushHot (pushHot (pushHot ring false) false) false) = false := by
  decide +kernel

/-! ## What holds of every detector in use -/

/-- The detector's invariant: between blocks the accumulator is short of one, the settling window
runs above its anchor, without a floor there is no vote, and a closed receiver is not busy. -/
structure Sound (d : ChannelOccupancyDetector) : Prop where
  short : d.accCount < blockSamples
  window : d.relearnBlocks ≤ relearnWindow
  anchored : 0 < d.relearnBlocks → d.floorBeforeRelearnDb ≤ d.floorDb
  silent : d.floorValid = false → d.hotRing = 0 ∧ d.busy = false
  closed : d.active = false → d.busy = false
  margin : 0 ≤ d.marginDb
  anchor : 0 ≤ d.floorBeforeRelearnDb
  floor : 0 ≤ d.floorDb

variable {d : ChannelOccupancyDetector}

theorem nextFloor_nonneg (h : d.Sound) (x : ℚ) (hx : 0 ≤ x) : 0 ≤ d.nextFloor x := by
  have hf := h.floor
  unfold nextFloor alphaRelearn alphaDown alphaUp floorDriftDb
  split_ifs with hr hlow hhot
  · exact le_max_of_le_left h.anchor
  · linarith
  · have hle : d.floorDb ≤ x := not_lt.mp hlow
    linarith
  · linarith

theorem Sound.finishBlock (h : d.Sound) (hact : d.active = true) (x : ℚ) (hx : 0 ≤ x) :
    (d.finishBlock x).Sound := by
  unfold ChannelOccupancyDetector.finishBlock
  split
  · exact ⟨Nat.zero_lt_succ _, le_refl _, fun _ => le_max_left _ _, by simp, by simp [hact], h.margin, h.anchor,
      le_max_of_le_left h.anchor⟩
  · rename_i hvalid
    refine ⟨Nat.zero_lt_succ _, (Nat.sub_le _ 1).trans h.window, ?_, ?_, by simp [hact], h.margin, h.anchor,
      nextFloor_nonneg h x hx⟩
    · intro hr
      have hr' : 0 < d.relearnBlocks := by
        dsimp only at hr
        omega
      simp [nextFloor, hr']
    · simp_all

theorem Sound.pushSample (h : d.Sound) (hact : d.active = true) (x : ℚ≥0) :
    (d.pushSample x).Sound := by
  unfold ChannelOccupancyDetector.pushSample
  split
  · exact h.finishBlock hact x x.2
  · rename_i hshort
    exact ⟨by dsimp only; omega, h.window, h.anchored, h.silent, h.closed, h.margin, h.anchor, h.floor⟩

@[simp] theorem finishBlock_active (x : ℚ) : (d.finishBlock x).active = d.active := by
  unfold finishBlock
  split <;> rfl

@[simp] theorem pushSample_active (x : ℚ≥0) : (d.pushSample x).active = d.active := by
  unfold pushSample
  split
  · simp
  · rfl

theorem Sound.foldl_pushSample (h : d.Sound) (hact : d.active = true) (xs : List ℚ≥0) :
    (xs.foldl ChannelOccupancyDetector.pushSample d).Sound := by
  induction xs generalizing d with
  | nil => exact h
  | cons x xs ih => exact ih (h.pushSample hact x) (by simpa using hact)

theorem Sound.pushSamples (h : d.Sound) (xs : List ℚ≥0) : (d.pushSamples xs).Sound := by
  unfold ChannelOccupancyDetector.pushSamples
  split
  · exact h
  · rename_i hact
    exact h.foldl_pushSample (by simpa using hact) xs

theorem Sound.setActive (h : d.Sound) (on : Bool) : (d.setActive on).Sound := by
  unfold ChannelOccupancyDetector.setActive
  split
  · exact ⟨Nat.zero_lt_succ _, Nat.zero_le _, by simp, by simp, by simp, h.margin, h.floor, h.floor⟩
  · rename_i hkeep
    refine ⟨h.short, h.window, h.anchored, h.silent, ?_, h.margin, h.anchor, h.floor⟩
    intro hoff
    have hon : on = false := hoff
    subst hon
    exact h.closed (by simpa using hkeep)

theorem Sound.setMarginDb (h : d.Sound) (db : ℚ) : (d.setMarginDb db).Sound := by
  refine ⟨h.short, h.window, h.anchored, h.silent, h.closed, ?_, h.anchor, h.floor⟩
  unfold ChannelOccupancyDetector.setMarginDb
  dsimp only
  split
  · exact le_refl _
  · exact not_lt.mp ‹_›

theorem Sound.reset (h : d.Sound) : d.reset.Sound :=
  ⟨Nat.zero_lt_succ _, Nat.zero_le _, fun hr => absurd hr (lt_irrefl 0), fun _ => ⟨rfl, rfl⟩, fun _ => rfl, h.margin,
    h.anchor, h.floor⟩

theorem Sound.clearBusyLatch (h : d.Sound) : d.clearBusyLatch.Sound :=
  ⟨Nat.zero_lt_succ _, h.window, h.anchored, fun _ => ⟨rfl, rfl⟩, fun _ => rfl, h.margin, h.anchor, h.floor⟩

theorem Sound.step (h : d.Sound) (op : Op) : (d.step op).Sound :=
  match op with
  | .pushSamples xs => h.pushSamples xs
  | .setActive on => h.setActive on
  | .setMarginDb db => h.setMarginDb db
  | .reset => h.reset
  | .clearBusyLatch => h.clearBusyLatch

theorem sound_after (ops : List Op) : (after ops).Sound := by
  have h0 : ({} : ChannelOccupancyDetector).Sound :=
    ⟨by decide, by simp, by simp, by simp, by simp, by norm_num [defaultMarginDb], le_refl _, le_refl _⟩
  exact (Machine.allStates_of_inv' (fun _ op h => h.step op) h0 ops).last

/-! ## One block -/

/-- As many samples as complete one block, wherever the accumulator stands. -/
def block (d : ChannelOccupancyDetector) (x : ℚ≥0) : ChannelOccupancyDetector :=
  d.pushSamples (List.replicate blockSamples x)

theorem foldl_pushSample_short (x : ℚ≥0) (n : Nat) (h : d.accCount + n < blockSamples) :
    (List.replicate n x).foldl pushSample d = { d with accCount := d.accCount + n } := by
  induction n generalizing d with
  | zero => rfl
  | succ n ih =>
    have hshort : ¬ d.accCount + 1 ≥ blockSamples := by omega
    have hhead : d.pushSample x = { d with accCount := d.accCount + 1 } := by
      simp only [pushSample, if_neg hshort]
    rw [List.replicate_succ, List.foldl_cons, hhead, ih (by dsimp only; omega)]
    dsimp only
    rw [Nat.add_assoc, Nat.add_comm 1 n]

@[simp] theorem finishBlock_accCount (x : ℚ) : (d.finishBlock x).accCount = 0 := by
  unfold finishBlock
  split <;> rfl

theorem finishBlock_congr (n : Nat) (x : ℚ) :
    ({ d with accCount := n } : ChannelOccupancyDetector).finishBlock x = d.finishBlock x := rfl

/-- A block's samples finish one block; the accumulator keeps its rest. -/
theorem block_of_active (h : d.Sound) (hact : d.active = true) (x : ℚ≥0) :
    d.block x = { d.finishBlock x with accCount := d.accCount } := by
  have hshort := h.short
  obtain ⟨k, hk⟩ := Nat.exists_eq_add_of_lt hshort
  have hsplit : List.replicate blockSamples x =
      List.replicate k x ++ x :: List.replicate d.accCount x := by
    rw [← List.replicate_succ, List.replicate_append_replicate]
    congr 1
    omega
  have hlast : d.accCount + k + 1 ≥ blockSamples := by omega
  have hpush : ({ d with accCount := d.accCount + k } : ChannelOccupancyDetector).pushSample x =
      d.finishBlock x := by
    simp only [pushSample, if_pos hlast, finishBlock_congr]
  rw [block, pushSamples, hact, Bool.not_true, if_neg (by decide), hsplit, List.foldl_append,
    foldl_pushSample_short x k (by omega), List.foldl_cons, hpush,
    foldl_pushSample_short x d.accCount (by rw [finishBlock_accCount]; omega),
    finishBlock_accCount, Nat.zero_add]

theorem block_of_inactive (hact : d.active = false) (x : ℚ≥0) : d.block x = d := by
  simp [block, pushSamples, hact]

theorem Sound.block (h : d.Sound) (x : ℚ≥0) : (d.block x).Sound := h.pushSamples _

/-- A detector that listens and has a floor. -/
structure Listening (d : ChannelOccupancyDetector) : Prop where
  sound : d.Sound
  active : d.active = true
  valid : d.floorValid = true

/-- What a block does to a detector that has a floor. -/
theorem Listening.block_eq (h : d.Listening) (x : ℚ≥0) :
    d.block x = { d with
      levelDb := x
      floorDb := d.nextFloor x
      relearnBlocks := d.relearnBlocks - 1
      hotRing := pushHot d.hotRing (d.isHot x)
      blocksSeen := if d.blocksSeen < 4 then d.blocksSeen + 1 else d.blocksSeen
      busy := vote (pushHot d.hotRing (d.isHot x)) } := by
  have hv : (!d.floorValid) ≠ true := by rw [h.valid]; decide
  rw [block_of_active h.sound h.active, finishBlock, if_neg hv]

theorem Listening.block (h : d.Listening) (x : ℚ≥0) : (d.block x).Listening :=
  ⟨h.sound.block x, by rw [h.block_eq]; exact h.active, by rw [h.block_eq]; exact h.valid⟩

section fields

variable (h : d.Listening) (x : ℚ≥0)
include h

theorem Listening.floorDb_block : (d.block x).floorDb = d.nextFloor x := by rw [h.block_eq]

theorem Listening.marginDb_block : (d.block x).marginDb = d.marginDb := by rw [h.block_eq]

theorem Listening.relearnBlocks_block : (d.block x).relearnBlocks = d.relearnBlocks - 1 := by
  rw [h.block_eq]

theorem Listening.hotRing_block : (d.block x).hotRing = pushHot d.hotRing (d.isHot x) := by
  rw [h.block_eq]

theorem Listening.busy_block : (d.block x).busy = vote (d.block x).hotRing := by rw [h.block_eq]

end fields

/-- The first block makes the floor, and is not hot against it. -/
theorem first_block (h : d.Sound) (hact : d.active = true) (hv : d.floorValid = false) (x : ℚ≥0) :
    (d.block x).Listening ∧ (x : ℚ) ≤ (d.block x).floorDb := by
  have hb : d.block x = { d.finishBlock x with accCount := d.accCount } := block_of_active h hact x
  have hne : (!d.floorValid) = true := by rw [hv]; rfl
  rw [finishBlock, if_pos hne] at hb
  refine ⟨⟨h.block x, ?_, ?_⟩, ?_⟩
  · rw [hb]; exact hact
  · rw [hb]
  · rw [hb]; exact le_max_right _ _

end ChannelOccupancyDetector

end OpenALE
