import OpenALE.Codec.Symbols
import OpenALE.Library.Float

/-!
# The word grid

Model of `WordGridTracker` (`src/Modem/word_grid_tracker.cpp`) with `AdaptiveFec`.

* Positions are counted without a wrap; the tracker only takes their differences, and those modulo
  `2 ^ 32` (`since`), as `uint32_t` does. They never go back.
* A report is a call of `word_cb_`. It carries the position of its window beside the word.
-/

namespace OpenALE

namespace WordGridTracker

/-- `SAMPLES_PER_SYMBOL`. -/
abbrev samplesPerSymbol : Nat := 64

/-- `WORD_SAMPLES`. -/
abbrev wordSamples : Nat := 49 * samplesPerSymbol

/-- `GRID_TIMEOUT_SAMPLES`. -/
abbrev gridTimeoutSamples : Nat := 3 * wordSamples

/-- `min_spacing`. -/
abbrev minSpacing : Nat := wordSamples - samplesPerSymbol

/-- The difference of two positions. -/
def since (pos anchor : Nat) : Nat := (pos - anchor) % 2 ^ 32

end WordGridTracker

open WordGridTracker

/-- `DecodedCandidate`, an output of `decode`: what is decoded is valid. -/
structure DecodedCandidate where
  word : ALEWord
  fec : Golay.DecodeResult
  unanimousVotes : Nat
  wordEnergy : Float32
  decodedOk : Bool
  valid : decodedOk = true → word.valid = true

theorem valid_of_accepted (symbols : List Nat) (mode : GolayMode) (out : ALEWord)
    (h : (ALEDecoder.decode symbols mode out).accepted = true) :
    (ALEDecoder.decode symbols mode out).out.valid = true := by
  unfold ALEDecoder.decode at *
  dsimp only at *
  split at h
  · cases h
  · rename_i hcorrectable
    rw [if_neg hcorrectable]
    exact h

/-- `try_decode_` behind the tones: the symbols and the sum of their power. -/
def tryDecode (symbols : List Nat) (wordEnergy : Float32) (mode : GolayMode) : DecodedCandidate where
  word := (ALEDecoder.decode symbols mode {}).out
  fec := (ALEDecoder.decode symbols mode {}).fec
  unanimousVotes := (ALEDecoder.decode symbols mode {}).out.unanimousVotes
  wordEnergy := wordEnergy
  decodedOk := (ALEDecoder.decode symbols mode {}).accepted
  valid := valid_of_accepted symbols mode {}

/-! ## `AdaptiveFec` -/

namespace AdaptiveFec

/-- `INIT_QUALITY`. -/
def initQuality : Float32 := 40

/-- `observe`. -/
def observe (quality : Float32) (votes : Nat) : Float32 :=
  quality + 0.125 * (Float32.ofNat votes - quality)

/-- `mode`. -/
def mode (quality : Float32) : GolayMode :=
  if quality ≥ 48 then .mode1_6 else if quality ≥ 45 then .mode2_5 else .mode3_4

/-- `threshold`. -/
def threshold (quality : Float32) : Nat :=
  let t := quality - 8
  let t := if t < 30 then 30 else t
  let t := if t > 42 then 42 else t
  (t + 0.5).toUInt8.toNat

end AdaptiveFec

/-- `OperatingPoint`. -/
structure OperatingPoint where
  baseMode : GolayMode := .mode3_4
  baseMinUnanimous : Nat := 33
  mode : GolayMode := .mode3_4
  minUnanimous : Nat := 33
  adaptive : Bool := false
  afec : Float32 := AdaptiveFec.initQuality

/-- `restore_base`. -/
def OperatingPoint.restoreBase (op : OperatingPoint) : OperatingPoint :=
  { op with mode := op.baseMode, minUnanimous := op.baseMinUnanimous, afec := AdaptiveFec.initQuality }

/-! ## The tracker -/

/-- `Refinement`. -/
structure Refinement where
  active : Bool := false
  firstPos : Nat := 0
  bestPos : Nat := 0
  bestEnergy : Float32 := 0
  bestVotes : Nat := 0
  bestWord : ALEWord := {}

/-- `WordGridTracker`. -/
structure WordGridTracker where
  gridLocked : Bool := false
  gridAnchor : Nat := 0
  uncorrAnchor : Nat := 0
  ref : Refinement := {}
  op : OperatingPoint := {}

/-- A call of `word_cb_`; `committed` is one from `commit_refined_word_`. -/
structure Report where
  committed : Bool
  pos : Nat
  word : ALEWord
  deriving Repr, DecidableEq

namespace WordGridTracker

/-- The types that lock the grid. -/
def opensAddress (type : PreambleType) : Bool :=
  type = .to || type = .tis || type = .twas || type = .frm

/-- `gate_word_`. -/
def gateWord (t : WordGridTracker) (c : DecodedCandidate) (writePos : Nat) : Bool :=
  if c.unanimousVotes < t.op.minUnanimous then false
  else if t.gridLocked = false then opensAddress c.word.type
  else
    let samplesSince := since writePos t.gridAnchor
    if samplesSince < minSpacing then false
    else if c.fec.flag = .ok then true
    else
      let phase := samplesSince % wordSamples
      phase ≤ samplesPerSymbol || wordSamples - samplesPerSymbol ≤ phase

/-- `try_emit_decoded_`. -/
def tryEmitDecoded (t : WordGridTracker) (c : DecodedCandidate) (writePos : Nat) :
    WordGridTracker :=
  let ref :=
    if t.ref.active = false then
      { t.ref with active := true, firstPos := writePos, bestEnergy := -1 }
    else t.ref
  let ref :=
    if c.wordEnergy > ref.bestEnergy then
      { ref with
        bestEnergy := c.wordEnergy
        bestPos := writePos
        bestVotes := c.unanimousVotes
        bestWord := c.word }
    else ref
  { t with ref }

/-- `try_emit_uncorrectable_`. -/
def tryEmitUncorrectable (t : WordGridTracker) (word : ALEWord) (writePos : Nat) :
    WordGridTracker × List Report :=
  let samplesSince := since writePos t.gridAnchor
  if samplesSince < minSpacing then (t, [])
  else
    let phase := samplesSince % wordSamples
    if phase = 0 ∧ minSpacing ≤ since writePos t.uncorrAnchor then
      ({ t with uncorrAnchor := writePos }, [⟨false, writePos, word⟩])
    else (t, [])

/-- `commit_refined_word_`. -/
def commitRefinedWord (t : WordGridTracker) : WordGridTracker × List Report :=
  let op :=
    if t.op.adaptive then
      let afec := AdaptiveFec.observe t.op.afec t.ref.bestVotes
      { t.op with
        afec
        mode := AdaptiveFec.mode afec
        minUnanimous := AdaptiveFec.threshold afec }
    else t.op
  ({ t with gridLocked := true, gridAnchor := t.ref.bestPos, ref := { t.ref with active := false }, op },
    [⟨true, t.ref.bestPos, t.ref.bestWord⟩])

/-- The refinement window is over. -/
def closes (t : WordGridTracker) (writePos : Nat) : Bool :=
  t.ref.active && samplesPerSymbol ≤ since writePos t.ref.firstPos

/-- The grid-loss timeout. -/
def checkTimeout (t : WordGridTracker) (writePos : Nat) : WordGridTracker :=
  if t.gridLocked = true ∧ t.ref.active = false ∧
      gridTimeoutSamples < since writePos t.gridAnchor then
    { t with op := t.op.restoreBase, gridLocked := false }
  else t

/-- `process_candidate` in front of the candidate itself: the commit and the timeout. -/
def settle (t : WordGridTracker) (writePos : Nat) : WordGridTracker × List Report :=
  let (t, reports) := if t.closes writePos then t.commitRefinedWord else (t, [])
  (t.checkTimeout writePos, reports)

/-- `process_candidate`. -/
def processCandidate (t : WordGridTracker) (c : DecodedCandidate) (writePos : Nat) :
    WordGridTracker × List Report :=
  let (t, reports) := t.settle writePos
  if c.decodedOk && t.gateWord c writePos then (t.tryEmitDecoded c writePos, reports)
  else if !c.decodedOk && !t.ref.active && t.gridLocked && t.op.minUnanimous ≤ c.unanimousVotes &&
      (c.word.golayUncorrectable || !c.word.valid) then
    let (t, reports') := t.tryEmitUncorrectable c.word writePos
    (t, reports ++ reports')
  else (t, reports)

/-- `on_silence_gap`. -/
def onSilenceGap (t : WordGridTracker) : WordGridTracker × List Report :=
  let (t, reports) := if t.ref.active then t.commitRefinedWord else (t, [])
  ({ t with
      op := if t.gridLocked then t.op.restoreBase else t.op
      gridLocked := false }, reports)

end WordGridTracker

end OpenALE
