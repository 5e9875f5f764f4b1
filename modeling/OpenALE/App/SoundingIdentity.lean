import OpenALE.Control.Timing
import OpenALE.Word.Address

/-!
# The names of soundings

Model of `SoundingIdentityAccumulator` (`src/App/sounding_identity_accumulator.cpp`).

* `word.sinad_db` is an argument of its own.
* A `std::map` is the list of its entries in the order of their keys. Weights have no bound.

Results:
* `joinSlots_range`: the slots whose votes agree, joined up to the first one not observed.
-/

namespace OpenALE

/-- `kMaxExtSlots`. -/
abbrev kMaxExtSlots : Nat := 4

/-- A `std::map` from contents to weights. -/
abbrev SlotVotes := List (Str × Nat)

/-- `slot_votes[i][content] += weight`. -/
def SlotVotes.add (content : Str) (weight : Nat) : SlotVotes → SlotVotes
  | [] => [(content, weight)]
  | (key, w) :: votes =>
    if content = key then (key, w + weight) :: votes
    else if content < key then (content, weight) :: (key, w) :: votes
    else (key, w) :: SlotVotes.add content weight votes

/-- The content of the greatest weight, the first one of a tie. -/
def SlotVotes.best (votes : SlotVotes) : Str :=
  (votes.foldl (fun best kv => if kv.2 > best.2 then kv else best) (([], 0) : Str × Nat)).1

namespace SoundingIdentityAccumulator

/-- `Result`. -/
structure Result where
  station : Str := []
  frequencyHz : UInt32 := 0
  snrDb : Float32 := 0
  ber : Float32 := 0
  sinadDb : Float32 := 0
  twasConclusion : Bool := false

/-- `Session`; `slotVotes i` are the votes of slot `i + 1`. -/
structure Session where
  anchor : Str
  freqHz : UInt32 := 0
  twas : Bool := false
  slotVotes : Nat → SlotVotes := fun _ => []
  nextSlot : Nat := 1
  cycleOpen : Bool := true
  snrSum : Float32 := 0
  berSum : Float32 := 0
  sinadSum : Float32 := 0
  wordCount : UInt32 := 0
  lastWordMs : UInt32 := 0

end SoundingIdentityAccumulator

/-- `SoundingIdentityAccumulator`. -/
structure SoundingIdentityAccumulator where
  session : Option SoundingIdentityAccumulator.Session := none

namespace SoundingIdentityAccumulator

/-- `expected_type_for_slot`. -/
def expectedTypeForSlot (slot : Nat) : PreambleType := if slot % 2 = 1 then .data else .rep

/-- `fold_linear`. -/
def foldLinear (s : Session) (word : ALEWord) (sinadDb : Float32) : Session :=
  { s with
    snrSum := s.snrSum + if word.valid then Float32.ofNat word.unanimousVotes / 48 * 31 else 0
    berSum := s.berSum +
      if word.golayUncorrectable then 48 else (48 - word.unanimousVotes.toUInt32).toFloat32
    sinadSum := s.sinadSum + sinadDb
    wordCount := s.wordCount + 1 }

/-- `open_session`. -/
def openSession (word : ALEWord) (sinadDb : Float32) (content : Str) (frequencyHz nowMs : UInt32) :
    Session :=
  foldLinear
    { anchor := content, freqHz := frequencyHz, twas := word.type = .twas, lastWordMs := nowMs } word
    sinadDb

/-- The contents of the slots in front of the first one that was not observed. -/
def joinSlots (slotVotes : Nat → SlotVotes) : List Nat → Str
  | [] => []
  | i :: slots => if (slotVotes i).isEmpty then [] else (slotVotes i).best ++ joinSlots slotVotes slots

/-- `build_result`. -/
def buildResult (s : Session) : Result :=
  let n := s.wordCount.toFloat32
  { station := s.anchor ++ joinSlots s.slotVotes (List.range kMaxExtSlots)
    frequencyHz := s.freqHz
    snrDb := if n > 0 then s.snrSum / n else 0
    ber := if n > 0 then s.berSum / n else 0
    sinadDb := if n > 0 then s.sinadSum / n else 0
    twasConclusion := s.twas }

/-- The assignment of a word to its slot. -/
def assign (s : Session) (word : ALEWord) : Session :=
  if s.cycleOpen then
    if s.nextSlot > kMaxExtSlots then s
    else if word.valid && word.type = expectedTypeForSlot s.nextSlot then
      { s with
        slotVotes := Function.update s.slotVotes (s.nextSlot - 1)
          (SlotVotes.add (trimAleAddress word.address) word.unanimousVotes
            (s.slotVotes (s.nextSlot - 1)))
        nextSlot := s.nextSlot + 1 }
    else { s with cycleOpen := false }
  else s

/-- `on_word`: what is flushed, and the accumulator. -/
def onWord (acc : SoundingIdentityAccumulator) (word : ALEWord) (sinadDb : Float32)
    (frequencyHz nowMs : UInt32) : Option Result × SoundingIdentityAccumulator :=
  let isConclusion := word.valid && (word.type = .tis || word.type = .twas)
  if isConclusion then
    let content := trimAleAddress word.address
    match acc.session with
    | none => (none, { session := some (openSession word sinadDb content frequencyHz nowMs) })
    | some s =>
      if content = s.anchor then
        let s := foldLinear { s with nextSlot := 1, cycleOpen := true } word sinadDb
        (none, { session := some { s with lastWordMs := nowMs } })
      else
        let flushed := buildResult s
        (if flushed.station = [] then none else some flushed,
          { session := some (openSession word sinadDb content frequencyHz nowMs) })
  else
    match acc.session with
    | none => (none, acc)
    | some s =>
      (none, { session := some (assign { foldLinear s word sinadDb with lastWordMs := nowMs } word) })

/-- `timed_out`. -/
def timedOut (acc : SoundingIdentityAccumulator) (nowMs : UInt32) : Bool :=
  match acc.session with
  | none => false
  | some s => nowMs - s.lastWordMs ≥ tdrwMs

/-- `finalize`. -/
def finalize (acc : SoundingIdentityAccumulator) : Option Result × SoundingIdentityAccumulator :=
  match acc.session with
  | none => (none, acc)
  | some s =>
    let r := buildResult s
    (if r.station = [] then none else some r, { session := none })

/-- The sounding part of `tick_frame_settle`. -/
def tickFrameSettle (acc : SoundingIdentityAccumulator) (nowMs : UInt32) :
    Option Result × SoundingIdentityAccumulator :=
  if acc.timedOut nowMs then acc.finalize else (none, acc)

/-! ## Names -/

theorem best_single {content : Str} {weight : Nat} (h : 0 < weight) :
    SlotVotes.best [(content, weight)] = content := by
  unfold SlotVotes.best
  rw [List.foldl_cons, List.foldl_nil, if_pos h]

/-- A slot is observed, and all its votes are for one content. -/
def Agrees (votes : SlotVotes) (content : Str) : Prop :=
  ∃ weight, 0 < weight ∧ votes = [(content, weight)]

theorem Agrees.add {votes : SlotVotes} {content : Str} {weight : Nat}
    (h : votes = [] ∨ Agrees votes content) (hw : 0 < weight) :
    Agrees (SlotVotes.add content weight votes) content := by
  obtain rfl | ⟨w, hpos, rfl⟩ := h
  · exact ⟨weight, hw, rfl⟩
  · refine ⟨w + weight, by omega, ?_⟩
    unfold SlotVotes.add
    rw [if_pos rfl]

/-- The slots in front of the first one that was not observed. -/
theorem joinSlots_range (slotVotes : Nat → SlotVotes) (contents : List Str) {n : Nat}
    (hle : contents.length ≤ n)
    (hagree : ∀ i (hi : i < contents.length), Agrees (slotVotes i) contents[i])
    (hempty : ∀ i, contents.length ≤ i → slotVotes i = []) :
    joinSlots slotVotes (List.range n) = contents.flatten := by
  have hfrom : ∀ k m, m + k = n → joinSlots slotVotes (List.range' m k) =
      (contents.drop m).flatten := by
    intro k
    induction k with
    | zero =>
      intro m hm
      rw [List.drop_eq_nil_of_le (by omega)]
      rfl
    | succ k ih =>
      intro m hm
      rw [List.range'_succ, joinSlots]
      by_cases hi : m < contents.length
      · obtain ⟨w, hw, hvotes⟩ := hagree m hi
        rw [hvotes, if_neg (by exact Bool.false_ne_true), best_single hw, ih (m + 1) (by omega),
          List.drop_eq_getElem_cons hi, List.flatten_cons]
      · rw [hempty m (by omega), if_pos (by exact List.isEmpty_nil),
          List.drop_eq_nil_of_le (by omega)]
        rfl
  rw [List.range_eq_range', hfrom n 0 (by omega), List.drop_zero]

end SoundingIdentityAccumulator

end OpenALE
