import OpenALE.Word.Report

/-!
# Reassembling AMD messages

Model of `ALEController::amd_step` and `amd_flush` (`src/App/ale_controller.cpp`), the accumulator
behind all four windows in which a message may arrive, and of `cmd_char_code`
(`include/Protocol/Control/ale_freq_select.h`).

Results:
* `amdFeed_idle`: an accumulator that is not collecting ignores whatever does not start a message.
* `amdStep_header`, `amdStep_text`: a header starts the text over, `DATA` and `REP` words extend it.
* `amdStep_conclusion`: the first word of the conclusion completes the message.
-/

namespace OpenALE

/-- `cmd_char_code`. -/
def cmdCharCode (w : ALEWord) : Nat := (w.rawPayload >>> 14) &&& 0x7F

/-- `AmdAccumulator`; the empty string is "no message". -/
structure AmdAccumulator where
  collecting : Bool := false
  acc : Str := []
  deriving Repr, DecidableEq

/-- Blanks and `'@'`, which `amd_flush` drops from the end. -/
def isFiller (c : Char) : Bool := c == ' ' || c == '@'

/-- `amd_flush`. -/
def amdFlush (st : AmdAccumulator) : AmdAccumulator × Str :=
  if st.collecting = false then (st, [])
  else
    let trimmed := st.acc.rdropWhile isFiller
    ({ collecting := false, acc := [] }, if trimmed = [] then st.acc else trimmed)

/-- `amd_step`. -/
def amdStep (st : AmdAccumulator) (w : ALEWord) : AmdAccumulator × Str :=
  if w.type = .cmd then
    let cc := Char.ofNat (cmdCharCode w)
    if cc = 'f' ∨ cc = 'a' ∨ cc = 'n' ∨ cc = 'r' then amdFlush st
    else
      let basic38 := decodeAscii w.rawPayload .cmd
      if basic38.2 = true ∧ (basic38.1 = ['D', 'T', 'M'] ∨ basic38.1 = ['D', 'B', 'M']) then
        amdFlush st
      else
        let (st, prior) := amdFlush st
        let exp64 := decodeAscii w.rawPayload .data
        (if exp64.2 then { collecting := true, acc := exp64.1 } else st, prior)
  else if st.collecting = false then (st, [])
  else if w.type = .data ∨ w.type = .rep then
    let exp64 := decodeAscii w.rawPayload .data
    (if exp64.2 then { st with acc := st.acc ++ exp64.1 } else st, [])
  else if w.type = .tis ∨ w.type = .twas then amdFlush st
  else (st, [])

/-- The accumulator after the words, and the messages completed on the way. -/
def amdFeed : AmdAccumulator → List ALEWord → AmdAccumulator × List Str
  | st, [] => (st, [])
  | st, w :: ws =>
    let (st', text) := amdStep st w
    let (st'', texts) := amdFeed st' ws
    (st'', if text = [] then texts else text :: texts)

section Feed

variable {st : AmdAccumulator}

theorem amdFeed_append (st : AmdAccumulator) (ws vs : List ALEWord) : amdFeed st (ws ++ vs) =
    ((amdFeed (amdFeed st ws).1 vs).1, (amdFeed st ws).2 ++ (amdFeed (amdFeed st ws).1 vs).2) := by
  induction ws generalizing st with
  | nil => rfl
  | cons w ws ih =>
    simp only [List.cons_append, amdFeed]
    rw [ih]
    split <;> simp

/-- A word that starts no message: no command, or one that belongs to another protocol. -/
def Silent (w : ALEWord) : Prop :=
  w.type = .cmd → Char.ofNat (cmdCharCode w) ∈ ['f', 'a', 'n', 'r']

theorem amdStep_idle (hst : st.collecting = false) {w : ALEWord} (hw : Silent w) :
    amdStep st w = (st, []) := by
  unfold amdStep
  split
  · rename_i ht
    have hc := hw ht
    have hc' : Char.ofNat (cmdCharCode w) = 'f' ∨ Char.ofNat (cmdCharCode w) = 'a' ∨
        Char.ofNat (cmdCharCode w) = 'n' ∨ Char.ofNat (cmdCharCode w) = 'r' := by simpa using hc
    dsimp only
    rw [if_pos hc']
    unfold amdFlush
    rw [if_pos hst]
  · rfl

/-- **An accumulator that is not collecting ignores what starts no message.** -/
theorem amdFeed_idle (hst : st.collecting = false) {ws : List ALEWord} (hw : ∀ w ∈ ws, Silent w) :
    amdFeed st ws = (st, []) := by
  induction ws with
  | nil => rfl
  | cons w ws ih =>
    simp only [amdFeed]
    rw [amdStep_idle hst (hw w List.mem_cons_self)]
    dsimp only
    rw [ih fun v hv => hw v (List.mem_cons_of_mem w hv)]
    rfl

/-- What `amd_flush` makes of the characters collected. -/
def flushed (acc : Str) : Str :=
  if acc.rdropWhile isFiller = [] then acc else acc.rdropWhile isFiller

theorem amdFlush_collecting (acc : Str) :
    amdFlush { collecting := true, acc := acc } = ({ collecting := false, acc := [] }, flushed acc) :=
  rfl

/-! ## Words of characters -/

theorem decodeAscii_chars {c : Str} (hc : ∀ x ∈ c, validExpanded64 x = true)
    {w : ALEWord} (hw : decodeAscii w.rawPayload w.type = (c, true)) :
    decodeAscii w.rawPayload .data = (c, true) ∧ decodeAscii w.rawPayload .cmd = (c, true) := by
  have hchars : payloadChars w.rawPayload = c := by
    unfold decodeAscii at hw
    split at hw
    · exact congrArg Prod.fst hw
    · split at hw
      · exact congrArg Prod.fst hw
      · exact absurd (congrArg Prod.snd hw) Bool.false_ne_true
  have hall : (payloadChars w.rawPayload).all (validChar .data) = true := by
    rw [hchars, List.all_eq_true]
    exact hc
  unfold decodeAscii
  rw [if_neg (by decide), if_pos hall, if_pos rfl, hchars]
  exact ⟨rfl, rfl⟩

theorem charCode_of_chars {c0 c1 c2 : Char} {w : ALEWord}
    (hw : decodeAscii w.rawPayload .cmd = ([c0, c1, c2], true)) :
    Char.ofNat (cmdCharCode w) = c0 := by
  have h : payloadChars w.rawPayload = [c0, c1, c2] := congrArg Prod.fst hw
  exact (List.cons.inj h).1

/-- The header of a message: the accumulator starts over. -/
theorem amdStep_header (hst : st.collecting = false) {c : Str} (hl : c.length = 3)
    (hc : ∀ x ∈ c, validExpanded64 x = true) (hid : c ≠ ['D', 'T', 'M'] ∧ c ≠ ['D', 'B', 'M'])
    {w : ALEWord} (ht : w.type = .cmd) (hw : decodeAscii w.rawPayload w.type = (c, true)) :
    amdStep st w = ({ collecting := true, acc := c }, []) := by
  obtain ⟨hdata, hcmd⟩ := decodeAscii_chars hc hw
  match c, hl with
  | [c0, c1, c2], _ =>
    have hcode := charCode_of_chars hcmd
    have h0 := (validExpanded64_iff c0).mp (hc c0 (by simp))
    have hown : ¬ (c0 = 'f' ∨ c0 = 'a' ∨ c0 = 'n' ∨ c0 = 'r') := by
      rintro (rfl | rfl | rfl | rfl) <;> exact absurd h0.2 (by decide)
    have hid' : ¬ ([c0, c1, c2] = ['D', 'T', 'M'] ∨ [c0, c1, c2] = ['D', 'B', 'M']) := by
      rintro (h | h)
      · exact hid.1 h
      · exact hid.2 h
    unfold amdStep
    dsimp only
    rw [if_pos ht, hcode, if_neg hown, hcmd, if_neg (fun h => hid' h.2), hdata, if_pos rfl]
    unfold amdFlush
    rw [if_pos hst]

theorem amdStep_text {acc c : Str} (hc : ∀ x ∈ c, validExpanded64 x = true)
    {w : ALEWord} (ht : w.type = .data ∨ w.type = .rep)
    (hw : decodeAscii w.rawPayload w.type = (c, true)) :
    amdStep { collecting := true, acc := acc } w = ({ collecting := true, acc := acc ++ c }, []) := by
  obtain ⟨hdata, -⟩ := decodeAscii_chars hc hw
  have hne : w.type ≠ .cmd := by rcases ht with h | h <;> rw [h] <;> decide
  unfold amdStep
  rw [if_neg hne, if_neg (by simp), if_pos ht]
  dsimp only
  rw [hdata, if_pos rfl]

theorem amdStep_conclusion {acc : Str} {w : ALEWord} (ht : w.type = .tis ∨ w.type = .twas) :
    amdStep { collecting := true, acc := acc } w =
      ({ collecting := false, acc := [] }, flushed acc) := by
  have hcmd : w.type ≠ .cmd := by rcases ht with h | h <;> rw [h] <;> decide
  have hext : ¬ (w.type = .data ∨ w.type = .rep) := by rcases ht with h | h <;> rw [h] <;> decide
  unfold amdStep
  rw [if_neg hcmd, if_neg (by simp), if_neg hext, if_pos ht, amdFlush_collecting]

end Feed

end OpenALE
