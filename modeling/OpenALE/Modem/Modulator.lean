import OpenALE.Codec.Interleaver

/-!
# `ALE2GModem::Modulator`

Model of the queue of the modulator (`src/Modem/ale2g_modem.cpp`). A word waits in `tx49Queue`
behind the one whose symbols are ready. Left out: the symbols themselves, which are those of
`pendingTx49`, and the mutex.

Results:
* `asserted_enqueueWords`: a burst trips the assertion exactly when it and the words waiting are
  more than `MAX_TX_SEQUENCE_WORDS` and the one word being sent.
-/

namespace OpenALE

/-- `MAX_TX_SEQUENCE_WORDS`. -/
abbrev maxTxSequenceWords : Nat := 64

/-- Nothing is sent, and nothing waits. -/
theorem nothing_waits : false = false → ([] : List Nat) = [] := fun _ => rfl

/-- `Modulator`; `asserted` is set when the assertion of `enqueue_tx49_` has failed. -/
structure Modulator where
  wordEnqueued : Bool := false
  pendingTx49 : Nat := 0
  tx49Queue : List Nat := []
  asserted : Bool := false
  /-- Words wait only behind a word being sent. -/
  behind : wordEnqueued = false → tx49Queue = [] := by exact nothing_waits

namespace Modulator

/-- `enqueue_tx49_`. -/
def enqueueTx49 (m : Modulator) (tx49 : Nat) : Modulator :=
  if h : m.wordEnqueued = true then
    { m with
      asserted := m.asserted || decide (maxTxSequenceWords ≤ m.tx49Queue.length)
      tx49Queue := m.tx49Queue ++ [tx49]
      behind := fun h' => absurd (h.symm.trans h') (by decide) }
  else
    { m with
      pendingTx49 := tx49, wordEnqueued := true
      behind := fun h' => absurd h' (by decide) }

/-- `enqueue_word`. -/
def enqueueWord (m : Modulator) (w : ALEWord) : Modulator := m.enqueueTx49 w.encode

/-- `advance_queue_`, in `pull_symbol_frame`. -/
def advanceQueue (m : Modulator) : Modulator :=
  match m.tx49Queue with
  | [] => { m with wordEnqueued := false, tx49Queue := [], behind := fun _ => rfl }
  | tx49 :: rest =>
    { m with
      pendingTx49 := tx49, tx49Queue := rest, wordEnqueued := true
      behind := fun h' => absurd h' (by decide) }

/-- `pull_symbol_frame`: the word whose symbols are copied out. -/
def pullSymbolFrame (m : Modulator) : Option Nat × Modulator :=
  if m.wordEnqueued then (some m.pendingTx49, m.advanceQueue) else (none, m)

/-- `is_transmitting`. -/
def isTransmitting (m : Modulator) : Bool := m.wordEnqueued || m.tx49Queue != []

/-- `abort`. -/
def abort (m : Modulator) : Modulator :=
  { m with wordEnqueued := false, pendingTx49 := 0, tx49Queue := [], behind := fun _ => rfl }

/-- The words the modulator still holds. -/
def load (m : Modulator) : Nat := if m.wordEnqueued then m.tx49Queue.length + 1 else 0

/-- Hand over a burst word by word. -/
def enqueueWords (m : Modulator) (ws : List ALEWord) : Modulator := ws.foldl enqueueWord m

variable (m : Modulator) (w : ALEWord) (ws : List ALEWord)

theorem isTransmitting_iff : m.isTransmitting = true ↔ 0 < m.load := by
  unfold isTransmitting load
  cases h : m.wordEnqueued with
  | false => simp [m.behind h]
  | true => simp

theorem load_enqueueWord : (m.enqueueWord w).load = m.load + 1 := by
  unfold enqueueWord enqueueTx49 load
  by_cases h : m.wordEnqueued = true
  · simp [h]
  · simp [h, m.behind (by simpa using h)]

theorem asserted_enqueueWord : (m.enqueueWord w).asserted =
    (m.asserted || decide (maxTxSequenceWords < m.load)) := by
  unfold enqueueWord enqueueTx49 load
  by_cases h : m.wordEnqueued = true
  · simp [h]
  · simp [h]

theorem load_enqueueWords : (m.enqueueWords ws).load = m.load + ws.length := by
  unfold enqueueWords
  induction ws generalizing m with
  | nil => rfl
  | cons w ws ih =>
    rw [List.foldl_cons, ih, load_enqueueWord, List.length_cons]
    omega

/-- **When a burst trips the assertion.** -/
theorem asserted_enqueueWords : (m.enqueueWords ws).asserted =
    (m.asserted || decide (ws ≠ [] ∧ maxTxSequenceWords + 1 < m.load + ws.length)) := by
  induction ws generalizing m with
  | nil => simp [enqueueWords]
  | cons w ws ih =>
    have hcons : m.enqueueWords (w :: ws) = (m.enqueueWord w).enqueueWords ws := rfl
    rw [hcons, ih, asserted_enqueueWord, load_enqueueWord, Bool.or_assoc]
    congr 1
    rw [← Bool.decide_or, decide_eq_decide, List.length_cons]
    constructor
    · rintro (h | ⟨hne, h⟩)
      · exact ⟨List.cons_ne_nil _ _, by omega⟩
      · exact ⟨List.cons_ne_nil _ _, by omega⟩
    · rintro ⟨-, h⟩
      cases ws with
      | nil =>
        refine Or.inl ?_
        rw [List.length_nil] at h
        omega
      | cons v vs => exact Or.inr ⟨List.cons_ne_nil _ _, by rw [List.length_cons] at h ⊢; omega⟩

/-- The audio side makes room. -/
theorem load_pullSymbolFrame : m.pullSymbolFrame.2.load = m.load - 1 := by
  unfold pullSymbolFrame
  cases h : m.wordEnqueued with
  | false => simp [load, h]
  | true =>
    rw [if_pos rfl]
    unfold advanceQueue
    split
    · rename_i hq
      simp [load, h, hq]
    · rename_i hq
      simp [load, h, hq]

theorem asserted_pullSymbolFrame : m.pullSymbolFrame.2.asserted = m.asserted := by
  unfold pullSymbolFrame advanceQueue
  split
  · split <;> rfl
  · rfl

end Modulator

end OpenALE
