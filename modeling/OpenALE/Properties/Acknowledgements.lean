import OpenALE.Fs1052.Arq

/-!
# What an acknowledgement says

`send_ack` leaves the frame type at `NO_FRAME`, and `format_control_frame` puts the bitmap into
frames of the types T2 to T4 only: the acknowledgement arrives with an empty bitmap and marks
nothing.
-/

namespace OpenALE.Fs1052

namespace VariableARQ

variable {r s : VariableARQ}

theorem frames_frameSent (a : VariableARQ) : a.frameSent.frames = a.frames := by
  unfold frameSent transferComplete
  dsimp only
  split
  · split_ifs
    · split <;> rfl
    · rfl
  · rfl
  · rfl

/-- The frame that `send_ack` emits, and what arrives of it. -/
theorem sendAck_emits (r : VariableARQ) : ∃ bytes,
    r.sendAck.frames = r.frames ++ [bytes] ∧
      parseControlFrame bytes = some { ackNakType := .dataAck } := by
  cases hformat : formatControlFrame (ackFrame (bitMapOf r.rxBitmap)) 256 with
  | none => cases hformat
  | some bytes =>
    refine ⟨bytes, ?_, (parse_format_ack hformat).2⟩
    rw [sendAck, hformat]
    exact frames_frameSent _

/-- An empty bitmap marks nothing. -/
theorem processAck_empty (s : VariableARQ) : s.processAck { ackNakType := .dataAck } = s := by
  have hzero (i : Nat) : (List.replicate ackMapSize (0 : UInt8)).getD (i / 8) 0 = 0 := by
    rw [List.getD_eq_getElem?_getD, List.getElem?_replicate]
    split_ifs <;> rfl
  have hloop (is : List Nat) : is.foldl (fun a i =>
      if (List.replicate ackMapSize (0 : UInt8)).getD (i / 8) 0 &&&
          ((1 : UInt8) <<< UInt8.ofNat (i % 8)) ≠ 0 then a.markBlockAcked (UInt8.ofNat i)
      else a) s = s := by
    induction is with
    | nil => rfl
    | cons i is ih =>
      rw [List.foldl_cons, hzero, UInt8.zero_and, if_neg (not_not.mpr rfl)]
      exact ih
  rw [processAck, if_neg (not_not.mpr rfl)]
  exact hloop _

/-- The acknowledgement of the receiver `r` marks at the sender `s` exactly the blocks whose numbers
`r` has received. -/
def Tells (r s : VariableARQ) : Prop :=
  ∃ bytes frame, r.sendAck.frames = r.frames ++ [bytes] ∧ parseControlFrame bytes = some frame ∧
    (s.processAck frame).txBlocks =
      s.txBlocks.map fun b => { b with acknowledged := b.acknowledged || r.rxBitmap b.sequence }

theorem map_marks_eq_self {received : UInt8 → Bool} {blocks : List DataBlock} :
    blocks = blocks.map (fun b => { b with acknowledged := b.acknowledged || received b.sequence }) ↔
      ∀ b ∈ blocks, received b.sequence = true → b.acknowledged = true := by
  have hone (b : DataBlock) :
      b = { b with acknowledged := b.acknowledged || received b.sequence } ↔
        (received b.sequence = true → b.acknowledged = true) := by
    obtain ⟨seq, offset, data, acknowledged, count⟩ := b
    cases acknowledged <;> simp
  induction blocks with
  | nil => simp
  | cons b blocks ih =>
    rw [List.map_cons, List.cons.injEq, List.forall_mem_cons]
    exact and_congr (hone b) ih

/-- **An acknowledgement says what was received exactly if it says nothing new.** -/
theorem tells_iff (r s : VariableARQ) :
    r.Tells s ↔ ∀ b ∈ s.txBlocks, r.rxBitmap b.sequence = true → b.acknowledged = true := by
  obtain ⟨bytes, hframes, hparse⟩ := r.sendAck_emits
  rw [← map_marks_eq_self]
  constructor
  · rintro ⟨bytes', frame, hframes', hparse', hmarks⟩
    rw [hframes, List.append_cancel_left_eq, List.cons.injEq] at hframes'
    obtain ⟨rfl, -⟩ := hframes'
    obtain rfl := Option.some.inj (hparse.symm.trans hparse')
    rwa [processAck_empty] at hmarks
  · intro hmarks
    exact ⟨bytes, _, hframes, hparse, by rwa [processAck_empty]⟩

/-- Block 0 has arrived, and its sender waits for the acknowledgement. -/
theorem tells_fail : ¬ ∀ r s : VariableARQ, r.Tells s := by
  intro h
  obtain ⟨bytes, frame, hframes, hparse, hmarks⟩ := h { rxBitmap := fun i => i = 0 }
    { txBlocks := [{ sequence := 0, offset := 0, data := [] }] }
  obtain ⟨bytes', hframes', hparse'⟩ := sendAck_emits { rxBitmap := fun i => i = 0 }
  rw [hframes', List.append_cancel_left_eq, List.cons.injEq] at hframes
  obtain ⟨rfl, -⟩ := hframes
  obtain rfl := Option.some.inj (hparse'.symm.trans hparse)
  rw [processAck_empty] at hmarks
  revert hmarks
  decide

end VariableARQ

end OpenALE.Fs1052
