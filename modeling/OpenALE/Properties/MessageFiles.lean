import OpenALE.App.MessageStore
import OpenALE.Library.Machine

/-!
# The message store and its file

The store keeps within its capacity by itself. A file brings its own capacity and its own count, and
nothing compares the two; and every count is a request for memory before anything of what it counts
is read.
-/

namespace OpenALE

namespace MessageStore

variable {s : MessageStore} {grants : Request → Bool}

/-- A call of the store's interface. -/
inductive Op where
  | push (msg : StoredMessage)
  | popOldest
  | clear
  | load (file : Option (List UInt8))

/-- One call. -/
def step (grants : Request → Bool) (s : MessageStore) : Op → MessageStore
  | .push msg => s.push msg
  | .popOldest => s.popOldest
  | .clear => { s with messages := [] }
  | .load file => (s.load grants file).2

/-- The newest messages, as many as there is room for. -/
def newest (capacity : Nat) (ms : List StoredMessage) : List StoredMessage :=
  ms.drop (ms.length - capacity)

/-- Where memory suffices, the file of the store restores its messages. -/
def Restores (s : MessageStore) : Prop :=
  (s.load (fun _ => true) (some s.save)).1 = .loaded ∧
    (s.load (fun _ => true) (some s.save)).2.messages = s.messages

/-- The store is within its capacity, and its file restores it. -/
def WellFormed (s : MessageStore) : Prop := s.messages.length ≤ s.capacity ∧ s.Restores

/-- What one call keeps: a new message goes behind the newest of the others; a load does not throw,
and one that fails changes nothing. -/
def Keeps (grants : Request → Bool) (s : MessageStore) : Op → Prop
  | .push msg => (s.push msg).messages = newest s.capacity (s.messages ++ [msg])
  | .popOldest => s.popOldest.messages = s.messages.tail
  | .clear => True
  | .load file => (s.load grants file).1 ≠ .thrown ∧
      ((s.load grants file).1 = .failed → (s.load grants file).2 = s)

/-- What a call must bring: a message whose lengths fit their counts, to a store whose length does;
a file whose counts ask for no more memory than there is, and whose header does not count more
messages than it has room for, if the file is complete. -/
def Admits (grants : Request → Bool) (s : MessageStore) : Op → Prop
  | .push msg => Fits msg ∧ min (s.messages.length + 1) s.capacity < 2 ^ 32
  | .load (some bytes) => (∀ r ∈ (readStore bytes).1, grants r = true) ∧
      ∀ cap count rest, (readHeader bytes).2 = some ((cap, count), rest) →
        (readStore bytes).2.isSome = true → count.toNat ≤ max cap.toNat minMessages
  | _ => True

/-! ## The file -/

theorem load_of_granted {bytes : List UInt8} (h : ∀ r ∈ (readStore bytes).1, grants r = true) :
    s.load grants (some bytes) = match (readStore bytes).2 with
      | none => (.failed, s)
      | some ((cap, loaded), _) => (.loaded, ⟨loaded, max cap.toNat minMessages⟩) := by
  unfold load
  dsimp only
  rw [if_pos (List.all_eq_true.mpr h)]
  cases (readStore bytes).2 with
  | none => rfl
  | some p =>
    dsimp only
    congr 2
    split <;> omega

/-- **The file restores exactly the stores in which nothing is too long for its count.** -/
theorem restores_iff : s.Restores ↔ Counted s.messages ∧ ∀ m ∈ s.messages, Fits m := by
  have hload := @load_of_granted s (fun _ => true) s.save fun _ _ => rfl
  constructor
  · rintro ⟨hloaded, hmessages⟩
    rw [hload] at hloaded hmessages
    cases hread : (readStore s.save).2 with
    | none =>
      rw [hread] at hloaded
      cases hloaded
    | some p =>
      obtain ⟨⟨cap, ms⟩, rest⟩ := p
      rw [hread] at hmessages
      have heq : ms = s.messages := hmessages
      exact heq ▸ (ensures_store hread).2
  · rintro ⟨hcounted, hfits⟩
    have hread := reads_store hcounted hfits []
    rw [List.append_nil] at hread
    rw [Restores, hload, hread]
    exact ⟨rfl, rfl⟩

/-! ## One call -/

/-- The invariant. -/
structure Sound (s : MessageStore) : Prop where
  bounded : s.messages.length ≤ s.capacity
  room : minMessages ≤ s.capacity
  counted : Counted s.messages
  fits : ∀ m ∈ s.messages, Fits m

theorem Sound.wellFormed (h : s.Sound) : s.WellFormed :=
  ⟨h.bounded, restores_iff.mpr ⟨h.counted, h.fits⟩⟩

theorem length_push (h : s.Sound) (msg : StoredMessage) :
    (s.push msg).messages.length = min (s.messages.length + 1) s.capacity := by
  have hb := h.bounded
  have hr : 12 ≤ s.capacity := h.room
  unfold push
  dsimp only
  split
  · rw [List.length_append, List.length_drop, List.length_singleton]
    omega
  · rw [List.length_append, List.length_singleton]
    omega

theorem push_newest (h : s.Sound) (msg : StoredMessage) :
    (s.push msg).messages = newest s.capacity (s.messages ++ [msg]) := by
  have hb := h.bounded
  have hr : 12 ≤ s.capacity := h.room
  unfold push newest
  rw [List.length_append, List.length_singleton]
  dsimp only
  split
  · rename_i hfull
    have hone : s.messages.length + 1 - s.capacity = 1 := by omega
    rw [hone, List.drop_append_of_le_length (by omega)]
  · rename_i hroom
    have hzero : s.messages.length + 1 - s.capacity = 0 := by omega
    rw [hzero, List.drop_zero]

theorem Sound.step (h : s.Sound) (op : Op) (hop : s.Admits grants op) :
    (s.step grants op).Sound := by
  cases op with
  | push msg =>
    have hlen := length_push h msg
    refine ⟨?_, h.room, ?_, ?_⟩
    · change (s.push msg).messages.length ≤ s.capacity
      omega
    · change (s.push msg).messages.length < _
      rw [hlen]
      exact hop.2
    · intro m hm
      change m ∈ (s.push msg).messages at hm
      rw [push_newest h] at hm
      obtain hm | hm := List.mem_append.mp (List.mem_of_mem_drop hm)
      · exact h.fits m hm
      · rw [List.mem_singleton.mp hm]
        exact hop.1
  | popOldest =>
    have hlen : (s.messages.drop 1).length ≤ s.messages.length := by
      rw [List.length_drop]
      omega
    exact ⟨hlen.trans h.bounded, h.room, hlen.trans_lt h.counted,
      fun m hm => h.fits m (List.mem_of_mem_drop hm)⟩
  | clear => exact ⟨Nat.zero_le _, h.room, counted_nil, fun m hm => by cases hm⟩
  | load file =>
    cases file with
    | none => exact h
    | some bytes =>
      change (s.load grants (some bytes)).2.Sound
      rw [load_of_granted hop.1]
      cases hread : (readStore bytes).2 with
      | none => exact h
      | some p =>
        obtain ⟨⟨cap, ms⟩, rest⟩ := p
        obtain ⟨⟨rest', hheader⟩, hcounted, hfits⟩ := ensures_store hread
        have hle := hop.2 _ _ _ hheader (by rw [hread]; rfl)
        rw [toNat_count hcounted] at hle
        exact ⟨hle, le_max_right _ _, hcounted, hfits⟩

theorem keeps_of_admits (h : s.Sound) (op : Op) (hop : s.Admits grants op) : s.Keeps grants op := by
  cases op with
  | push msg => exact push_newest h msg
  | popOldest => exact List.drop_one
  | clear => trivial
  | load file =>
    cases file with
    | none => exact ⟨nofun, fun _ => rfl⟩
    | some bytes =>
      change (s.load grants (some bytes)).1 ≠ .thrown ∧
        ((s.load grants (some bytes)).1 = .failed → (s.load grants (some bytes)).2 = s)
      rw [load_of_granted hop.1]
      cases (readStore bytes).2 with
      | none => exact ⟨nofun, fun _ => rfl⟩
      | some p => exact ⟨nofun, fun hfailed => by cases hfailed⟩

theorem not_keeps_of_not_admits (h : s.Sound) (op : Op) (hop : ¬ s.Admits grants op)
    (hwell : (s.step grants op).WellFormed) : ¬ s.Keeps grants op := by
  obtain ⟨hbounded, hrestores⟩ := hwell
  rw [restores_iff] at hrestores
  cases op with
  | push msg =>
    have hlast : msg ∈ (s.push msg).messages := by simp [push]
    have hlen := length_push h msg
    have hcounted : (s.push msg).messages.length < 2 ^ 32 := hrestores.1
    exact absurd ⟨hrestores.2 msg hlast, hlen ▸ hcounted⟩ hop
  | popOldest => exact absurd trivial hop
  | clear => exact absurd trivial hop
  | load file =>
    cases file with
    | none => exact absurd trivial hop
    | some bytes =>
      rintro ⟨hthrown, -⟩
      by_cases hgranted : ∀ r ∈ (readStore bytes).1, grants r = true
      · refine hop ⟨hgranted, fun cap count rest hheader hcomplete => ?_⟩
        obtain ⟨⟨⟨cap', ms⟩, rest'⟩, hread⟩ := Option.isSome_iff_exists.mp hcomplete
        obtain ⟨⟨rest'', hheader'⟩, hcounted, -⟩ := ensures_store hread
        rw [hheader'] at hheader
        simp only [Option.some.injEq, Prod.mk.injEq] at hheader
        obtain ⟨⟨rfl, rfl⟩, -⟩ := hheader
        rw [toNat_count hcounted]
        change (s.load grants (some bytes)).2.messages.length ≤
          (s.load grants (some bytes)).2.capacity at hbounded
        rw [load_of_granted hgranted, hread] at hbounded
        exact hbounded
      · refine hthrown ?_
        unfold load
        dsimp only
        rw [if_neg]
        rwa [List.all_eq_true]

/-- A file with room for 12 messages and 13 empty ones. -/
def crowded : List UInt8 :=
  save ⟨List.replicate 13 {}, minMessages⟩

end MessageStore

end OpenALE
