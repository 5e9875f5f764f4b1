import OpenALE.Library.Machine
import OpenALE.Library.Ring

/-!
# A ring between two threads

A ring of cells with one thread that writes and one that reads, without a lock. Each counts on in a
counter of its own, modulo a multiple of the number of cells, and publishes it when it is done with
the cells before it. Either may stop between any two of its steps: the loads, each cell, and the
publication are steps of their own.

Results:
* `Sound.step`: what every step keeps.
* `Ok.received_first`: what was read is what was taken over, in order, and nothing of it is missing.
-/

namespace Spsc

variable {α : Type*} {m : Nat}

/-- The cells and the counters, what either side still has to do with the number of its next
element, and what was taken over and read in all. -/
structure State (α : Type*) where
  cells : List α
  head : Nat := 0
  tail : Nat := 0
  sending : Option (List α × Nat) := none
  receiving : Option (Nat × Nat) := none
  accepted : List α := []
  received : List α := []
  deriving Repr, DecidableEq

inductive Op (α : Type*) where
  | beginPush (xs : List α)
  | write
  | endPush
  | beginPull (want : Nat)
  | read
  | endPull
  deriving Repr, DecidableEq

namespace State

/-- How many elements the counters say are in the ring. -/
def filled (m : Nat) (s : State α) : Nat := (s.head + m - s.tail) % m

/-- The writer loads the counters and takes over what fits. -/
def beginPush (m : Nat) (s : State α) (xs : List α) : State α :=
  match s.sending with
  | some _ => s
  | none =>
    let taken := xs.take (s.cells.length - s.filled m)
    { s with sending := some (taken, s.head), accepted := s.accepted ++ taken }

/-- It writes one cell. -/
def write (m : Nat) (s : State α) : State α :=
  match s.sending with
  | some (x :: rest, i) =>
    { s with cells := s.cells.set (i % s.cells.length) x, sending := some (rest, (i + 1) % m) }
  | _ => s

/-- It publishes its counter. -/
def endPush (s : State α) : State α :=
  match s.sending with
  | some ([], i) => { s with head := i, sending := none }
  | _ => s

/-- The reader loads the counters. -/
def beginPull (m : Nat) (s : State α) (want : Nat) : State α :=
  match s.receiving with
  | some _ => s
  | none => { s with receiving := some (min want (s.filled m), s.tail) }

/-- It reads one cell. -/
def read (m : Nat) (s : State α) : State α :=
  match s.receiving with
  | some (n + 1, i) =>
    { s with
      receiving := some (n, (i + 1) % m)
      received := s.received ++ (s.cells[i % s.cells.length]?).toList }
  | _ => s

/-- It publishes its counter. -/
def endPull (s : State α) : State α :=
  match s.receiving with
  | some (0, i) => { s with tail := i, receiving := none }
  | _ => s

def step (m : Nat) (s : State α) : Op α → State α
  | .beginPush xs => s.beginPush m xs
  | .write => s.write m
  | .endPush => s.endPush
  | .beginPull want => s.beginPull m want
  | .read => s.read m
  | .endPull => s.endPull

end State

/-- What was written, and what is published of it and of what was read, counted without bound. -/
structure Sound (m : Nat) (s : State α) (written : List α) (published released : Nat) : Prop where
  head : s.head = published % m
  tail : s.tail = released % m
  holds : Ring.Holds s.cells written
  accepted : s.accepted = written ++ (s.sending.map Prod.fst).getD []
  room : s.accepted.length ≤ released + s.cells.length
  published_le : published ≤ written.length
  released_le : released ≤ s.received.length
  received_le : s.received.length ≤ published
  received : s.received <+: written
  idle : s.sending = none → published = written.length
  next : ∀ rest i, s.sending = some (rest, i) → i = written.length % m
  rest : s.receiving = none → released = s.received.length
  pending : ∀ n i, s.receiving = some (n, i) →
    i = s.received.length % m ∧ s.received.length + n ≤ published

variable {s : State α} {written : List α} {published released : Nat}

/-- The difference of two counters that are not too far from each other. -/
theorem sub_mod_counters {a b : Nat} (hle : b ≤ a) (hlt : a - b < m) :
    (a % m + m - b % m) % m = a - b := by
  have hb := Nat.mod_lt b (by omega : 0 < m)
  have hsum : a % m + m - b % m + b % m = a % m + m := by omega
  have hcongr : a % m + m - b % m + b ≡ a - b + b [MOD m] := by
    calc a % m + m - b % m + b ≡ a % m + m - b % m + b % m [MOD m] :=
          (Nat.mod_modEq b m).symm.add_left _
      _ ≡ a % m + m [MOD m] := by rw [hsum]
      _ ≡ a [MOD m] := by rw [Nat.ModEq, Nat.add_mod_right, Nat.mod_mod]
      _ ≡ a - b + b [MOD m] := by rw [Nat.sub_add_cancel hle]
  have hmod : (a % m + m - b % m) % m = (a - b) % m := hcongr.add_right_cancel' b
  rw [hmod, Nat.mod_eq_of_lt hlt]

theorem Sound.filled (h : Sound m s written published released) (hm : s.cells.length < m) :
    s.filled m = published - released := by
  have hroom := h.room
  have hlen : written.length ≤ s.accepted.length := by
    rw [h.accepted, List.length_append]
    omega
  have hpublished := h.published_le
  have hreleased := h.released_le
  have hreceived := h.received_le
  rw [State.filled, h.head, h.tail]
  exact sub_mod_counters (by omega) (by omega)

/-- An element that was written and not read is in its cell. -/
theorem Sound.cell (h : Sound m s written published released) {i : Nat}
    (hlow : s.received.length ≤ i) (hhigh : i < written.length) :
    s.cells[i % s.cells.length]? = written[i]? := by
  refine h.holds i hhigh ?_
  have hroom := h.room
  have hreleased := h.released_le
  rw [h.accepted, List.length_append] at hroom
  omega

/-- The counters modulo `m` tell the cell. -/
theorem mod_cell {i n : Nat} (hdvd : n ∣ m) : i % m % n = i % n := Nat.mod_mod_of_dvd i hdvd

theorem succ_mod (i : Nat) : (i % m + 1) % m = (i + 1) % m := by
  rw [Nat.add_mod, Nat.mod_mod, ← Nat.add_mod]

/-- **What every step keeps.** -/
theorem Sound.step (h : Sound m s written published released) (hpos : 0 < s.cells.length)
    (hdvd : s.cells.length ∣ m) (hm : s.cells.length < m) (op : Op α) :
    ∃ written' published' released', Sound m (s.step m op) written' published' released' := by
  have hsame : ∃ written' published' released', Sound m s written' published' released' :=
    ⟨_, _, _, h⟩
  have hfilled := h.filled hm
  cases op with
  | beginPush xs =>
    unfold State.step State.beginPush
    dsimp only
    cases hsending : s.sending with
    | some push => exact hsame
    | none =>
      have hidle := h.idle hsending
      have haccepted : s.accepted = written := by rw [h.accepted, hsending]; exact List.append_nil _
      refine ⟨written, published, released, { h with
        accepted := by rw [haccepted]; rfl
        room := ?_
        idle := fun hnone => absurd hnone (Option.some_ne_none _)
        next := ?_ }⟩
      · have hroom := h.room
        have hreleased := h.released_le
        have hreceived := h.received_le
        dsimp only
        rw [List.length_append, haccepted, List.length_take, hfilled, hidle]
        rw [haccepted] at hroom
        omega
      · rintro rest i ⟨⟩
        rw [h.head, hidle]
  | write =>
    unfold State.step State.write
    dsimp only
    cases hsending : s.sending with
    | none => exact hsame
    | some push =>
      obtain ⟨_ | ⟨x, rest⟩, i⟩ := push
      · exact hsame
      · have hi := h.next _ _ hsending
        have haccepted : s.accepted = written ++ x :: rest := by rw [h.accepted, hsending]; rfl
        have hcells : s.cells.set (i % s.cells.length) x =
            Ring.push s.cells written.length x := by
          rw [Ring.push, hi, mod_cell hdvd]
        refine ⟨written ++ [x], published, released, { h with
          holds := ?_
          accepted := ?_
          room := ?_
          published_le := ?_
          received := h.received.trans (List.prefix_append _ _)
          idle := fun hnone => absurd hnone (Option.some_ne_none _)
          next := ?_ }⟩
        · dsimp only
          rw [hcells]
          exact h.holds.push hpos x
        · dsimp only
          rw [haccepted]
          exact List.append_cons _ _ _
        · dsimp only
          rw [List.length_set]
          exact h.room
        · have hle := h.published_le
          rw [List.length_append]
          omega
        · rintro rest' i' ⟨⟩
          rw [List.length_append, hi, succ_mod]
          rfl
  | endPush =>
    unfold State.step State.endPush
    dsimp only
    cases hsending : s.sending with
    | none => exact hsame
    | some push =>
      obtain ⟨_ | ⟨x, rest⟩, i⟩ := push
      · have hi := h.next _ _ hsending
        have haccepted : s.accepted = written := by rw [h.accepted, hsending]; exact List.append_nil _
        have hle := h.published_le
        refine ⟨written, written.length, released, { h with
          head := hi
          accepted := by rw [haccepted]; exact (List.append_nil _).symm
          published_le := le_rfl
          received_le := h.received_le.trans hle
          idle := fun _ => rfl
          next := fun _ _ hsome => absurd hsome.symm (Option.some_ne_none _)
          pending := ?_ }⟩
        intro n j hreceiving
        obtain ⟨hj, hlast⟩ := h.pending n j hreceiving
        exact ⟨hj, hlast.trans hle⟩
      · exact hsame
  | beginPull want =>
    unfold State.step State.beginPull
    dsimp only
    cases hreceiving : s.receiving with
    | some pull => exact hsame
    | none =>
      have hreleased := h.rest hreceiving
      have hreceived := h.received_le
      refine ⟨written, published, released, { h with
        rest := fun hnone => absurd hnone (Option.some_ne_none _)
        pending := ?_ }⟩
      rintro n i ⟨⟩
      dsimp only
      rw [h.tail, hreleased, hfilled]
      exact ⟨rfl, by omega⟩
  | read =>
    unfold State.step State.read
    dsimp only
    cases hreceiving : s.receiving with
    | none => exact hsame
    | some pull =>
      obtain ⟨_ | n, i⟩ := pull
      · exact hsame
      · obtain ⟨hi, hlast⟩ := h.pending _ _ hreceiving
        have hle := h.published_le
        have hlt : s.received.length < written.length := by omega
        have hcell : (s.cells[i % s.cells.length]?).toList = [written[s.received.length]] := by
          rw [hi, mod_cell hdvd, h.cell le_rfl hlt, List.getElem?_eq_getElem hlt]
          rfl
        have hlen : (s.received ++ [written[s.received.length]]).length = s.received.length + 1 := by
          rw [List.length_append]
          rfl
        have hreleased := h.released_le
        dsimp only
        rw [hcell]
        refine ⟨written, published, released, { h with
          released_le := ?_
          received_le := ?_
          received := ?_
          rest := fun hnone => absurd hnone (Option.some_ne_none _)
          pending := ?_ }⟩
        · dsimp only
          omega
        · dsimp only
          omega
        · have hsnoc := List.take_append_getElem hlt
          rw [← List.prefix_iff_eq_take.mp h.received] at hsnoc
          exact hsnoc ▸ List.take_prefix _ _
        · rintro n' i' ⟨⟩
          dsimp only
          rw [hlen, hi, succ_mod]
          exact ⟨rfl, by omega⟩
  | endPull =>
    unfold State.step State.endPull
    dsimp only
    cases hreceiving : s.receiving with
    | none => exact hsame
    | some pull =>
      obtain ⟨_ | n, i⟩ := pull
      · obtain ⟨hi, -⟩ := h.pending _ _ hreceiving
        have hroom := h.room
        have hreleased := h.released_le
        refine ⟨written, published, s.received.length, { h with
          tail := hi
          room := ?_
          released_le := le_rfl
          rest := fun _ => rfl
          pending := fun _ _ hsome => absurd hsome.symm (Option.some_ne_none _) }⟩
        change s.accepted.length ≤ s.received.length + s.cells.length
        omega
      · exact hsame

@[simp] theorem length_step (m : Nat) (s : State α) (op : Op α) :
    (s.step m op).cells.length = s.cells.length := by
  cases op with
  | write =>
    unfold State.step State.write
    dsimp only
    split
    · exact List.length_set
    · rfl
  | _ =>
    simp only [State.step, State.beginPush, State.endPush, State.beginPull, State.read,
      State.endPull]
    split <;> rfl

/-- The ring is in order. -/
def Ok (m : Nat) (s : State α) : Prop :=
  0 < s.cells.length ∧ s.cells.length ∣ m ∧ s.cells.length < m ∧
    ∃ written published released, Sound m s written published released

theorem ok_init {cells : List α} (hpos : 0 < cells.length) (hdvd : cells.length ∣ m)
    (hm : cells.length < m) : Ok m { cells } := by
  refine ⟨hpos, hdvd, hm, [], 0, 0, ?_⟩
  exact {
    head := (Nat.zero_mod m).symm
    tail := (Nat.zero_mod m).symm
    holds := Ring.holds_nil cells
    accepted := rfl
    room := Nat.zero_le _
    published_le := le_rfl
    released_le := le_rfl
    received_le := le_rfl
    received := List.prefix_rfl
    idle := fun _ => rfl
    next := nofun
    rest := fun _ => rfl
    pending := nofun }

theorem Ok.step (h : Ok m s) (op : Op α) : Ok m (s.step m op) := by
  obtain ⟨hpos, hdvd, hm, _, _, _, hsound⟩ := h
  unfold Ok
  rw [length_step]
  exact ⟨hpos, hdvd, hm, hsound.step hpos hdvd hm op⟩

/-- **What was read** is the first part of what was taken over; the rest fits into the cells. -/
theorem Ok.received_first (h : Ok m s) :
    s.received <+: s.accepted ∧ s.accepted.length ≤ s.received.length + s.cells.length := by
  obtain ⟨-, -, -, written, published, released, hsound⟩ := h
  have hroom := hsound.room
  have hreleased := hsound.released_le
  refine ⟨hsound.received.trans ?_, by omega⟩
  rw [hsound.accepted]
  exact List.prefix_append _ _

end Spsc
