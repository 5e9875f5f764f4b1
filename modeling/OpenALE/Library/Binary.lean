import Mathlib

/-!
# Readers of binary files

A `Reader` takes bytes from the front of a file. It fails where the file is too short, and it leaves
behind the notes it made on its way, whether it fails or not: a program that acts while it still
reads has done so.

Results:
* `Runs.bind`, `Reads.bind`, `runs_many`, `reads_many`: what was written piece by piece is read back piece by piece.
* `Ensures.bind`, `ensures_many`: what is read has the properties its pieces ensure.
-/

/-- A reader with notes of type `ρ`: the notes, and the value with the bytes behind it. -/
def Binary.Reader (ρ α : Type) : Type := List UInt8 → List ρ × Option (α × List UInt8)

namespace Binary

variable {ρ α β : Type}

namespace Reader

/-- One reader behind another. -/
protected def bind (x : Reader ρ α) (f : α → Reader ρ β) : Reader ρ β := fun s =>
  match (x s).2 with
  | none => ((x s).1, none)
  | some (a, rest) => ((x s).1 ++ (f a rest).1, (f a rest).2)

instance : Monad (Reader ρ) where
  pure a := fun s => ([], some (a, s))
  bind := Reader.bind

/-- The reader that fails. -/
def fail : Reader ρ α := fun _ => ([], none)

/-- Make a note. -/
def note (r : ρ) : Reader ρ Unit := fun s => ([r], some ((), s))

/-- The next `n` bytes. -/
def take (n : Nat) : Reader ρ (List UInt8) := fun s =>
  ([], if n ≤ s.length then some (s.take n, s.drop n) else none)

/-- The next `n` bytes, read into a place that keeps what there is of them. -/
def takeInto (n : Nat) (g : List UInt8 → ρ) : Reader ρ (List UInt8) := fun s =>
  ([g (s.take n)], if n ≤ s.length then some (s.take n, s.drop n) else none)

/-- The next byte. -/
def u8 : Reader ρ UInt8
  | [] => ([], none)
  | b :: s => ([], some (b, s))

/-- The number of these bytes, the lowest first. -/
def decode (bs : List UInt8) : Nat := bs.foldr (fun b v => b.toNat + 256 * v) 0

/-- The next four bytes, as a number. -/
def u32 : Reader ρ UInt32 := do
  let bs ← take 4
  pure (UInt32.ofNat (decode bs))

/-- `n` values. -/
def many (n : Nat) (x : Reader ρ α) : Reader ρ (List α) :=
  match n with
  | 0 => pure []
  | n + 1 => do
    let a ← x
    let as ← many n x
    pure (a :: as)

end Reader

/-- The four bytes of a number, the lowest first. -/
def encode32 (n : UInt32) : List UInt8 :=
  [UInt8.ofNat n.toNat, UInt8.ofNat (n.toNat / 256), UInt8.ofNat (n.toNat / 65536),
    UInt8.ofNat (n.toNat / 16777216)]

open Reader

variable {x : Reader ρ α} {f : α → Reader ρ β} {a : α} {b : β} {e e' : List UInt8}

theorem snd_bind (s : List UInt8) :
    ((x >>= f) s).2 = (x s).2.bind fun p => (f p.1 p.2).2 := by
  change (Reader.bind x f s).2 = _
  unfold Reader.bind
  cases (x s).2 <;> rfl

theorem fst_bind_some {s rest : List UInt8} (h : (x s).2 = some (a, rest)) :
    ((x >>= f) s).1 = (x s).1 ++ (f a rest).1 := by
  change (Reader.bind x f s).1 = _
  rw [Reader.bind, h]

theorem fst_bind_none {s : List UInt8} (h : (x s).2 = none) : ((x >>= f) s).1 = (x s).1 := by
  change (Reader.bind x f s).1 = _
  rw [Reader.bind, h]

/-! ## Reading what was written -/

/-- These bytes are read as this value with these notes, whatever follows. -/
def Runs (x : Reader ρ α) (e : List UInt8) (notes : List ρ) (a : α) : Prop :=
  ∀ rest, x (e ++ rest) = (notes, some (a, rest))

section runs

variable {ns ns' : List ρ}

theorem runs_pure (a : α) : Runs (pure a : Reader ρ α) [] [] a := fun _ => rfl

theorem Runs.bind (hx : Runs x e ns a) (hf : Runs (f a) e' ns' b) :
    Runs (x >>= f) (e ++ e') (ns ++ ns') b := by
  intro rest
  have hfst := hx (e' ++ rest)
  rw [List.append_assoc]
  refine Prod.ext ?_ ?_
  · rw [fst_bind_some (by rw [hfst]), hfst, hf]
  · rw [snd_bind, hfst, Option.bind_some, hf]

theorem Runs.map {g : α → β} (hx : Runs x e ns a) :
    Runs (x >>= fun a => pure (g a)) e ns (g a) := by
  have h := hx.bind (f := fun a => pure (g a)) (runs_pure (g a))
  rwa [List.append_nil, List.append_nil] at h

theorem runs_note (r : ρ) : Runs (note r) [] [r] () := fun _ => rfl

/-- A reader behind a note. -/
theorem Runs.after_note {y : Reader ρ α} (r : ρ) (h : Runs y e ns a) :
    Runs (note r >>= fun _ => y) e (r :: ns) a := (runs_note r).bind h

theorem runs_take (bs : List UInt8) : Runs (take bs.length : Reader ρ _) bs [] bs := by
  intro rest
  simp [Reader.take]

theorem runs_takeInto (g : List UInt8 → ρ) (bs : List UInt8) :
    Runs (takeInto bs.length g) bs [g bs] bs := by
  intro rest
  simp [Reader.takeInto]

theorem runs_u8 (b : UInt8) : Runs (u8 : Reader ρ _) [b] [] b := fun _ => rfl

theorem decode_encode32 (n : UInt32) : UInt32.ofNat (decode (encode32 n)) = n := by
  have hlt := n.toNat_lt
  have hval : decode (encode32 n) = n.toNat := by
    simp only [decode, encode32, List.foldr_cons, List.foldr_nil, UInt8.toNat_ofNat']
    omega
  rw [hval, UInt32.ofNat_toNat]

theorem runs_u32 (n : UInt32) : Runs (u32 : Reader ρ _) (encode32 n) [] n := by
  have h : Runs (u32 : Reader ρ _) (encode32 n) [] (UInt32.ofNat (decode (encode32 n))) :=
    (runs_take (encode32 n)).map
  rwa [decode_encode32] at h

theorem runs_many {enc : α → List UInt8} {noted : α → List ρ} {read : α → β} {as : List α}
    {y : Reader ρ β} (h : ∀ a ∈ as, Runs y (enc a) (noted a) (read a)) :
    Runs (many as.length y) (as.flatMap enc) (as.flatMap noted) (as.map read) := by
  induction as with
  | nil => exact runs_pure []
  | cons a as ih =>
    have htail := ih fun b hb => h b (List.mem_cons_of_mem _ hb)
    exact (h a List.mem_cons_self).bind (htail.map (g := fun as => read a :: as))

end runs

/-- These bytes are read as this value, whatever follows and whatever is noted. -/
def Reads (x : Reader ρ α) (e : List UInt8) (a : α) : Prop :=
  ∀ rest, (x (e ++ rest)).2 = some (a, rest)

theorem Runs.reads {ns : List ρ} (h : Runs x e ns a) : Reads x e a := fun rest => by rw [h rest]

theorem Reads.bind (hx : Reads x e a) (hf : Reads (f a) e' b) : Reads (x >>= f) (e ++ e') b := by
  intro rest
  rw [snd_bind, List.append_assoc, hx, Option.bind_some, hf]

theorem Reads.map {g : α → β} (hx : Reads x e a) : Reads (x >>= fun a => pure (g a)) e (g a) := by
  have h := hx.bind (f := fun a => pure (g a)) (runs_pure (g a)).reads
  rwa [List.append_nil] at h

/-- A reader behind a note. -/
theorem Reads.after_note {y : Reader ρ α} (r : ρ) (h : Reads y e a) :
    Reads (note r >>= fun _ => y) e a := (runs_note r).reads.bind h

theorem reads_take (bs : List UInt8) : Reads (take bs.length : Reader ρ _) bs bs :=
  (runs_take bs).reads

theorem reads_u8 (b : UInt8) : Reads (u8 : Reader ρ _) [b] b := (runs_u8 b).reads

theorem reads_u32 (n : UInt32) : Reads (u32 : Reader ρ _) (encode32 n) n := (runs_u32 n).reads

theorem reads_many {enc : α → List UInt8} {as : List α} (h : ∀ a ∈ as, Reads x (enc a) a) :
    Reads (many as.length x) (as.flatMap enc) as := by
  induction as with
  | nil => exact (runs_pure []).reads
  | cons a as ih =>
    have htail := ih fun b hb => h b (List.mem_cons_of_mem _ hb)
    exact (h a List.mem_cons_self).bind (htail.map (g := fun as => a :: as))

/-! ## What is read -/

/-- Every value read has this property. -/
def Ensures (x : Reader ρ α) (P : α → Prop) : Prop :=
  ∀ s a rest, (x s).2 = some (a, rest) → P a

variable {P : α → Prop} {Q : β → Prop}

theorem ensures_pure (h : P a) : Ensures (pure a : Reader ρ α) P := by
  intro s a' rest ha
  cases ha
  exact h

theorem ensures_fail : Ensures (fail : Reader ρ α) P := by
  intro s a rest h
  cases h

theorem ensures_any : Ensures x fun _ => True := fun _ _ _ _ => trivial

theorem Ensures.bind (hx : Ensures x P) (hf : ∀ a, P a → Ensures (f a) Q) :
    Ensures (x >>= f) Q := by
  intro s b rest h
  rw [snd_bind, Option.bind_eq_some_iff] at h
  obtain ⟨⟨a, s'⟩, ha, hb⟩ := h
  exact hf a (hx s a s' ha) s' b rest hb

/-- A reader behind one of which nothing is needed. -/
theorem ensures_bind (hf : ∀ a, Ensures (f a) Q) : Ensures (x >>= f) Q :=
  ensures_any.bind fun a _ => hf a

theorem take_eq_some {n : Nat} {s bs rest : List UInt8}
    (h : (take n s : List ρ × _).2 = some (bs, rest)) :
    n ≤ s.length ∧ bs = s.take n ∧ rest = s.drop n := by
  unfold Reader.take at h
  dsimp only at h
  split at h
  · cases h
    exact ⟨‹_›, rfl, rfl⟩
  · cases h

theorem u32_eq_some {s rest : List UInt8} {v : UInt32}
    (h : (u32 s : List ρ × _).2 = some (v, rest)) :
    4 ≤ s.length ∧ v = UInt32.ofNat (decode (s.take 4)) := by
  unfold u32 at h
  rw [snd_bind, Option.bind_eq_some_iff] at h
  obtain ⟨⟨bs, rest'⟩, hbs, h⟩ := h
  obtain ⟨hlen, rfl, -⟩ := take_eq_some hbs
  cases h
  exact ⟨hlen, rfl⟩

theorem ensures_take (n : Nat) : Ensures (take n : Reader ρ _) fun bs => bs.length = n := by
  intro s bs rest h
  obtain ⟨hn, rfl, -⟩ := take_eq_some h
  rw [List.length_take, min_eq_left hn]

theorem ensures_many (hx : Ensures x P) (n : Nat) :
    Ensures (many n x) fun as => as.length = n ∧ ∀ a ∈ as, P a := by
  induction n with
  | zero => exact ensures_pure ⟨rfl, fun a ha => by cases ha⟩
  | succ n ih =>
    refine hx.bind fun a ha => ih.bind fun as has => ensures_pure ⟨?_, ?_⟩
    · rw [List.length_cons, has.1]
    · intro b hb
      obtain rfl | hb := List.mem_cons.mp hb
      · exact ha
      · exact has.2 b hb

/-! ## What is noted -/

/-- Every note has this property, whether the reader fails or not. -/
def Notes (x : Reader ρ α) (N : ρ → Prop) : Prop := ∀ s, ∀ r ∈ (x s).1, N r

variable {N : ρ → Prop}

theorem notes_pure : Notes (pure a : Reader ρ α) N := fun _ _ h => by cases h

theorem notes_fail : Notes (fail : Reader ρ α) N := fun _ _ h => by cases h

theorem notes_note {r : ρ} (h : N r) : Notes (note r) N := fun _ _ hr => by
  rw [List.mem_singleton.mp hr]
  exact h

theorem notes_take (n : Nat) : Notes (take n : Reader ρ _) N := fun _ _ h => by cases h

theorem notes_takeInto {g : List UInt8 → ρ} (n : Nat) (h : ∀ bs, N (g bs)) :
    Notes (takeInto n g) N := fun _ _ hr => by
  rw [List.mem_singleton.mp hr]
  exact h _

theorem notes_u8 : Notes (u8 : Reader ρ _) N := fun s _ h => by cases s <;> cases h

theorem Notes.bind (hx : Notes x N) (hf : ∀ a, Notes (f a) N) : Notes (x >>= f) N := by
  intro s r hr
  cases h : (x s).2 with
  | none =>
    rw [fst_bind_none h] at hr
    exact hx s r hr
  | some p =>
    obtain ⟨a, rest⟩ := p
    rw [fst_bind_some h] at hr
    exact (List.mem_append.mp hr).elim (hx s r) (hf a rest r)

theorem notes_u32 : Notes (u32 : Reader ρ _) N := (notes_take 4).bind fun _ => notes_pure

theorem notes_many (hx : Notes x N) (n : Nat) : Notes (many n x) N := by
  induction n with
  | zero => exact notes_pure
  | succ n ih => exact hx.bind fun _ => ih.bind fun _ => notes_pure

end Binary
