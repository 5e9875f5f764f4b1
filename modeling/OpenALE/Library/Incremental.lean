import Mathlib

/-!
# Incremental reading

A reader takes frames from the front of a buffer as long as it finds whole ones. `scan` looks at
the buffer: it waits for more, finds a frame, or stops the session; `handle` takes the frame, and
may stop the session as well. What arrives later is put behind what is left.

Results:
* `feed_append`, `foldl_feed`: what is read does not depend on how the input is cut.
* `drain_flatMap`: frames that are written one behind the other are read one by one.
-/

namespace Incremental

variable {σ β φ : Type*}

/-- What the front of a buffer is. -/
inductive Scan (β φ : Type*) where
  | waits
  | stops
  | frame (f : φ) (rest : List β)

/-- A session: open with the bytes that are left, or stopped. -/
inductive Session (σ β : Type*) where
  | opened (s : σ) (buf : List β)
  | stopped (s : σ)

/-- A look at a buffer that more bytes do not change, once it is not to wait. -/
structure Stable (scan : List β → Scan β φ) : Prop where
  shorter : ∀ buf f rest, scan buf = .frame f rest → rest.length < buf.length
  frame : ∀ buf f rest more, scan buf = .frame f rest → scan (buf ++ more) = .frame f (rest ++ more)
  stops : ∀ buf more, scan buf = .stops → scan (buf ++ more) = .stops

variable (scan : List β → Scan β φ) (handle : σ → φ → σ × Bool) (stop : σ → σ)

/-- Take frames until there is no whole one; `stop` is what the end of the session does. -/
def drain : Nat → σ → List β → Session σ β
  | 0, s, buf => .opened s buf
  | fuel + 1, s, buf =>
    match scan buf with
    | .waits => .opened s buf
    | .stops => .stopped (stop s)
    | .frame f rest =>
      match handle s f with
      | (s, true) => .stopped (stop s)
      | (s, false) => drain fuel s rest

/-- What arrives. -/
def feed : Session σ β → List β → Session σ β
  | .opened s buf, chunk => drain scan handle stop ((buf ++ chunk).length + 1) s (buf ++ chunk)
  | .stopped s, _ => .stopped s

variable {scan}

/-- More fuel than bytes changes nothing. -/
theorem drain_fuel (h : Stable scan) {m n : Nat} {s : σ} {buf : List β} (hm : buf.length < m)
    (hn : buf.length < n) : drain scan handle stop m s buf = drain scan handle stop n s buf := by
  induction m generalizing n s buf with
  | zero => omega
  | succ m ih =>
    obtain ⟨n, rfl⟩ := Nat.exists_eq_add_of_lt (Nat.zero_lt_of_lt hn)
    rw [Nat.zero_add] at hn ⊢
    unfold drain
    cases hscan : scan buf with
    | waits => rfl
    | stops => rfl
    | frame f rest =>
      have hshorter := h.shorter buf f rest hscan
      dsimp only
      obtain ⟨s', closed⟩ := handle s f
      cases closed with
      | true => rfl
      | false => exact ih (by omega) (by omega)

/-- Reading on, with more bytes behind what was left. -/
theorem drain_append (h : Stable scan) {n : Nat} {s : σ} {buf : List β} (more : List β)
    (hn : buf.length < n) : feed scan handle stop (drain scan handle stop n s buf) more =
      drain scan handle stop ((buf ++ more).length + 1) s (buf ++ more) := by
  induction n generalizing s buf with
  | zero => omega
  | succ n ih =>
    rw [drain]
    cases hscan : scan buf with
    | waits => rfl
    | stops =>
      dsimp only
      rw [drain, h.stops buf more hscan]
      rfl
    | frame f rest =>
      have hshorter := h.shorter buf f rest hscan
      dsimp only
      rw [drain, h.frame buf f rest more hscan]
      dsimp only
      obtain ⟨s', closed⟩ := handle s f
      cases closed with
      | true => rfl
      | false =>
        dsimp only
        rw [ih (by omega)]
        refine drain_fuel handle stop h (by omega) ?_
        simp only [List.length_append]
        omega

/-- **Two pieces** are read like one. -/
theorem feed_append (h : Stable scan) (x : Session σ β) (a b : List β) :
    feed scan handle stop (feed scan handle stop x a) b = feed scan handle stop x (a ++ b) := by
  cases x with
  | stopped s => rfl
  | opened s buf =>
    have hopened : ∀ c, feed scan handle stop (.opened s buf) c =
        drain scan handle stop ((buf ++ c).length + 1) s (buf ++ c) := fun c => rfl
    rw [hopened a, hopened (a ++ b), ← List.append_assoc]
    exact drain_append handle stop h b (Nat.lt_succ_self _)

/-- **The pieces** of an input are read like the whole, behind one that has been read. -/
theorem foldl_feed (h : Stable scan) (x : Session σ β) (a : List β) (chunks : List (List β)) :
    chunks.foldl (feed scan handle stop) (feed scan handle stop x a) =
      feed scan handle stop x (a ++ chunks.flatten) := by
  induction chunks generalizing a with
  | nil => rw [List.foldl_nil, List.flatten_nil, List.append_nil]
  | cons chunk chunks ih =>
    rw [List.foldl_cons, feed_append handle stop h, ih, List.flatten_cons, List.append_assoc]

/-- From an empty buffer on, the pieces are read like the whole. -/
theorem foldl_feed_nil (h : Stable scan) (hnil : scan [] = .waits) (s : σ)
    (chunks : List (List β)) : chunks.foldl (feed scan handle stop) (.opened s []) =
      feed scan handle stop (.opened s []) chunks.flatten := by
  have hrest : feed scan handle stop (.opened s []) [] = .opened s [] := by
    unfold feed
    dsimp only
    rw [drain, List.append_nil, hnil]
  conv_lhs => rw [← hrest]
  exact foldl_feed handle stop h _ [] chunks

variable {handle}

/-- **Frames one behind the other** are handled one by one, if none of them stops the session. -/
theorem drain_flatMap (h : Stable scan) {γ : Type*} (write : γ → List β) (frame : γ → φ)
    {gs : List γ} (hscan : ∀ g ∈ gs, ∀ rest, scan (write g ++ rest) = .frame (frame g) rest)
    (hopen : ∀ g ∈ gs, ∀ s, (handle s (frame g)).2 = false) (hnil : scan [] = .waits)
    {n : Nat} (hn : (gs.flatMap write).length < n) (s : σ) :
    drain scan handle stop n s (gs.flatMap write) =
      .opened (gs.foldl (fun s g => (handle s (frame g)).1) s) [] := by
  induction gs generalizing n s with
  | nil =>
    obtain ⟨n, rfl⟩ := Nat.exists_eq_add_of_lt hn
    rw [List.flatMap_nil, List.foldl_nil, drain, hnil]
  | cons g gs ih =>
    obtain ⟨n, rfl⟩ := Nat.exists_eq_add_of_lt (Nat.zero_lt_of_lt hn)
    have hg := hscan g List.mem_cons_self (gs.flatMap write)
    have hshorter := h.shorter _ _ _ hg
    rw [← List.flatMap_cons] at hshorter
    rw [Nat.zero_add] at hn ⊢
    rw [List.flatMap_cons, List.foldl_cons, drain, hg]
    dsimp only
    rw [show handle s (frame g) = ((handle s (frame g)).1, false) from
      Prod.ext rfl (hopen g List.mem_cons_self s)]
    exact ih (fun g' hg' => hscan g' (List.mem_cons_of_mem g hg'))
      (fun g' hg' => hopen g' (List.mem_cons_of_mem g hg')) (by omega) _

end Incremental
