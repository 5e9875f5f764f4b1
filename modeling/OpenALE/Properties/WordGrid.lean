import OpenALE.Library.Machine
import OpenALE.Modem.WordGridTracker

/-!
# One report for each word

The tracker is shown candidates at growing positions, and silence. A candidate that passes the gate
waits in the refinement window; the best of the window is reported. Between two windows a word that
does not decode is reported at its place on the grid. The gate keeps its distance from the last
committed word only.

Results:
* `reported_iff`: the reports are those of distinct words exactly if no window commits a word that
  lies too near to an undecodable one reported before.
* `reported_fail`: one word is reported twice.
-/

namespace OpenALE

open WordGridTracker

/-- The tracker, with what it reported since it last lost the lock and the candidates it accepted
since it last committed one. -/
structure GridRun where
  tracker : WordGridTracker := {}
  now : Nat := 0
  events : List Report := []
  pending : List (Nat × DecodedCandidate) := []

/-- What the demodulator does; a candidate comes at least one sample after the last one. -/
inductive GridOp where
  | candidate (later : Nat) (c : DecodedCandidate)
  | silence

namespace GridRun

/-- The position of an operation. -/
def position (x : GridRun) : GridOp → Nat
  | .candidate later _ => x.now + later + 1
  | .silence => x.now

/-- The tracker's reaction. -/
def react (x : GridRun) : GridOp → WordGridTracker × List Report
  | .candidate later c => x.tracker.processCandidate c (x.now + later + 1)
  | .silence => x.tracker.onSilenceGap

/-- The candidate, if it is accepted. -/
def accepts (x : GridRun) : GridOp → List (Nat × DecodedCandidate)
  | .candidate later c =>
    if c.decodedOk && (x.tracker.settle (x.now + later + 1)).1.gateWord c (x.now + later + 1) then
      [(x.now + later + 1, c)]
    else []
  | .silence => []

/-- One operation. -/
def step (x : GridRun) (op : GridOp) : GridRun where
  tracker := (x.react op).1
  now := x.position op
  events := if (x.react op).1.gridLocked then x.events ++ (x.react op).2 else []
  pending := (if (x.react op).2.any (·.committed) then [] else x.pending) ++ x.accepts op

/-! ## The property -/

/-- Two reports are of different words. -/
def Apart (a b : Report) : Prop := a.pos + minSpacing ≤ b.pos

/-- A valid word of a type that locks the grid. -/
def Opens (e : Report) : Prop :=
  e.committed = true ∧ e.word.valid = true ∧ opensAddress e.word.type = true

/-- The operation ends the refinement window. -/
def Ends (x : GridRun) (op : GridOp) : Prop :=
  ∃ a, x.pending.head? = some a ∧
    (op = .silence ∨ samplesPerSymbol ≤ since (x.position op) a.1)

/-- The reports of an operation are as they should be. -/
structure Reported (x : GridRun) (op : GridOp) : Prop where
  spaced : (x.events ++ (x.react op).2).Pairwise Apart
  opens : ∀ e, (x.events ++ (x.react op).2).head? = some e → Opens e
  best : ∀ e ∈ (x.react op).2, e.committed = true →
    ∃ a ∈ x.pending, e.pos = a.1 ∧ e.word = a.2.word ∧
      ∀ b ∈ x.pending, ¬ a.2.wordEnergy < b.2.wordEnergy
  kept : x.Ends op → ∃ e ∈ (x.react op).2, e.committed = true

/-- The window that ends holds a candidate with an energy above the initial one, and the best lies
as far behind the last undecodable word as from a committed one. -/
def Keeps (x : GridRun) (op : GridOp) : Prop :=
  x.Ends op → -1 < x.tracker.ref.bestEnergy ∧
    (x.tracker.gridLocked = true → x.tracker.gridAnchor < x.tracker.uncorrAnchor →
      x.tracker.uncorrAnchor + minSpacing ≤ x.tracker.ref.bestPos)

/-! ## The invariant -/

/-- The best candidate of the window. -/
def Chosen (x : GridRun) : Prop :=
  -1 < x.tracker.ref.bestEnergy ∧ ∃ a ∈ x.pending, a.1 = x.tracker.ref.bestPos ∧
    a.2.word = x.tracker.ref.bestWord ∧ a.2.wordEnergy = x.tracker.ref.bestEnergy ∧
      ∀ b ∈ x.pending, ¬ x.tracker.ref.bestEnergy < b.2.wordEnergy

/-- No candidate of the window has been chosen. -/
def Unchosen (x : GridRun) : Prop :=
  x.tracker.ref.bestEnergy = -1 ∧
    ∀ a ∈ x.pending, x.tracker.ref.bestPos < a.1 ∧ ¬ -1 < a.2.wordEnergy

/-- The tracker's anchors are the last reports, its window is what was accepted. -/
structure Inv (x : GridRun) : Prop where
  anchor_le : x.tracker.gridAnchor ≤ x.now
  uncorr_le : x.tracker.uncorrAnchor ≤ x.now
  best_le : x.tracker.ref.bestPos ≤ x.now
  spaced : x.events.Pairwise Apart
  opens : ∀ e, x.events.head? = some e → Opens e
  unlocked : x.tracker.gridLocked = false →
    x.events = [] ∧ ∀ a ∈ x.pending, opensAddress a.2.word.type = true
  locked : x.tracker.gridLocked = true →
    (∃ e, x.events.getLast? = some e ∧
      e.pos = max x.tracker.gridAnchor x.tracker.uncorrAnchor) ∧
      ∀ a ∈ x.pending, x.tracker.gridAnchor + minSpacing ≤ a.1
  active : x.tracker.ref.active = true ↔ x.pending ≠ []
  first : ∀ a, x.pending.head? = some a → x.tracker.ref.firstPos = a.1
  held : ∀ a ∈ x.pending, a.2.decodedOk = true ∧ x.tracker.uncorrAnchor < a.1 ∧ a.1 ≤ x.now
  best : x.pending ≠ [] → x.Chosen ∨ x.Unchosen

theorem since_le (pos anchor : Nat) : since pos anchor ≤ pos - anchor := Nat.mod_le _ _

/-- A report behind the last one. -/
theorem spaced_concat {events : List Report} {last e : Report} (h : events.Pairwise Apart)
    (hlast : events.getLast? = some last) (he : Apart last e) :
    (events ++ [e]).Pairwise Apart := by
  obtain ⟨init, rfl⟩ := List.getLast?_eq_some_iff.mp hlast
  rw [List.pairwise_append] at h ⊢
  refine ⟨List.pairwise_append.mpr h, List.pairwise_singleton _ _, fun a ha b hb => ?_⟩
  rw [List.mem_singleton.mp hb]
  obtain ha | ha := List.mem_append.mp ha
  · have hal : a.pos + minSpacing ≤ last.pos := h.2.2 a ha last (List.mem_singleton.mpr rfl)
    have hle : last.pos + minSpacing ≤ e.pos := he
    exact show a.pos + minSpacing ≤ e.pos by omega
  · rw [List.mem_singleton.mp ha]
    exact he

/-! ## The parts of a step -/

/-- The best candidate is reported. -/
def commit (x : GridRun) : GridRun :=
  { x with
    tracker := x.tracker.commitRefinedWord.1
    events := x.events ++ x.tracker.commitRefinedWord.2
    pending := [] }

/-- The lock is released. -/
def release (x : GridRun) (op : OperatingPoint) : GridRun :=
  { x with tracker := { x.tracker with op, gridLocked := false }, events := [] }

/-- What `Keeps` says of the window. -/
def Ready (x : GridRun) : Prop :=
  -1 < x.tracker.ref.bestEnergy ∧
    (x.tracker.gridLocked = true → x.tracker.gridAnchor < x.tracker.uncorrAnchor →
      x.tracker.uncorrAnchor + minSpacing ≤ x.tracker.ref.bestPos)

/-- The window's candidate, if it holds one. -/
theorem chosen_of_ready {x : GridRun} (h : x.Inv) (hpending : x.pending ≠ []) (hready : x.Ready) :
    x.Chosen := by
  obtain hchosen | hnone := h.best hpending
  · exact hchosen
  · have hlt := hready.1
    rw [hnone.1] at hlt
    exact absurd hlt (Float32.lt_asymm hlt)

/-- **The commit** of a window. -/
theorem inv_commit {x : GridRun} (h : x.Inv) (hpending : x.pending ≠ []) (hready : x.Ready) :
    x.commit.Inv := by
  obtain ⟨henergy, a, ha, hpos, hword, -, hmax⟩ := chosen_of_ready h hpending hready
  obtain ⟨hdecoded, huncorr, hnow⟩ := h.held a ha
  have hevent : x.commit.events = x.events ++ [⟨true, x.tracker.ref.bestPos, x.tracker.ref.bestWord⟩] :=
    rfl
  have hgrid : x.commit.events.Pairwise Apart ∧ ∀ e, x.commit.events.head? = some e → Opens e := by
    rw [hevent]
    cases hlock : x.tracker.gridLocked with
    | false =>
      obtain ⟨hnil, htypes⟩ := h.unlocked hlock
      rw [hnil]
      refine ⟨List.pairwise_singleton _ _, fun e he => ?_⟩
      obtain rfl := Option.some.inj he
      refine ⟨rfl, ?_, ?_⟩
      · rw [← hword]
        exact a.2.valid hdecoded
      · rw [← hword]
        exact htypes a ha
    | true =>
      obtain ⟨⟨last, hlast, hlastpos⟩, hfar⟩ := h.locked hlock
      refine ⟨spaced_concat h.spaced hlast ?_, fun e he => ?_⟩
      · have hanchor := hfar a ha
        have hready := hready.2 hlock
        unfold Apart
        dsimp only
        omega
      · obtain ⟨init, hinit⟩ := List.getLast?_eq_some_iff.mp hlast
        refine h.opens e ?_
        rw [hinit] at he ⊢
        cases init with
        | nil => exact he
        | cons b init => exact he
  refine ⟨?_, ?_, ?_, hgrid.1, hgrid.2, ?_, ?_, ?_, ?_, ?_, ?_⟩
  · exact h.best_le
  · exact h.uncorr_le
  · exact h.best_le
  · intro hfalse
    cases hfalse
  · intro _
    refine ⟨⟨⟨true, x.tracker.ref.bestPos, x.tracker.ref.bestWord⟩, ?_, ?_⟩, fun a ha => ?_⟩
    · rw [hevent]
      exact List.getLast?_concat
    · change x.tracker.ref.bestPos = max x.tracker.ref.bestPos x.tracker.uncorrAnchor
      omega
    · cases ha
  · exact ⟨nofun, fun hne => absurd rfl hne⟩
  · intro a ha
    cases ha
  · intro a ha
    cases ha
  · intro hne
    exact absurd rfl hne

/-- The release of the lock while no window is open. -/
theorem inv_release {x : GridRun} (h : x.Inv) (hpending : x.pending = []) (op : OperatingPoint) :
    (x.release op).Inv := by
  refine ⟨h.anchor_le, h.uncorr_le, h.best_le, List.Pairwise.nil, ?_, ?_, ?_, h.active, h.first,
    h.held, h.best⟩
  · intro e he
    cases he
  · intro _
    refine ⟨rfl, fun a ha => ?_⟩
    rw [show (x.release op).pending = x.pending from rfl, hpending] at ha
    cases ha
  · intro htrue
    cases htrue

/-- A candidate is accepted. -/
def accept (x : GridRun) (pos : Nat) (c : DecodedCandidate) : GridRun :=
  { x with
    tracker := x.tracker.tryEmitDecoded c pos
    now := pos
    pending := x.pending ++ [(pos, c)] }

/-- What the gate says of a candidate. -/
theorem gate_cases {t : WordGridTracker} {c : DecodedCandidate} {pos : Nat}
    (h : t.gateWord c pos = true) :
    (t.gridLocked = false → opensAddress c.word.type = true) ∧
      (t.gridLocked = true → minSpacing ≤ since pos t.gridAnchor) := by
  unfold gateWord at h
  split at h
  · cases h
  · split at h
    · rename_i hlock
      exact ⟨fun _ => h, fun htrue => absurd (hlock.symm.trans htrue) Bool.false_ne_true⟩
    · rename_i hlock
      dsimp only at h
      split at h
      · cases h
      · rename_i hfar
        exact ⟨fun hfalse => absurd hfalse hlock, fun _ => not_lt.mp hfar⟩

/-- The window after a candidate. -/
theorem best_accept {x : GridRun} (h : x.Inv) {pos : Nat} (hpos : x.now < pos)
    (c : DecodedCandidate) : (x.accept pos c).Chosen ∨ (x.accept pos c).Unchosen := by
  have hmem : (pos, c) ∈ x.pending ++ [(pos, c)] :=
    List.mem_append_right _ (List.mem_singleton.mpr rfl)
  have hbest := h.best_le
  have htrue : ¬ true = false := Bool.false_ne_true.symm
  cases hactive : x.tracker.ref.active with
  | false =>
    have hnil : x.pending = [] := by
      by_contra hne
      rw [h.active.mpr hne] at hactive
      cases hactive
    unfold accept Chosen Unchosen tryEmitDecoded
    rw [hactive, hnil]
    dsimp only
    rw [if_pos rfl]
    by_cases henergy : c.wordEnergy > -1
    · rw [if_pos henergy]
      refine Or.inl ⟨henergy, (pos, c), List.mem_singleton.mpr rfl, rfl, rfl, rfl, fun b hb => ?_⟩
      rw [List.mem_singleton.mp hb]
      exact fun hlt => Float32.lt_asymm hlt hlt
    · rw [if_neg henergy]
      refine Or.inr ⟨rfl, fun b hb => ?_⟩
      rw [List.mem_singleton.mp hb]
      exact ⟨show x.tracker.ref.bestPos < pos by omega, henergy⟩
  | true =>
    have hne := h.active.mp hactive
    unfold accept Chosen Unchosen tryEmitDecoded
    rw [hactive]
    dsimp only
    rw [if_neg htrue]
    by_cases henergy : c.wordEnergy > x.tracker.ref.bestEnergy
    · rw [if_pos henergy]
      refine Or.inl ⟨?_, (pos, c), hmem, rfl, rfl, rfl, fun b hb => ?_⟩
      · obtain hchosen | hnone := h.best hne
        · exact Float32.lt_trans hchosen.1 henergy
        · rw [hnone.1] at henergy
          exact henergy
      · intro hlt
        obtain hb | hb := List.mem_append.mp hb
        · obtain ⟨-, a, -, -, -, -, hmax⟩ | hnone := h.best hne
          · exact hmax b hb (Float32.lt_trans henergy hlt)
          · rw [hnone.1] at henergy
            exact (hnone.2 b hb).2 (Float32.lt_trans henergy hlt)
        · rw [List.mem_singleton.mp hb] at hlt
          exact Float32.lt_asymm hlt hlt
    · rw [if_neg henergy]
      obtain ⟨hlt, a, ha, hapos, haword, haenergy, hmax⟩ | hnone := h.best hne
      · refine Or.inl ⟨hlt, a, List.mem_append_left _ ha, hapos, haword, haenergy, fun b hb => ?_⟩
        obtain hb | hb := List.mem_append.mp hb
        · exact hmax b hb
        · rw [List.mem_singleton.mp hb]
          exact henergy
      · refine Or.inr ⟨hnone.1, fun b hb => ?_⟩
        obtain hb | hb := List.mem_append.mp hb
        · exact hnone.2 b hb
        · rw [List.mem_singleton.mp hb]
          rw [hnone.1] at henergy
          exact ⟨show x.tracker.ref.bestPos < pos by omega, henergy⟩

/-- What `try_emit_decoded_` leaves and what it makes of the window. -/
theorem tryEmitDecoded_ref (t : WordGridTracker) (c : DecodedCandidate) (pos : Nat) :
    (t.tryEmitDecoded c pos).ref.active = true ∧
      (t.tryEmitDecoded c pos).ref.firstPos = (if t.ref.active = false then pos else t.ref.firstPos) ∧
      ((t.tryEmitDecoded c pos).ref.bestPos = t.ref.bestPos ∨
        (t.tryEmitDecoded c pos).ref.bestPos = pos) := by
  unfold tryEmitDecoded
  dsimp only
  cases hactive : t.ref.active with
  | false =>
    rw [if_pos rfl, if_pos rfl]
    split
    · exact ⟨rfl, rfl, Or.inr rfl⟩
    · exact ⟨rfl, rfl, Or.inl rfl⟩
  | true =>
    have htrue : ¬ true = false := Bool.false_ne_true.symm
    rw [if_neg htrue, if_neg htrue]
    split
    · exact ⟨hactive, rfl, Or.inr rfl⟩
    · exact ⟨hactive, rfl, Or.inl rfl⟩

/-- **A candidate** that passes the gate. -/
theorem inv_accept {x : GridRun} (h : x.Inv) {pos : Nat} (hpos : x.now < pos)
    {c : DecodedCandidate} (hdecoded : c.decodedOk = true)
    (hgate : x.tracker.gateWord c pos = true) : (x.accept pos c).Inv := by
  obtain ⟨htype, hfar⟩ := gate_cases hgate
  obtain ⟨hactive, hfirst, hbest⟩ := tryEmitDecoded_ref x.tracker c pos
  have hanchor := h.anchor_le
  have huncorr := h.uncorr_le
  have hbestle := h.best_le
  refine ⟨hanchor.trans hpos.le, huncorr.trans hpos.le, ?_, h.spaced, h.opens, ?_, ?_, ?_, ?_, ?_,
    fun _ => best_accept h hpos c⟩
  · change (x.tracker.tryEmitDecoded c pos).ref.bestPos ≤ pos
    omega
  · intro hlock
    obtain ⟨hnil, htypes⟩ := h.unlocked hlock
    refine ⟨hnil, fun a ha => ?_⟩
    obtain ha | ha := List.mem_append.mp ha
    · exact htypes a ha
    · rw [List.mem_singleton.mp ha]
      exact htype hlock
  · intro hlock
    obtain ⟨hlast, hfars⟩ := h.locked hlock
    refine ⟨hlast, fun a ha => ?_⟩
    obtain ha | ha := List.mem_append.mp ha
    · exact hfars a ha
    · rw [List.mem_singleton.mp ha]
      have hle := (hfar hlock).trans (since_le pos x.tracker.gridAnchor)
      change x.tracker.gridAnchor + minSpacing ≤ pos
      omega
  · exact ⟨fun _ => by simp [accept], fun _ => hactive⟩
  · intro a ha
    refine hfirst.trans ?_
    cases hpending : x.pending with
    | nil =>
      have hfalse : x.tracker.ref.active = false := by
        by_contra htrue
        exact h.active.mp (Bool.eq_true_of_not_eq_false htrue) hpending
      unfold accept at ha
      rw [hpending] at ha
      obtain rfl := Option.some.inj ha
      rw [if_pos hfalse]
    | cons b pending =>
      have htrue := h.active.mpr (by rw [hpending]; exact List.cons_ne_nil _ _)
      unfold accept at ha
      rw [hpending] at ha
      obtain rfl := Option.some.inj ha
      rw [htrue, if_neg (by decide)]
      exact h.first b (by rw [hpending]; rfl)
  · intro a ha
    obtain ha | ha := List.mem_append.mp ha
    · obtain ⟨hok, hlt, hle⟩ := h.held a ha
      exact ⟨hok, hlt, hle.trans hpos.le⟩
    · rw [List.mem_singleton.mp ha]
      exact ⟨hdecoded, huncorr.trans_lt hpos, le_refl _⟩

/-- A word that does not decode is reported. -/
def miss (x : GridRun) (pos : Nat) (word : ALEWord) : GridRun :=
  { x with
    tracker := { x.tracker with uncorrAnchor := pos }
    now := pos
    events := x.events ++ [⟨false, pos, word⟩] }

/-- **An undecodable word** on the grid. -/
theorem inv_miss {x : GridRun} (h : x.Inv) {pos : Nat} (hpos : x.now < pos) {word : ALEWord}
    (hlock : x.tracker.gridLocked = true) (hpending : x.pending = [])
    (hanchor : minSpacing ≤ since pos x.tracker.gridAnchor)
    (huncorr : minSpacing ≤ since pos x.tracker.uncorrAnchor) : (x.miss pos word).Inv := by
  obtain ⟨⟨last, hlast, hlastpos⟩, -⟩ := h.locked hlock
  have hanchor' := hanchor.trans (since_le pos x.tracker.gridAnchor)
  have huncorr' := huncorr.trans (since_le pos x.tracker.uncorrAnchor)
  have hmin : 0 < minSpacing := by decide
  have hnone : ∀ a, a ∉ (x.miss pos word).pending := by
    intro a ha
    rw [show (x.miss pos word).pending = x.pending from rfl, hpending] at ha
    cases ha
  refine ⟨?_, le_refl _, h.best_le.trans hpos.le, ?_, ?_, ?_, ?_, h.active, h.first, ?_, h.best⟩
  · exact h.anchor_le.trans hpos.le
  · refine spaced_concat h.spaced hlast ?_
    unfold Apart
    dsimp only
    omega
  · intro e he
    obtain ⟨init, hinit⟩ := List.getLast?_eq_some_iff.mp hlast
    refine h.opens e ?_
    unfold miss at he
    rw [hinit] at he ⊢
    cases init with
    | nil => exact he
    | cons b init => exact he
  · intro hfalse
    exact absurd (hlock.symm.trans hfalse) (by decide)
  · intro _
    refine ⟨⟨⟨false, pos, word⟩, List.getLast?_concat, ?_⟩, fun a ha => absurd ha (hnone a)⟩
    change pos = max x.tracker.gridAnchor pos
    have hle := h.anchor_le
    omega
  · intro a ha
    exact absurd ha (hnone a)

/-- Time passes. -/
theorem inv_pass {x : GridRun} (h : x.Inv) {pos : Nat} (hpos : x.now ≤ pos) :
    Inv { x with now := pos } :=
  ⟨h.anchor_le.trans hpos, h.uncorr_le.trans hpos, h.best_le.trans hpos, h.spaced, h.opens,
    h.unlocked, h.locked, h.active, h.first,
    fun a ha => ⟨(h.held a ha).1, (h.held a ha).2.1, (h.held a ha).2.2.trans hpos⟩, h.best⟩

/-! ## A step -/

theorem checkTimeout_cases (t : WordGridTracker) (pos : Nat) :
    t.checkTimeout pos = t ∨ t.ref.active = false ∧
      t.checkTimeout pos = { t with op := t.op.restoreBase, gridLocked := false } := by
  unfold checkTimeout
  split
  · rename_i htimeout
    exact Or.inr ⟨htimeout.2.1, rfl⟩
  · exact Or.inl rfl

/-- The tracker's window ends with the one of the property. -/
theorem ends_iff {x : GridRun} (h : x.Inv) (op : GridOp) : x.Ends op ↔
    match op with
    | .candidate later _ => x.tracker.closes (x.now + later + 1) = true
    | .silence => x.tracker.ref.active = true := by
  have hhead : (∃ a, x.pending.head? = some a) ↔ x.tracker.ref.active = true := by
    rw [h.active]
    cases x.pending with
    | nil => exact ⟨nofun, fun hne => absurd rfl hne⟩
    | cons a pending => exact ⟨fun _ => List.cons_ne_nil _ _, fun _ => ⟨a, rfl⟩⟩
  cases op with
  | silence =>
    dsimp only
    rw [← hhead]
    exact ⟨fun ⟨a, ha, _⟩ => ⟨a, ha⟩, fun ⟨a, ha⟩ => ⟨a, ha, Or.inl rfl⟩⟩
  | candidate later c =>
    unfold closes
    dsimp only
    rw [Bool.and_eq_true, ← hhead, decide_eq_true_iff]
    constructor
    · rintro ⟨a, ha, hend⟩
      rw [h.first a ha]
      exact ⟨⟨a, ha⟩, hend.resolve_left nofun⟩
    · rintro ⟨⟨a, ha⟩, hend⟩
      rw [h.first a ha] at hend
      exact ⟨a, ha, Or.inr hend⟩

/-- The state behind the commit. -/
def committed (x : GridRun) (op : GridOp) : GridRun :=
  match op with
  | .candidate later _ => if x.tracker.closes (x.now + later + 1) then x.commit else x
  | .silence => if x.tracker.ref.active then x.commit else x

/-- The reports of the commit. -/
def commitReports (x : GridRun) (op : GridOp) : List Report :=
  match op with
  | .candidate later _ =>
    if x.tracker.closes (x.now + later + 1) then x.tracker.commitRefinedWord.2 else []
  | .silence => if x.tracker.ref.active then x.tracker.commitRefinedWord.2 else []

/-- The commit happens when the window ends. -/
theorem committed_cases {x : GridRun} (h : x.Inv) (op : GridOp) :
    (x.Ends op ∧ x.committed op = x.commit ∧
        x.commitReports op = [⟨true, x.tracker.ref.bestPos, x.tracker.ref.bestWord⟩]) ∨
      ¬ x.Ends op ∧ x.committed op = x ∧ x.commitReports op = [] := by
  rw [ends_iff h op]
  unfold committed commitReports
  cases op with
  | candidate later c =>
    dsimp only
    cases hclose : x.tracker.closes (x.now + later + 1) with
    | true => exact Or.inl ⟨rfl, rfl, rfl⟩
    | false => exact Or.inr ⟨nofun, rfl, rfl⟩
  | silence =>
    dsimp only
    cases hactive : x.tracker.ref.active with
    | true => exact Or.inl ⟨rfl, rfl, rfl⟩
    | false => exact Or.inr ⟨nofun, rfl, rfl⟩

theorem committed_events {x : GridRun} (h : x.Inv) (op : GridOp) :
    (x.committed op).events = x.events ++ x.commitReports op ∧
      (x.committed op).pending =
        (if (x.commitReports op).any (·.committed) then [] else x.pending) ∧
      (x.committed op).now = x.now := by
  obtain ⟨-, hcommit, hreports⟩ | ⟨-, hcommit, hreports⟩ := committed_cases h op
  · rw [hcommit, hreports]
    exact ⟨rfl, rfl, rfl⟩
  · rw [hcommit, hreports]
    exact ⟨(List.append_nil _).symm, rfl, rfl⟩

theorem pending_ne_nil {x : GridRun} {op : GridOp} (h : x.Ends op) : x.pending ≠ [] := by
  obtain ⟨a, ha, -⟩ := h
  intro hnil
  rw [hnil] at ha
  cases ha

theorem inv_committed {x : GridRun} {op : GridOp} (h : x.Inv) (hop : x.Keeps op) :
    (x.committed op).Inv := by
  obtain ⟨hends, hcommit, -⟩ | ⟨-, hcommit, -⟩ := committed_cases h op
  · rw [hcommit]
    exact inv_commit h (pending_ne_nil hends) (hop hends)
  · rw [hcommit]
    exact h

theorem settle_eq (x : GridRun) (later : Nat) (c : DecodedCandidate) :
    x.tracker.settle (x.now + later + 1) =
      ((x.committed (.candidate later c)).tracker.checkTimeout (x.now + later + 1),
        x.commitReports (.candidate later c)) := by
  unfold settle committed commitReports
  dsimp only
  split <;> rfl

/-- The state behind the timeout. -/
theorem settle_cases {x : GridRun} {later : Nat} {c : DecodedCandidate} (h : x.Inv)
    (hop : x.Keeps (.candidate later c)) : ∃ z : GridRun, z.Inv ∧ z.now = x.now ∧
      z.tracker = (x.tracker.settle (x.now + later + 1)).1 ∧
      (x.tracker.settle (x.now + later + 1)).2 = x.commitReports (.candidate later c) ∧
      z.events = (if z.tracker.gridLocked then (x.committed (.candidate later c)).events else []) ∧
      z.pending = (x.committed (.candidate later c)).pending := by
  have hy := inv_committed h hop
  have hnow := (committed_events h (.candidate later c)).2.2
  rw [settle_eq x later c]
  obtain htimeout | ⟨hactive, htimeout⟩ :=
    checkTimeout_cases (x.committed (.candidate later c)).tracker (x.now + later + 1)
  · refine ⟨x.committed (.candidate later c), hy, hnow, htimeout.symm, rfl, ?_, rfl⟩
    split
    · rfl
    · rename_i hlock
      exact (hy.unlocked (Bool.eq_false_of_not_eq_true hlock)).1
  · have hnil : (x.committed (.candidate later c)).pending = [] := by
      by_contra hne
      rw [hy.active.mpr hne] at hactive
      cases hactive
    exact ⟨(x.committed (.candidate later c)).release _, inv_release hy hnil _, hnow,
      htimeout.symm, rfl, rfl, rfl⟩

/-- What `process_candidate` does with the candidate: it is accepted, reported as undecodable, or
passed over. -/
theorem processCandidate_cases (t : WordGridTracker) (c : DecodedCandidate) (pos : Nat) :
    (c.decodedOk = true ∧ (t.settle pos).1.gateWord c pos = true ∧
        t.processCandidate c pos = ((t.settle pos).1.tryEmitDecoded c pos, (t.settle pos).2)) ∨
      (c.decodedOk && (t.settle pos).1.gateWord c pos) = false ∧
        (((t.settle pos).1.ref.active = false ∧ (t.settle pos).1.gridLocked = true ∧
            minSpacing ≤ since pos (t.settle pos).1.gridAnchor ∧
            minSpacing ≤ since pos (t.settle pos).1.uncorrAnchor ∧
            t.processCandidate c pos = ({ (t.settle pos).1 with uncorrAnchor := pos },
              (t.settle pos).2 ++ [⟨false, pos, c.word⟩])) ∨
          t.processCandidate c pos = t.settle pos) := by
  unfold processCandidate
  dsimp only
  cases haccept : c.decodedOk && (t.settle pos).1.gateWord c pos with
  | true =>
    obtain ⟨hdecoded, hgate⟩ := (Bool.and_eq_true _ _).mp haccept
    rw [if_pos rfl]
    exact Or.inl ⟨hdecoded, hgate, rfl⟩
  | false =>
    rw [if_neg Bool.false_ne_true]
    refine Or.inr ⟨rfl, ?_⟩
    split
    · rename_i hmiss
      simp only [Bool.and_eq_true, Bool.not_eq_true'] at hmiss
      obtain ⟨⟨⟨⟨-, hactive⟩, hlock⟩, -⟩, -⟩ := hmiss
      unfold tryEmitUncorrectable
      dsimp only
      split
      · exact Or.inr (Prod.ext rfl (List.append_nil _))
      · rename_i hanchor
        split
        · rename_i hphase
          exact Or.inl ⟨hactive, hlock, not_lt.mp hanchor, hphase.2, rfl⟩
        · exact Or.inr (Prod.ext rfl (List.append_nil _))
    · exact Or.inr rfl

theorem any_committed_append_false (reports : List Report) (pos : Nat) (word : ALEWord) :
    (reports ++ [(⟨false, pos, word⟩ : Report)]).any (·.committed) =
      reports.any (·.committed) := by
  rw [List.any_append]
  exact Bool.or_false _

/-- **A candidate's step**: its state keeps the invariant, and its reports are those of the commit,
with an undecodable one behind them while the lock is held. -/
theorem candidate_step {x : GridRun} {later : Nat} {c : DecodedCandidate} (h : x.Inv)
    (hop : x.Keeps (.candidate later c)) : (x.step (.candidate later c)).Inv ∧
      ((x.react (.candidate later c)).2 = x.commitReports (.candidate later c) ∨
        ∃ e, (x.react (.candidate later c)).2 = x.commitReports (.candidate later c) ++ [e] ∧
          e.committed = false ∧
          (x.step (.candidate later c)).events =
            x.events ++ (x.react (.candidate later c)).2) := by
  obtain ⟨z, hz, hnow, htracker, hreports, hevents, hpending⟩ := settle_cases h hop
  obtain ⟨hcevents, hcpending, -⟩ := committed_events h (.candidate later c)
  rw [hcevents] at hevents
  rw [hcpending] at hpending
  have hpos : z.now < x.now + later + 1 := by omega
  have hreact : x.react (.candidate later c) =
      x.tracker.processCandidate c (x.now + later + 1) := rfl
  obtain ⟨hdecoded, hgate, hprocess⟩ | ⟨hno, ⟨hactive, hlock, hanchor, huncorr, hprocess⟩ | hprocess⟩ :=
    processCandidate_cases x.tracker c (x.now + later + 1)
  · rw [← htracker, hreports] at hprocess
    rw [← htracker] at hgate
    have hstep : x.step (.candidate later c) = z.accept (x.now + later + 1) c := by
      unfold step accept accepts
      rw [hreact, hprocess, hpending]
      dsimp only
      rw [hdecoded, ← htracker, hgate]
      have hlocked : (z.tracker.tryEmitDecoded c (x.now + later + 1)).gridLocked =
          z.tracker.gridLocked := rfl
      rw [hlocked, ← hevents]
      rfl
    rw [hstep, hreact, hprocess]
    exact ⟨inv_accept hz hpos hdecoded hgate, Or.inl rfl⟩
  · rw [← htracker, hreports] at hprocess
    rw [← htracker] at hactive hlock hanchor huncorr
    have hnil : z.pending = [] := by
      by_contra hne
      rw [hz.active.mpr hne] at hactive
      cases hactive
    have hstep : x.step (.candidate later c) = z.miss (x.now + later + 1) c.word := by
      unfold step miss accepts
      rw [hreact, hprocess, hevents, hlock, hpending]
      dsimp only
      rw [hno, any_committed_append_false, if_pos rfl, if_neg Bool.false_ne_true, List.append_nil,
        if_pos rfl, List.append_assoc]
      rfl
    rw [hstep, hreact, hprocess]
    refine ⟨inv_miss hz hpos hlock hnil hanchor huncorr, Or.inr ⟨_, rfl, rfl, ?_⟩⟩
    unfold miss
    rw [hevents, if_pos hlock, List.append_assoc]
  · rw [Prod.ext_iff, ← htracker, hreports] at hprocess
    have hstep : x.step (.candidate later c) = { z with now := x.now + later + 1 } := by
      unfold step accepts
      rw [hreact, hprocess.1, hprocess.2, hpending]
      dsimp only
      rw [hno, if_neg Bool.false_ne_true, List.append_nil, ← hevents]
      rfl
    rw [hstep, hreact, hprocess.2]
    exact ⟨inv_pass hz hpos.le, Or.inl rfl⟩

/-- A step of silence. -/
theorem silence_step {x : GridRun} (h : x.Inv) (hop : x.Keeps .silence) :
    (x.step .silence).Inv ∧ (x.react .silence).2 = x.commitReports .silence := by
  have hy := inv_committed h hop
  obtain ⟨-, hcpending, hcnow⟩ := committed_events h .silence
  have hreact : x.react .silence =
      ({ (x.committed .silence).tracker with
          op := if (x.committed .silence).tracker.gridLocked then
            (x.committed .silence).tracker.op.restoreBase else (x.committed .silence).tracker.op
          gridLocked := false }, x.commitReports .silence) := by
    unfold react onSilenceGap committed commitReports
    dsimp only
    split <;> rfl
  have hnil : (x.committed .silence).pending = [] := by
    obtain ⟨-, hcommit, -⟩ | ⟨hends, hcommit, -⟩ := committed_cases h .silence
    · rw [hcommit]
      rfl
    · rw [hcommit]
      by_contra hne
      exact hends ((ends_iff h .silence).mpr (h.active.mpr hne))
  have hstep : x.step .silence = (x.committed .silence).release
      (if (x.committed .silence).tracker.gridLocked then
        (x.committed .silence).tracker.op.restoreBase else (x.committed .silence).tracker.op) := by
    unfold step release accepts
    rw [hreact, hcpending, hcnow]
    dsimp only
    rw [List.append_nil]
    rfl
  rw [hstep, hreact]
  exact ⟨inv_release hy hnil _, rfl⟩

/-- The reports of a commit that is ready are as they should be. -/
theorem reported_commit {x : GridRun} {op : GridOp} (h : x.Inv) (hop : x.Keeps op) :
    (x.events ++ x.commitReports op).Pairwise Apart ∧
      (∀ e, (x.events ++ x.commitReports op).head? = some e → Opens e) ∧
      (∀ e ∈ x.commitReports op, e.committed = true → ∃ a ∈ x.pending, e.pos = a.1 ∧
        e.word = a.2.word ∧ ∀ b ∈ x.pending, ¬ a.2.wordEnergy < b.2.wordEnergy) ∧
      (x.Ends op → ∃ e ∈ x.commitReports op, e.committed = true) := by
  have hy := inv_committed h hop
  obtain ⟨hevents, -, -⟩ := committed_events h op
  rw [← hevents]
  refine ⟨hy.spaced, hy.opens, ?_⟩
  obtain ⟨hends, -, hreports⟩ | ⟨hends, -, hreports⟩ := committed_cases h op
  · rw [hreports]
    refine ⟨fun e he _ => ?_, fun _ => ⟨_, List.mem_singleton.mpr rfl, rfl⟩⟩
    obtain rfl := List.mem_singleton.mp he
    obtain ⟨-, a, ha, hpos, hword, henergy, hmax⟩ :=
      chosen_of_ready h (pending_ne_nil hends) (hop hends)
    refine ⟨a, ha, hpos.symm, hword.symm, fun b hb => ?_⟩
    rw [henergy]
    exact hmax b hb
  · rw [hreports]
    exact ⟨nofun, fun h => absurd h hends⟩

/-- **A step that keeps** keeps the invariant, and its reports are as they should be. -/
theorem inv_step {x : GridRun} {op : GridOp} (h : x.Inv) (hop : x.Keeps op) :
    (x.step op).Inv ∧ x.Reported op := by
  obtain ⟨hspaced, hopens, hbest, hkept⟩ := reported_commit h hop
  cases op with
  | silence =>
    obtain ⟨hinv, hreports⟩ := silence_step h hop
    rw [← hreports] at hspaced hopens hbest hkept
    exact ⟨hinv, hspaced, hopens, hbest, hkept⟩
  | candidate later c =>
    obtain ⟨hinv, hreports | ⟨e, hreports, he, hevents⟩⟩ := candidate_step h hop
    · rw [← hreports] at hspaced hopens hbest hkept
      exact ⟨hinv, hspaced, hopens, hbest, hkept⟩
    · refine ⟨hinv, ?_, ?_, fun e' he' hcommitted => ?_, fun hends => ?_⟩
      · rw [← hevents]
        exact hinv.spaced
      · rw [← hevents]
        exact hinv.opens
      · rw [hreports] at he'
        obtain he' | he' := List.mem_append.mp he'
        · exact hbest e' he' hcommitted
        · rw [List.mem_singleton.mp he', he] at hcommitted
          cases hcommitted
      · obtain ⟨e', he', hcommitted⟩ := hkept hends
        rw [hreports]
        exact ⟨e', List.mem_append_left _ he', hcommitted⟩

/-- The reports of a step are the commit's and undecodable ones. -/
theorem react_reports (x : GridRun) (op : GridOp) :
    ∃ reports, (x.react op).2 = x.commitReports op ++ reports ∧
      ∀ e ∈ reports, e.committed = false := by
  cases op with
  | silence =>
    refine ⟨[], ?_, nofun⟩
    rw [List.append_nil]
    unfold react onSilenceGap commitReports
    dsimp only
    split <;> rfl
  | candidate later c =>
    have hsettle := settle_eq x later c
    unfold react
    dsimp only
    obtain ⟨-, -, hprocess⟩ | ⟨-, ⟨-, -, -, -, hprocess⟩ | hprocess⟩ :=
      processCandidate_cases x.tracker c (x.now + later + 1)
    · rw [hprocess, hsettle]
      exact ⟨[], (List.append_nil _).symm, nofun⟩
    · rw [hprocess, hsettle]
      refine ⟨_, rfl, fun e he => ?_⟩
      rw [List.mem_singleton.mp he]
    · rw [hprocess, hsettle]
      exact ⟨[], (List.append_nil _).symm, nofun⟩

/-- A window that is not ready shows in its report. -/
theorem not_reported {x : GridRun} {op : GridOp} (h : x.Inv) (hop : ¬ x.Keeps op) :
    ¬ x.Reported op := by
  intro hreported
  refine hop fun hends => ?_
  obtain ⟨reports, hreports, -⟩ := react_reports x op
  obtain ⟨-, -, hcommit⟩ | ⟨hnot, -⟩ := committed_cases h op
  · rw [hcommit] at hreports
    have hmem : (⟨true, x.tracker.ref.bestPos, x.tracker.ref.bestWord⟩ : Report) ∈ (x.react op).2 := by
      rw [hreports]
      exact List.mem_cons_self
    constructor
    · obtain ⟨a, ha, hpos, -⟩ := hreported.best _ hmem rfl
      obtain hchosen | hnone := h.best (pending_ne_nil hends)
      · exact hchosen.1
      · have hlt := (hnone.2 a ha).1
        rw [← hpos] at hlt
        exact absurd hlt (lt_irrefl _)
    · intro hlock hlater
      obtain ⟨⟨last, hlast, hpos⟩, -⟩ := h.locked hlock
      have hapart := (List.pairwise_append.mp hreported.spaced).2.2 last
        (List.mem_of_getLast? hlast) _ hmem
      unfold Apart at hapart
      rw [hpos, max_eq_right hlater.le] at hapart
      exact hapart
  · exact absurd hends hnot

/-- **One report for each word**: the reports since the last loss of the lock are those of distinct
words, the first of a word that locks the grid, each valid one the best of its window, and no
window ends without one, exactly along the runs whose windows keep their distance from the last
undecodable word. -/
theorem reported_iff (op : OperatingPoint) (ops : List GridOp) :
    Machine.AllSteps step Reported { tracker := { op } } ops ↔
      Machine.AllSteps step Keeps { tracker := { op } } ops := by
  have h0 : Inv { tracker := { op } } := by
    refine ⟨le_refl _, le_refl _, le_refl _, List.Pairwise.nil, nofun, fun _ => ⟨rfl, nofun⟩, nofun,
      ⟨nofun, fun hne => absurd rfl hne⟩, nofun, nofun, fun hne => absurd rfl hne⟩
  have hiff : ∀ (x : GridRun) (op : GridOp), x.Inv → (x.Keeps op ↔ x.Reported op) := by
    intro x op h
    refine ⟨fun hop => (inv_step h hop).2, fun hr => ?_⟩
    by_contra hop
    exact not_reported h hop hr
  have hstep : ∀ (x : GridRun) (op : GridOp), x.Inv → x.Keeps op → (x.step op).Inv :=
    fun x op h hop => (inv_step h hop).1
  exact (Machine.allSteps_congr_of hstep hiff h0).symm

/-! ## A word reported twice -/

/-- A clean `TO`. -/
def cleanWord : DecodedCandidate where
  word := { type := .to, valid := true }
  fec := ⟨.ok, 0⟩
  unanimousVotes := 48
  wordEnergy := 1
  decodedOk := true
  valid _ := rfl

/-- A word that does not decode. -/
def mashedWord : DecodedCandidate where
  word := { golayUncorrectable := true }
  fec := ⟨.detected, 0⟩
  unanimousVotes := 40
  wordEnergy := 1
  decodedOk := false
  valid := nofun

/-- The next word does not decode at its place on the grid, and decodes four samples later. -/
theorem reported_fail : ¬ ∀ (op : OperatingPoint) (ops : List GridOp),
    Machine.AllSteps step Reported { tracker := { op } } ops := by
  intro h
  have hrun := h {} ([.candidate 3135 cleanWord, .candidate 63 mashedWord,
    .candidate 3071 mashedWord, .candidate 3 cleanWord] ++ [.candidate 63 mashedWord])
  have hspaced := (Machine.allSteps_append.mp hrun).2.1.spaced
  revert hspaced
  unfold Apart
  decide +kernel

end GridRun

end OpenALE
