import Mathlib

/-!
# Deterministic machines: runs and what holds along them

A machine is a step function `σ → α → σ`. `run` folds it over a list of operations. A run
satisfies a *step* property when every operation does in the state it is taken in, and a *state*
property when every state it visits does.

Results:
* `allStates_of_inv`: the invariant rule, with a condition on the steps.
* `allStates_iff_allSteps`: the rule's exact form, when a bad step shows at once.
* `allStates_and_allSteps_iff`: the exact form with a property of the steps beside.
* `allSteps_congr`, `allSteps_congr_of`: step properties that agree under an invariant.
* `allSteps_iff`, `allStates_iff`: both notions by splitting the run.
-/

namespace Machine

variable {σ α : Type*} (step : σ → α → σ)

/-- The state reached from `s` by the operations `as`. -/
def run (s : σ) (as : List α) : σ := as.foldl step s

/-- `P` holds of every step of the run. -/
def AllSteps (P : σ → α → Prop) : σ → List α → Prop
  | _, [] => True
  | s, a :: as => P s a ∧ AllSteps P (step s a) as

/-- `Q` holds of every state of the run, both ends included. -/
def AllStates (Q : σ → Prop) : σ → List α → Prop
  | s, [] => Q s
  | s, a :: as => Q s ∧ AllStates Q (step s a) as

instance AllSteps.decidable (P : σ → α → Prop) [DecidableRel P] :
    ∀ (s : σ) (as : List α), Decidable (AllSteps step P s as)
  | _, [] => isTrue trivial
  | s, a :: as =>
    have := AllSteps.decidable P (step s a) as
    inferInstanceAs (Decidable (_ ∧ _))

instance AllStates.decidable (Q : σ → Prop) [DecidablePred Q] :
    ∀ (s : σ) (as : List α), Decidable (AllStates step Q s as)
  | s, [] => inferInstanceAs (Decidable (Q s))
  | s, a :: as =>
    have := AllStates.decidable Q (step s a) as
    inferInstanceAs (Decidable (_ ∧ _))

variable {step} {P P' : σ → α → Prop} {Q Q' Inv : σ → Prop} {s : σ} {a : α} {as bs : List α}

@[simp] theorem run_nil : run step s [] = s := rfl

@[simp] theorem run_cons : run step s (a :: as) = run step (step s a) as := rfl

theorem run_append : run step s (as ++ bs) = run step (run step s as) bs := List.foldl_append

theorem allSteps_append :
    AllSteps step P s (as ++ bs) ↔ AllSteps step P s as ∧ AllSteps step P (run step s as) bs := by
  induction as generalizing s with
  | nil => simp [AllSteps]
  | cons a as ih => simp only [List.cons_append, AllSteps, ih, run_cons, and_assoc]

theorem AllStates.head (h : AllStates step Q s as) : Q s := by
  cases as with
  | nil => exact h
  | cons a as => exact h.1

theorem allStates_append :
    AllStates step Q s (as ++ bs) ↔ AllStates step Q s as ∧ AllStates step Q (run step s as) bs := by
  induction as generalizing s with
  | nil => exact ⟨fun h => ⟨h.head, h⟩, fun h => h.2⟩
  | cons a as ih => simp only [List.cons_append, AllStates, ih, run_cons, and_assoc]

theorem allStates_singleton (h : Q s) (h' : Q (step s a)) : AllStates step Q s [a] := ⟨h, h'⟩

theorem AllStates.last (h : AllStates step Q s as) : Q (run step s as) := by
  have h' : AllStates step Q s (as ++ []) := by rwa [List.append_nil]
  exact (allStates_append.mp h').2

theorem AllSteps.mono (h : AllSteps step P s as) (hP : ∀ s a, P s a → P' s a) :
    AllSteps step P' s as := by
  induction as generalizing s with
  | nil => trivial
  | cons a as ih => exact ⟨hP _ _ h.1, ih h.2⟩

theorem AllStates.mono (h : AllStates step Q s as) (hQ : ∀ s, Q s → Q' s) :
    AllStates step Q' s as := by
  induction as generalizing s with
  | nil => exact hQ _ h
  | cons a as ih => exact ⟨hQ _ h.1, ih h.2⟩

/-- A step property that follows from the state a step is taken in. -/
theorem AllStates.allSteps (h : AllStates step Q s as) (hQ : ∀ s a, Q s → P s a) :
    AllSteps step P s as := by
  induction as generalizing s with
  | nil => trivial
  | cons a as ih => exact ⟨hQ _ _ h.1, ih h.2⟩

/-- A step property of the whole run, at each of its steps. -/
theorem allSteps_iff :
    AllSteps step P s as ↔ ∀ pre a post, as = pre ++ a :: post → P (run step s pre) a := by
  constructor
  · rintro h pre a post rfl
    exact (allSteps_append.mp h).2.1
  · induction as generalizing s with
    | nil => intro _; trivial
    | cons b bs ih =>
      intro h
      refine ⟨h [] b bs rfl, ih fun pre a post e => ?_⟩
      exact h (b :: pre) a post (by rw [e]; rfl)

/-- A state property of the whole run, at each of its states. -/
theorem allStates_iff :
    AllStates step Q s as ↔ ∀ pre post, as = pre ++ post → Q (run step s pre) := by
  constructor
  · rintro h pre post rfl
    exact (allStates_append.mp h).1.last
  · induction as generalizing s with
    | nil => intro h; exact h [] [] rfl
    | cons b bs ih =>
      intro h
      refine ⟨h [] (b :: bs) rfl, ih fun pre post e => ?_⟩
      exact h (b :: pre) post (by rw [e]; rfl)

/-- **The invariant rule.** What every step that meets `P` keeps holds along every run whose steps
meet `P`. -/
theorem allStates_of_inv (hstep : ∀ s a, Inv s → P s a → Inv (step s a)) (h0 : Inv s)
    (h : AllSteps step P s as) : AllStates step Inv s as := by
  induction as generalizing s with
  | nil => exact h0
  | cons a as ih => exact ⟨h0, ih (hstep s a h0 h.1) h.2⟩

/-- The invariant rule without a condition. -/
theorem allStates_of_inv' (hstep : ∀ s a, Inv s → Inv (step s a)) (h0 : Inv s) (as : List α) :
    AllStates step Inv s as := by
  induction as generalizing s with
  | nil => exact h0
  | cons a as ih => exact ⟨h0, ih (hstep s a h0)⟩

/-- The invariant rule at the end of the run. -/
theorem inv_run (hstep : ∀ s a, Inv s → P s a → Inv (step s a)) (h0 : Inv s)
    (h : AllSteps step P s as) : Inv (run step s as) :=
  (allStates_of_inv hstep h0 h).last

/-- **The invariant rule, exact.** When a step that misses `P` leaves `Q` at once, `Q` along a run
says no more and no less than `P` at each of its steps. -/
theorem allStates_iff_allSteps (hstep : ∀ s a, Inv s → P s a → Inv (step s a))
    (hQ : ∀ s, Inv s → Q s) (hbad : ∀ s a, Inv s → ¬ P s a → ¬ Q (step s a)) (h0 : Inv s) :
    AllStates step Q s as ↔ AllSteps step P s as := by
  refine ⟨fun h => ?_, fun h => (allStates_of_inv hstep h0 h).mono hQ⟩
  induction as generalizing s with
  | nil => trivial
  | cons a as ih =>
    have hP : P s a := Classical.byContradiction fun hn => hbad s a h0 hn h.2.head
    exact ⟨hP, ih (hstep s a h0 hP) h.2⟩

/-- The exact rule for a state property and a step property at once. -/
theorem allStates_and_allSteps_iff {R : σ → α → Prop}
    (hstep : ∀ s a, Inv s → P s a → Inv (step s a)) (hQ : ∀ s, Inv s → Q s)
    (hR : ∀ s a, Inv s → P s a → R s a) (hbad : ∀ s a, Inv s → ¬ P s a → Q (step s a) → ¬ R s a)
    (h0 : Inv s) : AllStates step Q s as ∧ AllSteps step R s as ↔ AllSteps step P s as := by
  constructor
  · rintro ⟨h, h'⟩
    induction as generalizing s with
    | nil => trivial
    | cons a as ih =>
      have hP : P s a := Classical.byContradiction fun hn => hbad s a h0 hn h.2.head h'.1
      exact ⟨hP, ih (hstep s a h0 hP) h.2 h'.2⟩
  · intro h
    refine ⟨(allStates_of_inv hstep h0 h).mono hQ, ?_⟩
    induction as generalizing s with
    | nil => trivial
    | cons a as ih => exact ⟨hR s a h0 h.1, ih (hstep s a h0 h.1) h.2⟩

/-- Two step properties that agree in every state of an invariant agree along its runs. -/
theorem allSteps_congr (hstep : ∀ s a, Inv s → Inv (step s a))
    (hP : ∀ s a, Inv s → (P s a ↔ P' s a)) (h0 : Inv s) :
    AllSteps step P s as ↔ AllSteps step P' s as := by
  induction as generalizing s with
  | nil => exact Iff.rfl
  | cons a as ih => exact and_congr (hP s a h0) (ih (hstep s a h0))

/-- Two step properties that agree in every state of an invariant which the one keeps. -/
theorem allSteps_congr_of (hstep : ∀ s a, Inv s → P s a → Inv (step s a))
    (hP : ∀ s a, Inv s → (P s a ↔ P' s a)) (h0 : Inv s) :
    AllSteps step P s as ↔ AllSteps step P' s as := by
  induction as generalizing s with
  | nil => exact Iff.rfl
  | cons a as ih =>
    rw [AllSteps, AllSteps, ← hP s a h0]
    exact and_congr_right fun ha => ih (hstep s a h0 ha)

end Machine
