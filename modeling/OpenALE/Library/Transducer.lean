import Mathlib

/-!
# Transducers

A step takes a state and an input to the next state and some outputs; a run puts the outputs of its
steps one behind the other.

Results:
* `run_append`: a run in two parts.
* `run_flatten`: a run over blocks that are run over one by one is a run over what is in them.
-/

namespace Transducer

variable {σ α β : Type*} (step : σ → α → σ × List β)

/-- The inputs one after the other. -/
def run (s : σ) (as : List α) : σ × List β :=
  as.foldl (fun p a => ((step p.1 a).1, p.2 ++ (step p.1 a).2)) (s, [])

variable {step} {s : σ} {a : α} {as bs : List α}

@[simp] theorem run_nil : run step s [] = (s, []) := rfl

theorem run_concat : run step s (as ++ [a]) =
    ((step (run step s as).1 a).1, (run step s as).2 ++ (step (run step s as).1 a).2) := by
  rw [run, List.foldl_append]
  rfl

theorem run_append : run step s (as ++ bs) =
    ((run step (run step s as).1 bs).1, (run step s as).2 ++ (run step (run step s as).1 bs).2) := by
  induction bs using List.reverseRecOn with
  | nil => simp
  | append_singleton bs b ih => rw [← List.append_assoc, run_concat, ih, run_concat, List.append_assoc]

/-- **A run over blocks** that are each run over is a run over their elements. -/
theorem run_flatten {block : σ → List α → σ × List β}
    (hblock : ∀ s as, block s as = run step s as) (s : σ) (blocks : List (List α)) :
    run block s blocks = run step s blocks.flatten := by
  induction blocks using List.reverseRecOn with
  | nil => rfl
  | append_singleton blocks as ih =>
    rw [run_concat, ih, hblock, List.flatten_append, List.flatten_singleton, run_append]

end Transducer
