import Mathlib.Data.List.Induction

/-!
# Runs of a transition function

A system is a function `step : σ → ι → ρ × σ` that answers an input and moves to the next state.
`final step s is` is the state after the inputs `is`.  `final_induction` is the rule by which
invariants are proved along a run: it hands the step the inputs that came before.
-/

namespace ZeroTrustFL

universe u v w

variable {σ : Type u} {ι : Type v} {ρ : Type w}

/-- The state after a list of inputs. -/
def final (step : σ → ι → ρ × σ) (s : σ) (is : List ι) : σ := is.foldl (fun s i => (step s i).2) s

@[simp] theorem final_nil (step : σ → ι → ρ × σ) (s : σ) : final step s [] = s := rfl

theorem final_append (step : σ → ι → ρ × σ) (s : σ) (is js : List ι) :
    final step s (is ++ js) = final step (final step s is) js := List.foldl_append

theorem final_concat (step : σ → ι → ρ × σ) (s : σ) (is : List ι) (i : ι) :
    final step s (is ++ [i]) = (step (final step s is) i).2 := by simp [final]

theorem final_cons (step : σ → ι → ρ × σ) (s : σ) (i : ι) (is : List ι) :
    final step s (i :: is) = final step (step s i).2 is := rfl

/-- A property of the inputs so far and the state they lead to holds along every run when it holds
at the start and every step keeps it. -/
theorem final_induction {step : σ → ι → ρ × σ} {s : σ} {P : List ι → σ → Prop} (start : P [] s)
    (next : ∀ is i, P is (final step s is) → P (is ++ [i]) (step (final step s is) i).2) :
    ∀ is, P is (final step s is) := by
  intro is
  induction is using List.reverseRecOn with
  | nil => exact start
  | append_singleton is i ih =>
    rw [final_concat]
    exact next is i ih

/-- A property of states that every step keeps holds along every run. -/
theorem final_invariant {step : σ → ι → ρ × σ} {s : σ} {P : σ → Prop} (start : P s)
    (next : ∀ s i, P s → P (step s i).2) (is : List ι) : P (final step s is) :=
  final_induction (P := fun _ s => P s) start (fun _ i h => next _ i h) is

end ZeroTrustFL
