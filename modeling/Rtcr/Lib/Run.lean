import Mathlib

/-!
# Run — finite runs of a labelled step relation

`Run step ok s t`: finitely many steps lead from `s` to `t`, and every
one of them is taken in a state where `ok` allows its label. The rule
`Run.invariant` is the only induction over runs.
-/

variable {σ α : Type}

/-- A run whose steps all meet the condition `ok`. -/
def Run (step : σ → α → σ → Prop) (ok : σ → α → Prop) : σ → σ → Prop :=
  Relation.ReflTransGen fun s t => ∃ a, ok s a ∧ step s a t

namespace Run

variable {step : σ → α → σ → Prop} {ok : σ → α → Prop}

theorem refl (s : σ) : Run step ok s s := Relation.ReflTransGen.refl

theorem tail {s t u : σ} {a : α} (h : Run step ok s t) (hok : ok t a) (hs : step t a u) :
    Run step ok s u :=
  Relation.ReflTransGen.tail h ⟨a, hok, hs⟩

/-- **Invariants**: what every allowed step preserves holds in every
state reached. -/
theorem invariant {I : σ → Prop} (hI : ∀ s a t, I s → ok s a → step s a t → I t) {s t : σ}
    (h : Run step ok s t) (hs : I s) : I t := by
  induction h with
  | refl => exact hs
  | tail _ hstep ih =>
      obtain ⟨a, hok, hst⟩ := hstep
      exact hI _ a _ ih hok hst

end Run
