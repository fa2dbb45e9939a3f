import Mathlib

/-!
# Simulation — labelled runs and forward simulation

`Steps step s as t`: the labels `as`, one step each, lead from `s` to
`t`. A simulation matches every step by one of the abstract system, or by
none where the label is not observed (`Steps.simulate`).
-/

namespace Simulation

variable {σ τ α β : Type}

inductive Steps (step : σ → α → σ → Prop) : σ → List α → σ → Prop
  | nil (s : σ) : Steps step s [] s
  | cons {s t u : σ} {a : α} {as : List α} (h : step s a t) (hs : Steps step t as u) :
      Steps step s (a :: as) u

variable {step : σ → α → σ → Prop} {step' : τ → β → τ → Prop} {s s' : σ} {as : List α}

namespace Steps

theorem append {s t u : σ} {as bs : List α} (h : Steps step s as t) (h' : Steps step t bs u) :
    Steps step s (as ++ bs) u := by
  induction h with
  | nil => exact h'
  | cons hstep _ ih => exact .cons hstep (ih h')

/-- **Invariants**. -/
theorem invariant {I : σ → Prop} (h : Steps step s as s')
    (hI : ∀ s a t, I s → step s a t → I t) (hs : I s) : I s' := by
  induction h with
  | nil => exact hs
  | cons hstep _ ih => exact ih (hI _ _ _ hs hstep)

/-- **Forward simulation**: an observed label is a step of the abstract
system, any other one leaves its state alone. -/
theorem simulate {R : σ → τ → Prop} (obs : α → Option β) (h : Steps step s as s')
    (hstep : ∀ s a s' t, R s t → step s a s' →
      (obs a = none → R s' t) ∧ ∀ b, obs a = some b → ∃ t', step' t b t' ∧ R s' t')
    {t : τ} (hs : R s t) : ∃ t', Steps step' t (as.filterMap obs) t' ∧ R s' t' := by
  induction h generalizing t with
  | nil => exact ⟨t, .nil t, hs⟩
  | @cons s s₁ s' a as h₁ _ ih =>
      obtain ⟨hsilent, hseen⟩ := hstep s a s₁ t hs h₁
      cases hobs : obs a with
      | none =>
          rw [List.filterMap_cons_none hobs]
          exact ih (hsilent hobs)
      | some b =>
          obtain ⟨t₁, hb, hR⟩ := hseen b hobs
          obtain ⟨t', hrest, hlast⟩ := ih hR
          rw [List.filterMap_cons_some hobs]
          exact ⟨t', .cons hb hrest, hlast⟩

/-- Every label is observed. -/
theorem simulate_all {step' : τ → α → τ → Prop} {R : σ → τ → Prop} (h : Steps step s as s')
    (hstep : ∀ s a s' t, R s t → step s a s' → ∃ t', step' t a t' ∧ R s' t') {t : τ}
    (hs : R s t) : ∃ t', Steps step' t as t' ∧ R s' t' := by
  have hsim : ∃ t', Steps step' t (as.filterMap some) t' ∧ R s' t' := by
    apply h.simulate some _ hs
    intro s a s' t hR hstep₁
    exact ⟨nofun, fun b hb => Option.some.inj hb ▸ hstep s a s' t hR hstep₁⟩
  rwa [List.filterMap_some] at hsim

end Steps

end Simulation
