import Mathlib

/-!
# While — loops that may not end

A loop is what one turn does to its variables: it ends with a result, or
goes on. `EndsIn turn s a`: from `s` the loop ends with `a`, after any
number of turns. A loop ends where every turn decreases a measure, and
never ends where a turn changes nothing.
-/

namespace While

variable {σ α : Type}

/-- At most `fuel` turns; `none`: the loop is still running. -/
def run (turn : σ → α ⊕ σ) : Nat → σ → Option α
  | 0, _ => none
  | fuel + 1, s =>
      match turn s with
      | .inl a => some a
      | .inr s' => run turn fuel s'

def EndsIn (turn : σ → α ⊕ σ) (s : σ) (a : α) : Prop := ∃ fuel, run turn fuel s = some a

variable {turn : σ → α ⊕ σ} {s s' : σ} {a b : α}

theorem endsIn_of_done (h : turn s = .inl a) : EndsIn turn s b ↔ b = a := by
  constructor
  · intro ⟨fuel, hrun⟩
    cases fuel with
    | zero => cases hrun
    | succ fuel =>
        simp only [run, h, Option.some.injEq] at hrun
        exact hrun.symm
  · intro hb
    exact ⟨1, by simp only [run, h, hb]⟩

theorem endsIn_of_turn (h : turn s = .inr s') : EndsIn turn s a ↔ EndsIn turn s' a := by
  constructor
  · intro ⟨fuel, hrun⟩
    cases fuel with
    | zero => cases hrun
    | succ fuel =>
        simp only [run, h] at hrun
        exact ⟨fuel, hrun⟩
  · intro ⟨fuel, hrun⟩
    exact ⟨fuel + 1, by simp only [run, h, hrun]⟩

/-- A turn that changes nothing is repeated for ever. -/
theorem not_endsIn_of_stuck (h : turn s = .inr s) : ¬EndsIn turn s a := by
  intro ⟨fuel, hrun⟩
  induction fuel with
  | zero => cases hrun
  | succ fuel ih =>
      simp only [run, h] at hrun
      exact ih hrun

/-- A loop ends with one result only. -/
theorem EndsIn.unique (h : EndsIn turn s a) (h' : EndsIn turn s b) : a = b := by
  obtain ⟨fuel, hrun⟩ := h
  induction fuel generalizing s with
  | zero => cases hrun
  | succ fuel ih =>
      cases hturn : turn s with
      | inl c =>
          simp only [run, hturn, Option.some.injEq] at hrun
          exact hrun.symm.trans ((endsIn_of_done hturn).mp h').symm
      | inr s' =>
          simp only [run, hturn] at hrun
          exact ih ((endsIn_of_turn hturn).mp h') hrun

/-- **Termination**: under the invariant `I` every turn ends the loop or
decreases the measure. -/
theorem exists_endsIn {I : σ → Prop} (μ : σ → Nat)
    (hstep : ∀ s s', I s → turn s = .inr s' → I s' ∧ μ s' < μ s) (hs : I s) :
    ∃ a, EndsIn turn s a := by
  induction hμ : μ s using Nat.strong_induction_on generalizing s with
  | _ n ih =>
      cases hturn : turn s with
      | inl a => exact ⟨a, (endsIn_of_done hturn).mpr rfl⟩
      | inr s' =>
          obtain ⟨hs', hless⟩ := hstep s s' hs hturn
          obtain ⟨a, ha⟩ := ih (μ s') (hμ ▸ hless) hs' rfl
          exact ⟨a, (endsIn_of_turn hturn).mpr ha⟩

/-- **Partial correctness**: a relation that every last turn establishes
and every other one passes on. -/
theorem EndsIn.spec {I : σ → Prop} {P : σ → α → Prop} (h : EndsIn turn s a) (hs : I s)
    (hdone : ∀ s a, I s → turn s = .inl a → P s a)
    (hstep : ∀ s s', I s → turn s = .inr s' → I s' ∧ ∀ a, P s' a → P s a) : P s a := by
  obtain ⟨fuel, hrun⟩ := h
  induction fuel generalizing s with
  | zero => cases hrun
  | succ fuel ih =>
      cases hturn : turn s with
      | inl c =>
          simp only [run, hturn, Option.some.injEq] at hrun
          exact hrun ▸ hdone s c hs hturn
      | inr s' =>
          simp only [run, hturn] at hrun
          obtain ⟨hs', hpass⟩ := hstep s s' hs hturn
          exact hpass a (ih hs' hrun)

end While
