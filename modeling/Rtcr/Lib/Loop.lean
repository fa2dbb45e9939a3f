import Mathlib

/-!
# Loop — a fallible step, element by element

`loop f ts s` runs the step `f` for every element of `ts`, front to back,
and stops at the first error. The rules are the usual ones of a loop:
what every step preserves, what the steps add up to, and when the loop
gets to its end.
-/

namespace Fallible

variable {ε σ τ α β : Type}

theorem bind_eq_ok {x : Except ε α} {f : α → Except ε β} {b : β} :
    (x >>= f) = .ok b ↔ ∃ a, x = .ok a ∧ f a = .ok b := by
  cases x <;> simp [bind, Except.bind]

/-- A call that is known by something of its result. -/
theorem exists_ok_of_map {x : Except ε α} {f : α → β} {b : β} (h : x.toOption.map f = some b) :
    ∃ a, x = .ok a ∧ f a = b := by
  cases x with
  | error e => cases h
  | ok a => exact ⟨a, rfl, Option.some.inj h⟩

/-- A property of the result can be checked by computing it. -/
instance decidableOnOk {P : α → Prop} [DecidablePred P] (x : Except ε α) :
    Decidable (∀ a, x = .ok a → P a) :=
  match x with
  | .ok a => decidable_of_iff (P a)
      ⟨fun h _ hb => Except.ok.inj hb ▸ h, fun h => h a rfl⟩
  | .error _ => isTrue fun _ h => nomatch h

def loop (f : τ → σ → Except ε σ) : List τ → σ → Except ε σ
  | [], s => .ok s
  | t :: ts, s => f t s >>= loop f ts

variable {f : τ → σ → Except ε σ} {s s' : σ}

@[simp] theorem loop_nil : loop f [] s = .ok s := rfl

theorem loop_cons_eq_ok {t : τ} {ts : List τ} :
    loop f (t :: ts) s = .ok s' ↔ ∃ s₁, f t s = .ok s₁ ∧ loop f ts s₁ = .ok s' := bind_eq_ok

theorem loop_cons_of_ok {t : τ} {ts : List τ} {s₁ : σ} (h : f t s = .ok s₁) :
    loop f (t :: ts) s = loop f ts s₁ := by
  rw [loop, h]
  rfl

/-- **Invariants**: what every step preserves. -/
theorem loop_keeps {I : σ → Prop} {ts : List τ}
    (hstep : ∀ t ∈ ts, ∀ s s', I s → f t s = .ok s' → I s') (h : loop f ts s = .ok s')
    (hs : I s) : I s' := by
  induction ts generalizing s with
  | nil => exact Except.ok.inj h ▸ hs
  | cons t ts ih =>
      obtain ⟨s₁, h₁, hrest⟩ := loop_cons_eq_ok.mp h
      exact ih (fun u hu => hstep u (by simp [hu])) hrest (hstep t (by simp) s s₁ hs h₁)

/-- **What the steps add up to**: `R ts s s'` holds of a whole loop if it
holds of an empty one and one more step in front keeps it. `I` is what
holds where the elements `ts` are still to come. -/
theorem loop_rel {I : List τ → σ → Prop} {R : List τ → σ → σ → Prop}
    (hnil : ∀ s, I [] s → R [] s s)
    (hstep : ∀ t ts s s', I (t :: ts) s → f t s = .ok s' → I ts s')
    (hcons : ∀ t ts s s₁ s', I (t :: ts) s → f t s = .ok s₁ → R ts s₁ s' → R (t :: ts) s s')
    {ts : List τ} (h : loop f ts s = .ok s') (hs : I ts s) : R ts s s' := by
  induction ts generalizing s with
  | nil => exact Except.ok.inj h ▸ hnil s hs
  | cons t ts ih =>
      obtain ⟨s₁, h₁, hrest⟩ := loop_cons_eq_ok.mp h
      exact hcons t ts s s₁ s' hs h₁ (ih hrest (hstep t ts s s₁ hs h₁))

/-- **Success**: a loop whose steps all succeed gets to its end; `I` is
what holds where the elements `ts` are still to come. -/
theorem loop_reaches {I : List τ → σ → Prop} {ts : List τ}
    (hstep : ∀ t ts s, I (t :: ts) s → ∃ s', f t s = .ok s' ∧ I ts s') (hs : I ts s) :
    ∃ s', loop f ts s = .ok s' ∧ I [] s' := by
  induction ts generalizing s with
  | nil => exact ⟨s, rfl, hs⟩
  | cons t ts ih =>
      obtain ⟨s₁, h₁, hs₁⟩ := hstep t ts s hs
      obtain ⟨s', h', hs'⟩ := ih hs₁
      exact ⟨s', (loop_cons_of_ok h₁).trans h', hs'⟩

/-- A step that cannot succeed is an obstacle to the whole loop. -/
theorem loop_ne_ok {ts : List τ} {t : τ} (ht : t ∈ ts) (hstep : ∀ s s', f t s ≠ .ok s') :
    loop f ts s ≠ .ok s' := by
  intro h
  induction ts generalizing s with
  | nil => cases ht
  | cons u us ih =>
      obtain ⟨s₁, h₁, hrest⟩ := loop_cons_eq_ok.mp h
      rcases List.mem_cons.mp ht with rfl | ht
      · exact hstep s s₁ h₁
      · exact ih ht hrest

theorem loop_append {ts us : List τ} :
    loop f (ts ++ us) s = .ok s' ↔ ∃ s₁, loop f ts s = .ok s₁ ∧ loop f us s₁ = .ok s' := by
  induction ts generalizing s with
  | nil => simp
  | cons t ts ih =>
      rw [List.cons_append, loop_cons_eq_ok]
      constructor
      · intro ⟨s₁, h₁, hrest⟩
        obtain ⟨s₂, h₂, hlast⟩ := ih.mp hrest
        exact ⟨s₂, loop_cons_eq_ok.mpr ⟨s₁, h₁, h₂⟩, hlast⟩
      · intro ⟨s₂, h₂, hlast⟩
        obtain ⟨s₁, h₁, hrest⟩ := loop_cons_eq_ok.mp h₂
        exact ⟨s₁, h₁, ih.mpr ⟨s₂, hrest, hlast⟩⟩

/-- **The failing turn** of a loop that stops early. -/
theorem loop_eq_error {ts : List τ} {e : ε} :
    loop f ts s = .error e ↔ ∃ before t after s₁, ts = before ++ t :: after ∧
      loop f before s = .ok s₁ ∧ f t s₁ = .error e := by
  induction ts generalizing s with
  | nil => simp
  | cons t ts ih =>
      cases h₁ : f t s with
      | error e' =>
          have hloop : loop f (t :: ts) s = .error e' := by
            rw [loop, h₁]
            rfl
          rw [hloop]
          constructor
          · intro h
            exact ⟨[], t, ts, s, rfl, rfl, h₁.trans h⟩
          · intro ⟨before, u, after, s₁, hsplit, hbefore, hu⟩
            cases before with
            | nil =>
                cases hsplit
                cases hbefore
                exact h₁.symm.trans hu
            | cons b before =>
                cases hsplit
                obtain ⟨s₂, h₂, -⟩ := loop_cons_eq_ok.mp hbefore
                rw [h₁] at h₂
                cases h₂
      | ok s₁ =>
          rw [loop_cons_of_ok h₁, ih]
          constructor
          · intro ⟨before, u, after, s₂, hsplit, hbefore, hu⟩
            exact ⟨t :: before, u, after, s₂, by rw [hsplit]; rfl,
              (loop_cons_of_ok h₁).trans hbefore, hu⟩
          · intro ⟨before, u, after, s₂, hsplit, hbefore, hu⟩
            cases before with
            | nil =>
                cases hsplit
                cases hbefore
                rw [h₁] at hu
                cases hu
            | cons b before =>
                cases hsplit
                exact ⟨before, u, after, s₂, rfl, (loop_cons_of_ok h₁).symm.trans hbefore, hu⟩

/-- **The turn of one element**, between what came before and what comes
after it. -/
theorem loop_turn {ts : List τ} (h : loop f ts s = .ok s') {t : τ} (ht : t ∈ ts) :
    ∃ before after s₁ s₂, ts = before ++ t :: after ∧ loop f before s = .ok s₁ ∧
      f t s₁ = .ok s₂ ∧ loop f after s₂ = .ok s' := by
  obtain ⟨before, after, rfl⟩ := List.append_of_mem ht
  obtain ⟨s₁, h₁, hrest⟩ := loop_append.mp h
  obtain ⟨s₂, h₂, hlast⟩ := loop_cons_eq_ok.mp hrest
  exact ⟨before, after, s₁, s₂, rfl, h₁, h₂, hlast⟩

/-- The turn of `t` begins, in the state `s'`: everything in front of it
has gone well. -/
def Reaches (f : τ → σ → Except ε σ) (ts : List τ) (s : σ) (t : τ) (s' : σ) : Prop :=
  ∃ before after, ts = before ++ t :: after ∧ loop f before s = .ok s'

theorem not_reaches_nil {t : τ} : ¬Reaches f [] s t s' := by
  rintro ⟨before, after, hsplit, -⟩
  simp at hsplit

theorem reaches_cons {t u : τ} {ts : List τ} :
    Reaches f (u :: ts) s t s' ↔ t = u ∧ s' = s ∨ ∃ s₁, f u s = .ok s₁ ∧ Reaches f ts s₁ t s' := by
  constructor
  · rintro ⟨before, after, hsplit, hloop⟩
    cases before with
    | nil =>
        cases hsplit
        exact .inl ⟨rfl, (Except.ok.inj hloop).symm⟩
    | cons b before =>
        cases hsplit
        obtain ⟨s₁, h₁, hrest⟩ := loop_cons_eq_ok.mp hloop
        exact .inr ⟨s₁, h₁, before, after, rfl, hrest⟩
  · rintro (⟨rfl, rfl⟩ | ⟨s₁, h₁, before, after, rfl, hrest⟩)
    · exact ⟨[], ts, rfl, rfl⟩
    · exact ⟨u :: before, after, rfl, (loop_cons_of_ok h₁).trans hrest⟩

end Fallible
