import Mathlib

/-!
# Lock — a non-reentrant lock around some data

`Guarded σ` is data of type `σ` with one lock. A `Locking` computation
works on it; `withGuard` is a scoped guard, which takes the lock at its
start and gives it back at its end. Taking a lock that is held never
comes back, for the one caller there is holds it itself.

The rules: `withGuard` from a free lock runs its body under the lock, and
from a held one it is a lock-out.
-/

/-- A computation that does not return. -/
inductive Stuck
  | lockedOut
  | endlessLoop
deriving DecidableEq, Repr

structure Guarded (σ : Type) where
  locked : Bool
  data : σ
deriving DecidableEq, Repr

/-- A computation on guarded data. -/
abbrev Locking (σ : Type) : Type := Guarded σ → Except Stuck (Guarded σ)

namespace Locking

variable {σ : Type}

/-- Change the data; whether the lock is held does not matter. -/
def update (f : σ → σ) : Locking σ := fun s => .ok { s with data := f s.data }

/-- One computation after the other. -/
def andThen (f g : Locking σ) : Locking σ := fun s =>
  match f s with
  | .ok s => g s
  | .error e => .error e

/-- A guard from here to the end of the scope. -/
def withGuard (body : Locking σ) : Locking σ := fun s =>
  if s.locked then .error .lockedOut
  else
    match body { s with locked := true } with
    | .ok s => .ok { s with locked := false }
    | .error e => .error e

@[simp] theorem update_eq (f : σ → σ) (s : Guarded σ) :
    update f s = .ok { s with data := f s.data } := rfl

theorem andThen_of_ok {f g : Locking σ} {s s' : Guarded σ} (h : f s = .ok s') :
    andThen f g s = g s' := by
  simp only [andThen, h]

/-- **A held lock locks out.** -/
theorem withGuard_locked (body : Locking σ) (d : σ) :
    withGuard body ⟨true, d⟩ = .error .lockedOut := rfl

/-- From a free lock the body decides. -/
theorem withGuard_of_ok {body : Locking σ} {d d' : σ} (h : body ⟨true, d⟩ = .ok ⟨true, d'⟩) :
    withGuard body ⟨false, d⟩ = .ok ⟨false, d'⟩ := by
  simp only [withGuard, Bool.false_eq_true, if_false, h]

theorem withGuard_of_error {body : Locking σ} {d : σ} {e : Stuck}
    (h : body ⟨true, d⟩ = .error e) : withGuard body ⟨false, d⟩ = .error e := by
  simp only [withGuard, Bool.false_eq_true, if_false, h]

end Locking
