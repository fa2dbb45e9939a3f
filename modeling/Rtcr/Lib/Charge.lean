import Rtcr.Lib.Reconcile

/-!
# Charge — what the passes of a reconciliation cost

A `Charge` puts a price on the updates and on the destructions of a kind,
each in the state it starts in; creating is free. `reconcileCost` adds up
what both passes cost.

An account `I m s` says of a state `s` that `m` has been paid. If every
action settles its own price (`Settles`), the passes settle theirs
(`Settles.reconcile`).
-/

namespace Reconcile

variable {σ χ τ M : Type}

structure Charge (σ χ τ M : Type) where
  update : χ → τ → σ → M
  destroy : τ → σ → M

section Cost

variable [AddCommMonoid M]

def updateFirstCost (p : τ → Bool) (cost : τ → σ → M) : List τ → σ → M
  | [], _ => 0
  | t :: ts, s => if p t then cost t s else updateFirstCost p cost ts s

def trackCost (k : Kind σ χ τ) (charge : Charge σ χ τ M) (c : χ) (ts : List τ) (s : σ) : M :=
  if ts.any (k.stored c) then updateFirstCost (k.stored c) (charge.update c) ts s
  else charge.update c (k.create c s).1 (k.create c s).2

/-- The cost of the first pass. -/
def addMissingCost (k : Kind σ χ τ) (charge : Charge σ χ τ M) : List χ → List τ → σ → M
  | [], _, _ => 0
  | c :: cs, ts, s =>
      trackCost k charge c ts s +
        addMissingCost k charge cs (track k c ts s).1 (track k c ts s).2

/-- The cost of the second pass. -/
def dropObsoleteCost (k : Kind σ χ τ) (charge : Charge σ χ τ M) (cs : List χ) :
    List τ → σ → M
  | [], _ => 0
  | t :: ts, s =>
      if cs.any (k.present t) then dropObsoleteCost k charge cs ts s
      else charge.destroy t s + dropObsoleteCost k charge cs ts (k.destroy t s)

def reconcileCost (k : Kind σ χ τ) (charge : Charge σ χ τ M) (ts : List τ) (cs : List χ)
    (s : σ) : M :=
  addMissingCost k charge cs ts s +
    dropObsoleteCost k charge cs (addMissing k cs ts s).1 (addMissing k cs ts s).2

/-- The cost of destroying every record of a list, front to back. -/
def destroyAllCost (destroy : τ → σ → σ) (cost : τ → σ → M) : List τ → σ → M
  | [], _ => 0
  | t :: ts, s => cost t s + destroyAllCost destroy cost ts (destroy t s)

/-- Every action settles its price. -/
structure Settles (k : Kind σ χ τ) (charge : Charge σ χ τ M) (I : M → σ → Prop) : Prop where
  create : ∀ c m s, I m s → I m (k.create c s).2
  update : ∀ c t m s, I m s → I (m + charge.update c t s) (k.update c t s).2
  destroy : ∀ t m s, I m s → I (m + charge.destroy t s) (k.destroy t s)

variable {k : Kind σ χ τ} {charge : Charge σ χ τ M} {I : M → σ → Prop}

theorem updateFirst_settles {p : τ → Bool} {f : τ → σ → τ × σ} {cost : τ → σ → M}
    (hf : ∀ t m s, I m s → I (m + cost t s) (f t s).2) (ts : List τ) {m : M} {s : σ}
    (hs : I m s) : I (m + updateFirstCost p cost ts s) (updateFirst p f ts s).2 := by
  induction ts with
  | nil =>
      show I (m + 0) s
      rwa [add_zero]
  | cons t ts ih =>
      by_cases hp : p t = true
      · simp only [updateFirstCost, updateFirst, hp, if_true]
        exact hf t m s hs
      · simp only [updateFirstCost, updateFirst, if_neg hp]
        exact ih

theorem Settles.track (h : Settles k charge I) (c : χ) (ts : List τ) {m : M} {s : σ}
    (hs : I m s) : I (m + trackCost k charge c ts s) (track k c ts s).2 := by
  by_cases hany : ts.any (k.stored c) = true
  · simp only [trackCost, Reconcile.track, hany, if_true]
    exact updateFirst_settles (h.update c) ts hs
  · simp only [trackCost, Reconcile.track, if_neg hany]
    exact h.update c _ m _ (h.create c m s hs)

theorem Settles.addMissing (h : Settles k charge I) (cs : List χ) (ts : List τ) {m : M} {s : σ}
    (hs : I m s) : I (m + addMissingCost k charge cs ts s) (addMissing k cs ts s).2 := by
  induction cs generalizing ts m s with
  | nil =>
      show I (m + 0) s
      rwa [add_zero]
  | cons c cs ih =>
      have hrest := ih (Reconcile.track k c ts s).1 (h.track c ts hs)
      rw [add_assoc] at hrest
      exact hrest

theorem dropObsolete_settles (hd : ∀ t m s, I m s → I (m + charge.destroy t s) (k.destroy t s))
    (cs : List χ) (ts : List τ) {m : M} {s : σ} (hs : I m s) :
    I (m + dropObsoleteCost k charge cs ts s) (dropObsolete k cs ts s).2 := by
  induction ts generalizing m s with
  | nil =>
      show I (m + 0) s
      rwa [add_zero]
  | cons t ts ih =>
      by_cases hp : cs.any (k.present t) = true
      · simp only [dropObsoleteCost, dropObsolete, hp, if_true]
        exact ih hs
      · simp only [dropObsoleteCost, dropObsolete, if_neg hp]
        have hrest := ih (hd t m s hs)
        rwa [add_assoc] at hrest

/-- **The account rule**: both passes settle what they cost. -/
theorem Settles.reconcile (h : Settles k charge I) (ts : List τ) (cs : List χ) {m : M} {s : σ}
    (hs : I m s) : I (m + reconcileCost k charge ts cs s) (reconcile k ts cs s).2 := by
  have hdrop := dropObsolete_settles h.destroy cs (Reconcile.addMissing k cs ts s).1
    (h.addMissing cs ts hs)
  rw [add_assoc] at hdrop
  exact hdrop

theorem destroyAll_settles {destroy : τ → σ → σ} {cost : τ → σ → M}
    (hd : ∀ t m s, I m s → I (m + cost t s) (destroy t s)) (ts : List τ) {m : M} {s : σ}
    (hs : I m s) : I (m + destroyAllCost destroy cost ts s) (destroyAll destroy ts s) := by
  induction ts generalizing m s with
  | nil =>
      show I (m + 0) s
      rwa [add_zero]
  | cons t ts ih =>
      have hrest := ih (hd t m s hs)
      rw [add_assoc] at hrest
      exact hrest

end Cost

end Reconcile
