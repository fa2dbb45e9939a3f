import Rtcr.Lib.ByteStore

/-!
# Pieces — an array that lies in pieces of others

A piece is a range of an array together with the array of a store that
holds its elements. `Shows m pieces f` says that the pieces hold `f`;
what a store operation does to one of them it does to the whole array.
-/

namespace Pieces

open ByteStore

variable {ι β : Type}

/-- Elements `start` up to `start + size` are the first elements of the
array `name`. -/
structure Piece (ι : Type) where
  name : ι
  start : Nat
  size : Nat
deriving DecidableEq, Repr

def Piece.Has (p : Piece ι) (a : Nat) : Prop := p.start ≤ a ∧ a < p.start + p.size

instance (p : Piece ι) (a : Nat) : Decidable (p.Has a) := inferInstanceAs (Decidable (_ ∧ _))

/-- The pieces hold `f`. -/
def Shows (m : Store ι β) (pieces : List (Piece ι)) (f : Nat → β) : Prop :=
  ∀ p ∈ pieces, ∀ a, p.Has a → m p.name (a - p.start) = f a

/-- The pieces lie beside each other, in different arrays. -/
structure Separate (pieces : List (Piece ι)) : Prop where
  names : ∀ p ∈ pieces, ∀ q ∈ pieces, p.name = q.name → p = q
  ranges : ∀ p ∈ pieces, ∀ q ∈ pieces, ∀ a, p.Has a → q.Has a → p = q

variable {m m' : Store ι β} {pieces : List (Piece ι)} {f : Nat → β}

namespace Shows

/-- Nothing has happened to the arrays of the pieces. -/
theorem congr (h : Shows m pieces f) (hm : ∀ p ∈ pieces, m' p.name = m p.name) :
    Shows m' pieces f := by
  intro p hp a ha
  rw [hm p hp]
  exact h p hp a ha

theorem const {b : β} (h : ∀ p ∈ pieces, ∀ i, m p.name i = b) : Shows m pieces fun _ => b :=
  fun p hp _ _ => h p hp _

variable [DecidableEq ι]

/-- **A write to one piece** is one to the whole. -/
theorem poke (h : Shows m pieces f) (hsep : Separate pieces) {p : Piece ι} (hp : p ∈ pieces)
    {a : Nat} (ha : p.Has a) (b : β) :
    Shows (poke p.name (a - p.start) b m) pieces (Function.update f a b) := by
  intro q hq c hc
  by_cases hca : c = a
  · subst hca
    have hqp : q = p := hsep.ranges q hq p hp c hc ha
    rw [hqp, Function.update_self]
    simp [ByteStore.poke]
  · rw [Function.update_of_ne hca, ← h q hq c hc]
    by_cases hqp : q = p
    · subst hqp
      have hne : c - q.start ≠ a - q.start := by
        have hlo := hc.1
        have hlo' := ha.1
        omega
      simp [ByteStore.poke, hne]
    · exact poke_ne (fun hn => hqp (hsep.names q hq p hp hn)) _ _ _ _

/-- A write to another array. -/
theorem poke_other (h : Shows m pieces f) {d : ι} (hd : ∀ p ∈ pieces, p.name ≠ d) (i : Nat)
    (b : β) : Shows (ByteStore.poke d i b m) pieces f :=
  h.congr fun p hp => funext fun j => poke_ne (hd p hp) i b m j

end Shows

end Pieces
