import Mathlib

/-!
# ByteStore — families of byte arrays and block copies

`Store ι β` is a family of unbounded arrays, one for every name in `ι`.
A block copy `Blit` moves `size` elements from one array to another;
`blitAll` runs a work list of them in order. The lemmas say what one
cell holds after a work list whose sources are not among its targets.
-/

namespace ByteStore

variable {ι β : Type}

/-- `m d i` is element `i` of array `d`. -/
abbrev Store (ι β : Type) := ι → Nat → β

/-- Overwrite array `d` with the constant `z`. -/
def fill [DecidableEq ι] (d : ι) (z : β) (m : Store ι β) : Store ι β :=
  fun e i => if e = d then z else m e i

/-- Overwrite one element. -/
def poke [DecidableEq ι] (d : ι) (i : Nat) (b : β) (m : Store ι β) : Store ι β :=
  fun e j => if e = d ∧ j = i then b else m e j

/-- A block copy: `size` elements of `src` from `srcAt` on are written
to `dst` from `dstAt` on. -/
structure Blit (ι : Type) where
  src : ι
  srcAt : Nat
  dst : ι
  dstAt : Nat
  size : Nat

/-- The copy writes element `i` of array `d`. -/
def Blit.Covers (x : Blit ι) (d : ι) (i : Nat) : Prop :=
  d = x.dst ∧ x.dstAt ≤ i ∧ i < x.dstAt + x.size

instance [DecidableEq ι] (x : Blit ι) (d : ι) (i : Nat) : Decidable (x.Covers d i) :=
  inferInstanceAs (Decidable (_ ∧ _ ∧ _))

/-- The element that the copy `x` brings to position `i`. -/
def Blit.value (x : Blit ι) (m : Store ι β) (i : Nat) : β := m x.src (x.srcAt + (i - x.dstAt))

def blit [DecidableEq ι] (x : Blit ι) (m : Store ι β) : Store ι β :=
  fun d i => if x.Covers d i then x.value m i else m d i

def blitAll [DecidableEq ι] (xs : List (Blit ι)) (m : Store ι β) : Store ι β :=
  xs.foldl (fun m x => blit x m) m

variable [DecidableEq ι]

@[simp] theorem fill_self (d : ι) (z : β) (m : Store ι β) (i : Nat) : fill d z m d i = z := by
  simp [fill]

theorem fill_ne {d e : ι} (h : e ≠ d) (z : β) (m : Store ι β) (i : Nat) :
    fill d z m e i = m e i := by
  simp [fill, h]

theorem poke_ne {d e : ι} (h : e ≠ d) (i : Nat) (b : β) (m : Store ι β) (j : Nat) :
    poke d i b m e j = m e j := by
  simp [poke, h]

theorem blit_of_covers {x : Blit ι} {d : ι} {i : Nat} (h : x.Covers d i) (m : Store ι β) :
    blit x m d i = x.value m i := if_pos h

theorem blit_of_not_covers {x : Blit ι} {d : ι} {i : Nat} (h : ¬x.Covers d i)
    (m : Store ι β) : blit x m d i = m d i := if_neg h

@[simp] theorem blitAll_nil (m : Store ι β) : blitAll [] m = m := rfl

@[simp] theorem blitAll_cons (x : Blit ι) (xs : List (Blit ι)) (m : Store ι β) :
    blitAll (x :: xs) m = blitAll xs (blit x m) := rfl

/-- **Frame**: an element that no copy covers keeps its value. -/
theorem blitAll_frame {xs : List (Blit ι)} {d : ι} {i : Nat}
    (h : ∀ x ∈ xs, ¬x.Covers d i) (m : Store ι β) : blitAll xs m d i = m d i := by
  induction xs generalizing m with
  | nil => rfl
  | cons x xs ih =>
      rw [blitAll_cons, ih (fun y hy => h y (by simp [hy])),
        blit_of_not_covers (h x (by simp))]

/-- An array that is no target at all keeps its elements. -/
theorem blitAll_of_ne_dst {xs : List (Blit ι)} {d : ι} (h : ∀ x ∈ xs, x.dst ≠ d)
    (m : Store ι β) (i : Nat) : blitAll xs m d i = m d i :=
  blitAll_frame (fun x hx hc => h x hx hc.1.symm) m

/-- **Copied elements**: if all copies that cover an element bring the
same value `b`, from sources that are no targets, the element ends up with
it. -/
theorem blitAll_covered {xs : List (Blit ι)} {d : ι} {i : Nat} {m : Store ι β} {b : β}
    (hsrc : ∀ x ∈ xs, x.Covers d i → ∀ y ∈ xs, x.src ≠ y.dst)
    (hval : ∀ x ∈ xs, x.Covers d i → x.value m i = b)
    (hcov : (∃ x ∈ xs, x.Covers d i) ∨ m d i = b) : blitAll xs m d i = b := by
  induction xs generalizing m with
  | nil => simpa using hcov
  | cons x xs ih =>
      -- one copy leaves what the rest brings as it was
      have hkeep : ∀ y ∈ xs, y.Covers d i → y.value (blit x m) i = y.value m i := by
        intro y hy hcy
        refine blit_of_not_covers (fun hc => ?_) m
        exact hsrc y (by simp [hy]) hcy x (by simp) hc.1
      rw [blitAll_cons]
      refine ih (fun a ha hc b hb => hsrc a (by simp [ha]) hc b (by simp [hb]))
        (fun y hy hc => by rw [hkeep y hy hc]; exact hval y (by simp [hy]) hc) ?_
      by_cases hx : x.Covers d i
      · exact .inr (by rw [blit_of_covers hx]; exact hval x (by simp) hx)
      · rw [blit_of_not_covers hx]
        refine hcov.imp ?_ id
        rintro ⟨y, hy, hc⟩
        rcases List.mem_cons.mp hy with rfl | hy
        · exact absurd hc hx
        · exact ⟨y, hy, hc⟩

/-- A work list whose copies all bring what is already there changes
nothing. -/
theorem blitAll_idle {xs : List (Blit ι)} {m : Store ι β}
    (h : ∀ x ∈ xs, ∀ i, x.Covers x.dst i → x.value m i = m x.dst i) : blitAll xs m = m := by
  induction xs with
  | nil => rfl
  | cons x xs ih =>
      have hx : blit x m = m := by
        funext d i
        by_cases hc : x.Covers d i
        · obtain ⟨rfl, _⟩ := id hc
          rw [blit_of_covers hc, h x (by simp) i hc]
        · exact blit_of_not_covers hc m
      rw [blitAll_cons, hx, ih fun y hy => h y (by simp [hy])]

end ByteStore
