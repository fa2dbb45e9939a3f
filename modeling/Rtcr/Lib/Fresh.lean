import Mathlib

/-!
# Fresh — objects with names from a counter

`Grows key P n n' old new`: while the counter goes from `n` to `n'`, some
of the objects `old` have gone, and others, of which `P` holds, have come
with names that the counter has just handed out. What holds of all
objects of a system then follows from this relation alone.
-/

namespace Fresh

variable {α : Type} {key : α → Nat} {P Q : α → Prop} {n n' n'' : Nat}
  {old new a b c d fresh : Multiset α} {x : α}

/-- Objects with names of their own, from `n` to below `n'`. -/
structure Named (key : α → Nat) (P : α → Prop) (n n' : Nat) (fresh : Multiset α) : Prop where
  distinct : (fresh.map key).Nodup
  each : ∀ x ∈ fresh, n ≤ key x ∧ key x < n' ∧ P x

structure Grows (key : α → Nat) (P : α → Prop) (n n' : Nat) (old new : Multiset α) : Prop where
  le : n ≤ n'
  added : ∃ fresh, Named key P n n' fresh ∧ new ≤ fresh + old

/-! ## Names -/

theorem Named.zero : Named key P n n' 0 := ⟨by simp, by simp⟩

theorem Named.one (hge : n ≤ key x) (hlt : key x < n') (hP : P x) : Named key P n n' {x} := by
  refine ⟨by simp, fun y hy => ?_⟩
  rw [Multiset.mem_singleton] at hy
  subst hy
  exact ⟨hge, hlt, hP⟩

/-- Names handed out one after the other. -/
theorem Named.add (h : Named key P n n' a) (h' : Named key P n' n'' b) (hle : n ≤ n')
    (hle' : n' ≤ n'') : Named key P n n'' (a + b) := by
  constructor
  · rw [Multiset.map_add, Multiset.nodup_add]
    refine ⟨h.distinct, h'.distinct, Multiset.disjoint_left.mpr fun hk hk' => ?_⟩
    obtain ⟨x, hx, rfl⟩ := Multiset.mem_map.mp hk
    obtain ⟨y, hy, he⟩ := Multiset.mem_map.mp hk'
    have hlt := (h.each x hx).2.1
    have hge := (h'.each y hy).1
    omega
  · intro x hx
    rcases Multiset.mem_add.mp hx with hx | hx
    · obtain ⟨hge, hlt, hP⟩ := h.each x hx
      exact ⟨hge, by omega, hP⟩
    · obtain ⟨hge, hlt, hP⟩ := h'.each x hx
      exact ⟨by omega, hlt, hP⟩

/-! ## Growing -/

namespace Grows

theorem of_le (hle : n ≤ n') (h : new ≤ old) : Grows key P n n' old new :=
  ⟨hle, 0, .zero, by rwa [zero_add]⟩

theorem refl : Grows key P n n old old := of_le le_rfl le_rfl

/-- One object more. -/
theorem one (hge : n ≤ key x) (hlt : key x < n') (hP : P x) :
    Grows key P n n' old ({x} + old) :=
  ⟨by omega, {x}, .one hge hlt hP, le_rfl⟩

theorem trans (h : Grows key P n n' a b) (h' : Grows key P n' n'' b c) :
    Grows key P n n'' a c := by
  obtain ⟨f, hf, hb⟩ := h.added
  obtain ⟨f', hf', hc⟩ := h'.added
  refine ⟨h.le.trans h'.le, f + f', hf.add hf' h.le h'.le, ?_⟩
  calc c ≤ f' + b := hc
    _ ≤ f' + (f + a) := by gcongr
    _ = f + f' + a := by rw [← add_assoc, add_comm f' f]

/-- The objects beside do not matter. -/
theorem frame (h : Grows key P n n' old new) (rest : Multiset α) :
    Grows key P n n' (rest + old) (rest + new) := by
  obtain ⟨f, hf, hle⟩ := h.added
  refine ⟨h.le, f, hf, ?_⟩
  calc rest + new ≤ rest + (f + old) := by gcongr
    _ = f + (rest + old) := add_left_comm ..

theorem frame_right (h : Grows key P n n' old new) (rest : Multiset α) :
    Grows key P n n' (old + rest) (new + rest) := by
  rw [add_comm old, add_comm new]
  exact h.frame rest

/-! ## What holds of all objects -/

/-- What is true of the old objects, and of objects with new names. -/
theorem forall_mem (h : Grows key P n n' old new) (hold : ∀ x ∈ old, Q x)
    (hnew : ∀ x, n ≤ key x → key x < n' → P x → Q x) : ∀ x ∈ new, Q x := by
  obtain ⟨f, hf, hle⟩ := h.added
  intro x hx
  rcases Multiset.mem_add.mp (Multiset.mem_of_le hle hx) with hx | hx
  · obtain ⟨hge, hlt, hP⟩ := hf.each x hx
    exact hnew x hge hlt hP
  · exact hold x hx

end Grows

/-- The names have been handed out, each to one object. -/
structure Numbered (key : α → Nat) (n : Nat) (objects : Multiset α) : Prop where
  nodup : (objects.map key).Nodup
  below : ∀ x ∈ objects, key x < n

/-- **Names stay distinct**. -/
theorem Grows.numbered (h : Grows key P n n' old new) (hold : Numbered key n old) :
    Numbered key n' new := by
  obtain ⟨f, hf, hle⟩ := h.added
  constructor
  · refine Multiset.nodup_of_le (Multiset.map_le_map hle) ?_
    rw [Multiset.map_add, Multiset.nodup_add]
    refine ⟨hf.distinct, hold.nodup, Multiset.disjoint_left.mpr fun hk hk' => ?_⟩
    obtain ⟨x, hx, rfl⟩ := Multiset.mem_map.mp hk
    obtain ⟨y, hy, he⟩ := Multiset.mem_map.mp hk'
    have hge := (hf.each x hx).1
    have hlt := hold.below y hy
    omega
  · exact h.forall_mem (fun x hx => (hold.below x hx).trans_le h.le) fun x _ hlt _ => hlt

theorem Numbered.of_le (h : Numbered key n objects) {part : Multiset α} (hle : part ≤ objects) :
    Numbered key n part :=
  ⟨Multiset.nodup_of_le (Multiset.map_le_map hle) h.nodup,
    fun x hx => h.below x (Multiset.mem_of_le hle hx)⟩

end Fresh
