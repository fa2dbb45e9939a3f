import Mathlib

/-!
# RefCount — a table of shared values with reference counts

A table `List ε` holds one entry for every key that is in use; an entry
has a key, a value that its users share, and a count. The users are a
multiset of references, each a key with the value it was given.

`Exact tracked refs table` says that the table is right for the
references: one entry a key, counts that are the numbers of references,
and every reference to a `tracked` key has the entry's value. Keys that
are not tracked never get an entry.

The rules say what the operations of a user do: `acquire` a known key or
a new one, `release` with others left or as the last one, and both for a
key that is not tracked.
-/

namespace RefCount

variable {ε κ ν : Type} [DecidableEq κ]

/-- How to read and change an entry. -/
structure Table (ε κ ν : Type) where
  key : ε → κ
  val : ε → ν
  count : ε → Nat
  setCount : Nat → ε → ε
  key_setCount : ∀ n e, key (setCount n e) = key e
  val_setCount : ∀ n e, val (setCount n e) = val e
  count_setCount : ∀ n e, count (setCount n e) = n

/-- The number of references to a key. -/
def uses (refs : Multiset (κ × ν)) (k : κ) : Nat := refs.countP fun r => r.1 = k

@[simp] theorem uses_zero (k : κ) : uses (0 : Multiset (κ × ν)) k = 0 := Multiset.countP_zero _

@[simp] theorem uses_add (refs refs' : Multiset (κ × ν)) (k : κ) :
    uses (refs + refs') k = uses refs k + uses refs' k := Multiset.countP_add ..

@[simp] theorem uses_singleton (k k' : κ) (v : ν) :
    uses {(k', v)} k = if k' = k then 1 else 0 := by
  rw [uses, ← Multiset.cons_zero, Multiset.countP_cons, Multiset.countP_zero, Nat.zero_add]

theorem uses_eq_zero {refs : Multiset (κ × ν)} {k : κ} :
    uses refs k = 0 ↔ ∀ r ∈ refs, r.1 ≠ k := Multiset.countP_eq_zero

/-- References that are listed one by one. -/
theorem uses_sum_map {τ : Type} (key : τ → κ) (val : τ → ν) (ts : List τ) (k : κ) :
    uses (ts.map fun t => ({(key t, val t)} : Multiset (κ × ν))).sum k =
      ts.countP fun t => key t == k := by
  induction ts with
  | nil => simp
  | cons t ts ih =>
      rw [List.map_cons, List.sum_cons, uses_add, ih, uses_singleton, List.countP_cons,
        Nat.add_comm]
      simp

omit [DecidableEq κ] in
theorem mem_sum_map {τ : Type} (key : τ → κ) (val : τ → ν) {ts : List τ} {t : τ} (ht : t ∈ ts) :
    (key t, val t) ∈ (ts.map fun t => ({(key t, val t)} : Multiset (κ × ν))).sum := by
  induction ts with
  | nil => cases ht
  | cons u ts ih =>
      rw [List.map_cons, List.sum_cons, Multiset.mem_add, Multiset.mem_singleton]
      rcases List.mem_cons.mp ht with rfl | ht
      · exact .inl rfl
      · exact .inr (ih ht)

variable (T : Table ε κ ν)

/-- **The table is exact** for the references. -/
structure Exact (tracked : κ → Prop) (refs : Multiset (κ × ν)) (table : List ε) : Prop where
  nodup : (table.map T.key).Nodup
  each : ∀ e ∈ table, tracked (T.key e) ∧ T.count e = uses refs (T.key e) ∧ 1 ≤ T.count e
  entry : ∀ r ∈ refs, tracked r.1 → ∃ e ∈ table, T.key e = r.1 ∧ T.val e = r.2

/-- Change the count under a key. -/
def recount (k : κ) (f : Nat → Nat) (table : List ε) : List ε :=
  table.map fun e => if T.key e = k then T.setCount (f (T.count e)) e else e

variable {T}

theorem map_recount {β : Type} {g : ε → β} (hg : ∀ n e, g (T.setCount n e) = g e) (k : κ)
    (f : Nat → Nat) (table : List ε) : (recount T k f table).map g = table.map g := by
  rw [recount, List.map_map]
  refine List.map_congr_left fun e _ => ?_
  simp only [Function.comp_apply]
  split
  · rw [hg]
  · rfl

variable {tracked : κ → Prop} {refs : Multiset (κ × ν)} {table : List ε} {k : κ} {v : ν}

theorem Exact.empty : Exact T tracked 0 [] := ⟨List.nodup_nil, by simp, by simp⟩

/-- What a changed count does to the rest. -/
theorem Exact.recount {refs' : Multiset (κ × ν)} {f : Nat → Nat} (h : Exact T tracked refs table)
    (hother : ∀ k', k' ≠ k → uses refs' k' = uses refs k')
    (hthis : uses refs' k = f (uses refs k)) (hpos : 1 ≤ uses refs' k)
    (hentry : ∀ r ∈ refs', tracked r.1 → ∃ e ∈ table, T.key e = r.1 ∧ T.val e = r.2) :
    Exact T tracked refs' (recount T k f table) where
  nodup := by
    rw [map_recount T.key_setCount]
    exact h.nodup
  each e he := by
    obtain ⟨e, hmem, rfl⟩ := List.mem_map.mp he
    obtain ⟨htr, hc, hp⟩ := h.each e hmem
    by_cases hk : T.key e = k
    · subst hk
      simp only [if_true, T.key_setCount, T.count_setCount, hc]
      exact ⟨htr, hthis.symm, hthis ▸ hpos⟩
    · simp only [if_neg hk]
      exact ⟨htr, by rw [hc, hother _ hk], hp⟩
  entry r hr htr := by
    obtain ⟨e, he, hk, hv⟩ := hentry r hr htr
    refine ⟨_, List.mem_map_of_mem he, ?_⟩
    split
    · exact ⟨by rw [T.key_setCount, hk], by rw [T.val_setCount, hv]⟩
    · exact ⟨hk, hv⟩

/-- One more user of a known key. -/
theorem Exact.acquire (h : Exact T tracked refs table) {e : ε} (he : e ∈ table) :
    Exact T tracked (refs + {(T.key e, T.val e)}) (RefCount.recount T (T.key e) (· + 1) table) := by
  refine h.recount (fun k' hk' => ?_) ?_ ?_ fun r hr htr => ?_
  · simp [hk'.symm]
  · simp
  · simp
  · rcases Multiset.mem_add.mp hr with hr | hr
    · exact h.entry r hr htr
    · rw [Multiset.mem_singleton] at hr
      exact ⟨e, he, by rw [hr], by rw [hr]⟩

/-- The first user of a key. -/
theorem Exact.acquire_new (h : Exact T tracked refs table) {e : ε} (htr : tracked (T.key e))
    (hnew : T.key e ∉ table.map T.key) (hcount : T.count e = 1) :
    Exact T tracked (refs + {(T.key e, T.val e)}) (e :: table) where
  nodup := List.nodup_cons.mpr ⟨hnew, h.nodup⟩
  each e' he' := by
    rcases List.mem_cons.mp he' with rfl | he'
    · have hnone : uses refs (T.key e') = 0 := by
        refine uses_eq_zero.mpr fun r hr hk => hnew ?_
        obtain ⟨e'', he'', hk', -⟩ := h.entry r hr (hk ▸ htr)
        rw [← hk, ← hk']
        exact List.mem_map_of_mem he''
      refine ⟨htr, ?_, hcount.ge⟩
      simp [hcount, hnone]
    · obtain ⟨htr', hc, hp⟩ := h.each e' he'
      have hne : T.key e ≠ T.key e' := fun hk => hnew (hk ▸ List.mem_map_of_mem he')
      exact ⟨htr', by simp [hc, hne], hp⟩
  entry r hr htr' := by
    rcases Multiset.mem_add.mp hr with hr | hr
    · obtain ⟨e', he', hk⟩ := h.entry r hr htr'
      exact ⟨e', by simp [he'], hk⟩
    · rw [Multiset.mem_singleton] at hr
      exact ⟨e, by simp, by rw [hr], by rw [hr]⟩

/-- References to a key that is not tracked do not count. -/
theorem Exact.untracked (h : ¬tracked k) :
    Exact T tracked (refs + {(k, v)}) table ↔ Exact T tracked refs table := by
  have huses : ∀ e : ε, tracked (T.key e) →
      uses (refs + {(k, v)}) (T.key e) = uses refs (T.key e) := by
    intro e he
    have hne : k ≠ T.key e := fun hk => h (hk ▸ he)
    simp [hne]
  constructor
  · intro hx
    refine ⟨hx.nodup, fun e he => ?_, fun r hr htr => hx.entry r (by simp [hr]) htr⟩
    obtain ⟨htr, hc, hp⟩ := hx.each e he
    exact ⟨htr, by rw [hc, huses e htr], hp⟩
  · intro hx
    refine ⟨hx.nodup, fun e he => ?_, fun r hr htr => ?_⟩
    · obtain ⟨htr, hc, hp⟩ := hx.each e he
      exact ⟨htr, by rw [hc, huses e htr], hp⟩
    · rcases Multiset.mem_add.mp hr with hr | hr
      · exact hx.entry r hr htr
      · rw [Multiset.mem_singleton] at hr
        rw [hr] at htr
        exact absurd htr h

theorem Exact.entry_of_mem (h : Exact T tracked (refs + {(k, v)}) table) (htr : tracked k) :
    ∃ e ∈ table, T.key e = k ∧ T.val e = v := h.entry (k, v) (by simp) htr

/-- A user goes, others stay. -/
theorem Exact.release (h : Exact T tracked (refs + {(k, v)}) table) {e : ε} (he : e ∈ table)
    (hk : T.key e = k) (hmany : 1 < T.count e) :
    Exact T tracked refs (RefCount.recount T k (· - 1) table) := by
  have hc := (h.each e he).2.1
  rw [hk, uses_add, uses_singleton, if_pos rfl] at hc
  refine h.recount (fun k' hk' => ?_) ?_ ?_ fun r hr htr => h.entry r (by simp [hr]) htr
  · simp [hk'.symm]
  · simp
  · omega

/-- The last user goes. -/
theorem Exact.release_last (h : Exact T tracked (refs + {(k, v)}) table) {e : ε} (he : e ∈ table)
    (hk : T.key e = k) (hone : ¬1 < T.count e) :
    Exact T tracked refs (table.filter fun e => T.key e ≠ k) := by
  have hc := (h.each e he).2.1
  rw [hk, uses_add, uses_singleton, if_pos rfl] at hc
  have hnone : uses refs k = 0 := by omega
  refine ⟨h.nodup.sublist (List.filter_sublist.map _), fun e' he' => ?_, fun r hr htr => ?_⟩
  · obtain ⟨he', hne⟩ := List.mem_filter.mp he'
    obtain ⟨htr, hc', hp⟩ := h.each e' he'
    have hne' : k ≠ T.key e' := fun hke => by simp [hke] at hne
    exact ⟨htr, by rw [hc', uses_add, uses_singleton, if_neg hne', Nat.add_zero], hp⟩
  · obtain ⟨e', he', hk', hv⟩ := h.entry r (by simp [hr]) htr
    refine ⟨e', List.mem_filter.mpr ⟨he', ?_⟩, hk', hv⟩
    have hne : T.key e' ≠ k := hk' ▸ uses_eq_zero.mp hnone r hr
    simpa using hne

end RefCount
