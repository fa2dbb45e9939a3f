import Mathlib

/-!
# Translation — tables that grow at the front

A table is a list of entries with a key and a value; a lookup takes the
first entry. `Adds` keeps account of the keys a computation has entered,
`Draws` of the values: some known beforehand (`olds`), the others taken
from a counter, so that each is new. If all keys and all old values are
different, the table is an injective map.
-/

namespace Translation

variable {ε κ ν : Type}

/-! ## Keys -/

section Keys

variable {key : ε → κ} {keys keys' : List κ} {l l₁ l₂ : List ε}

/-- Entries for exactly `keys` have come in front. -/
def Adds (key : ε → κ) (keys : List κ) (l l' : List ε) : Prop :=
  ∃ news, l' = news ++ l ∧ (news.map key).Perm keys

theorem Adds.refl (key : ε → κ) (l : List ε) : Adds key [] l l := ⟨[], rfl, .refl _⟩

theorem Adds.entry (key : ε → κ) (e : ε) (l : List ε) : Adds key [key e] l (e :: l) :=
  ⟨[e], rfl, .refl _⟩

theorem Adds.trans (h : Adds key keys l l₁) (h' : Adds key keys' l₁ l₂) :
    Adds key (keys ++ keys') l l₂ := by
  obtain ⟨news, rfl, hperm⟩ := h
  obtain ⟨news', rfl, hperm'⟩ := h'
  refine ⟨news' ++ news, by simp, ?_⟩
  rw [List.map_append]
  exact List.perm_append_comm.trans (hperm.append hperm')

theorem Adds.perm (h : Adds key keys l l₁) : (l₁.map key).Perm (keys ++ l.map key) := by
  obtain ⟨news, rfl, hperm⟩ := h
  rw [List.map_append]
  exact hperm.append_right _

/-- A key is there if it was there or has been entered. -/
theorem Adds.mem_keys (h : Adds key keys l l₁) (k : κ) :
    k ∈ l₁.map key ↔ k ∈ keys ∨ k ∈ l.map key := by
  rw [h.perm.mem_iff, List.mem_append]

end Keys

/-! ## Values -/

section Values

variable {value : ε → ν} {rank : ν → Nat} {olds olds' : List ν} {n n₁ n₂ : Nat}
  {l l₁ l₂ : List ε}

/-- The values of the entries that have come in front: `olds`, and new
ones from the counter, which has gone from `n` to `n'`. -/
structure Draws (value : ε → ν) (rank : ν → Nat) (olds : List ν) (n n' : Nat) (l l' : List ε) :
    Prop where
  le : n ≤ n'
  values : ∃ news fresh, l' = news ++ l ∧ (news.map value).Perm (olds ++ fresh) ∧ fresh.Nodup ∧
    ∀ v ∈ fresh, n ≤ rank v ∧ rank v < n'

/-- The counter moves, the table does not. -/
theorem Draws.skip (value : ε → ν) (rank : ν → Nat) (l : List ε) (h : n ≤ n₁) :
    Draws value rank [] n n₁ l l :=
  ⟨h, [], [], rfl, .refl _, List.nodup_nil, by simp⟩

theorem Draws.refl (value : ε → ν) (rank : ν → Nat) (n : Nat) (l : List ε) :
    Draws value rank [] n n l l := .skip value rank l le_rfl

theorem Draws.old (value : ε → ν) (rank : ν → Nat) (n : Nat) (e : ε) (l : List ε) :
    Draws value rank [value e] n n l (e :: l) :=
  ⟨le_rfl, [e], [], rfl, .refl _, List.nodup_nil, by simp⟩

theorem Draws.fresh (value : ε → ν) {rank : ν → Nat} (l : List ε) {e : ε}
    (hlo : n ≤ rank (value e)) (hhi : rank (value e) < n₁) :
    Draws value rank [] n n₁ l (e :: l) :=
  ⟨by omega, [e], [value e], rfl, .refl _, List.nodup_singleton _, by simp [hlo, hhi]⟩

theorem Draws.trans (h : Draws value rank olds n n₁ l l₁)
    (h' : Draws value rank olds' n₁ n₂ l₁ l₂) : Draws value rank (olds ++ olds') n n₂ l l₂ := by
  obtain ⟨hle, news, fresh, rfl, hperm, hnd, hrank⟩ := h
  obtain ⟨hle', news', fresh', rfl, hperm', hnd', hrank'⟩ := h'
  refine ⟨hle.trans hle', news' ++ news, fresh ++ fresh', by simp, ?_, ?_, ?_⟩
  · rw [List.map_append]
    refine (List.perm_append_comm.trans (hperm.append hperm')).trans ?_
    simp only [List.append_assoc]
    refine List.Perm.append_left _ ?_
    rw [← List.append_assoc, ← List.append_assoc]
    exact List.perm_append_comm.append_right _
  · refine List.nodup_append.mpr ⟨hnd, hnd', fun v hv w hw he => ?_⟩
    have h₁ := (hrank v hv).2
    have h₂ := (hrank' w hw).1
    rw [he] at h₁
    omega
  · intro v hv
    rcases List.mem_append.mp hv with hv | hv
    · exact ⟨(hrank v hv).1, (hrank v hv).2.trans_le hle'⟩
    · exact ⟨hle.trans (hrank' v hv).1, (hrank' v hv).2⟩

/-- The old values come from `pool`, each place of it used at most once. -/
def DrawsFrom (value : ε → ν) (rank : ν → Nat) (pool : List ν) (n n' : Nat) (l l' : List ε) :
    Prop :=
  ∃ olds, olds.Subperm pool ∧ Draws value rank olds n n' l l'

variable {pool pool' : List ν}

theorem DrawsFrom.of_draws (h : Draws value rank olds n n₁ l l₁) :
    DrawsFrom value rank olds n n₁ l l₁ := ⟨olds, .refl _, h⟩

theorem DrawsFrom.mono (h : DrawsFrom value rank pool n n₁ l l₁) (hsub : pool.Subperm pool') :
    DrawsFrom value rank pool' n n₁ l l₁ := by
  obtain ⟨olds, hold, hdraws⟩ := h
  exact ⟨olds, hold.trans hsub, hdraws⟩

theorem DrawsFrom.trans (h : DrawsFrom value rank pool n n₁ l l₁)
    (h' : DrawsFrom value rank pool' n₁ n₂ l₁ l₂) :
    DrawsFrom value rank (pool ++ pool') n n₂ l l₂ := by
  obtain ⟨olds, hold, hdraws⟩ := h
  obtain ⟨olds', hold', hdraws'⟩ := h'
  exact ⟨olds ++ olds', hold.append hold', hdraws.trans hdraws'⟩

/-- **The values are all different** if those of the pool are. -/
theorem DrawsFrom.nodup (h : DrawsFrom value rank pool n n₁ [] l) (hnd : pool.Nodup)
    (hold : ∀ v ∈ pool, rank v < n) : (l.map value).Nodup := by
  obtain ⟨olds, hsub, -, news, fresh, rfl, hperm, hfresh, hrank⟩ := h
  rw [List.append_nil, hperm.nodup_iff]
  obtain ⟨olds', hperm', hsublist⟩ := hsub
  have holds : olds.Nodup := hperm'.nodup_iff.mp (hnd.sublist hsublist)
  refine List.nodup_append.mpr ⟨holds, hfresh, fun v hv w hw he => ?_⟩
  have h₁ := hold v (hsublist.subset (hperm'.mem_iff.mpr hv))
  have h₂ := (hrank w hw).1
  rw [he] at h₁
  omega

end Values

end Translation
