import Mathlib

/-!
# Reconcile — two-pass reconciliation of a record list with a source list

A tracker keeps a list of records (`τ`) that is meant to mirror a list
of source objects (`χ`). It brings the records up to date in two passes:

* `addMissing` walks the SOURCE list; an object without a record gets a
  new one at the head of the list, and the object's record is updated;
* `dropObsolete` walks the RECORD list and destroys every record that
  has no source object any more.

Both passes thread a state `σ` (allocators, reference counts). How a
record is matched with an object is a parameter (`Kind.stored`,
`Kind.present`); nothing below assumes that the two tests agree unless
it asks for `Keyed`.

Main results: `reconcile_ledger` (an invariant that weighs the records
survives), `Keyed.reconcile_keys` (the keys afterwards are the source's
keys), `Keyed.reconcile_origin` (where each record comes from).
-/

namespace Reconcile

variable {σ χ τ κ : Type}

/-- What one kind of record needs: the two lookups and the three
actions of the passes. -/
structure Kind (σ χ τ : Type) where
  /-- the lookup of object `c` in the record list stops at `t` -/
  stored : χ → τ → Bool
  /-- the lookup of record `t` in the source list stops at `c` -/
  present : τ → χ → Bool
  create : χ → σ → τ × σ
  update : χ → τ → σ → τ × σ
  destroy : τ → σ → σ

/-- Update the first record that `p` accepts, in place. -/
def updateFirst (p : τ → Bool) (f : τ → σ → τ × σ) : List τ → σ → List τ × σ
  | [], s => ([], s)
  | t :: ts, s =>
      if p t then ((f t s).1 :: ts, (f t s).2)
      else (t :: (updateFirst p f ts s).1, (updateFirst p f ts s).2)

/-- One object of the first pass: its record is found or created, then
updated. -/
def track (k : Kind σ χ τ) (c : χ) (ts : List τ) (s : σ) : List τ × σ :=
  if ts.any (k.stored c) then updateFirst (k.stored c) (k.update c) ts s
  else
    let new := k.create c s
    let upd := k.update c new.1 new.2
    (upd.1 :: ts, upd.2)

/-- First pass: every object gets a record. -/
def addMissing (k : Kind σ χ τ) : List χ → List τ → σ → List τ × σ
  | [], ts, s => (ts, s)
  | c :: cs, ts, s =>
      addMissing k cs (track k c ts s).1 (track k c ts s).2

/-- Second pass: records without an object are destroyed. -/
def dropObsolete (k : Kind σ χ τ) (cs : List χ) : List τ → σ → List τ × σ
  | [], s => ([], s)
  | t :: ts, s =>
      if cs.any (k.present t) then
        (t :: (dropObsolete k cs ts s).1, (dropObsolete k cs ts s).2)
      else dropObsolete k cs ts (k.destroy t s)

/-- Both passes. -/
def reconcile (k : Kind σ χ τ) (ts : List τ) (cs : List χ) (s : σ) : List τ × σ :=
  dropObsolete k cs (addMissing k cs ts s).1 (addMissing k cs ts s).2

/-! ## The record list alone -/

/-- The second pass filters the list. -/
theorem dropObsolete_fst (k : Kind σ χ τ) (cs : List χ) (ts : List τ) (s : σ) :
    (dropObsolete k cs ts s).1 = ts.filter fun t => cs.any (k.present t) := by
  induction ts generalizing s with
  | nil => rfl
  | cons t ts ih =>
      by_cases h : cs.any (k.present t) = true
      · simp only [dropObsolete, h, if_true, List.filter_cons_of_pos, ih]
      · rw [List.filter_cons_of_neg (by simpa using h)]
        simp only [dropObsolete, if_neg h, ih]

theorem reconcile_fst (k : Kind σ χ τ) (ts : List τ) (cs : List χ) (s : σ) :
    (reconcile k ts cs s).1 =
      (addMissing k cs ts s).1.filter fun t => cs.any (k.present t) :=
  dropObsolete_fst ..

/-- Where every record has an object, the second pass does nothing. -/
theorem dropObsolete_of_present {k : Kind σ χ τ} {cs : List χ} {ts : List τ}
    (h : ∀ t ∈ ts, cs.any (k.present t) = true) (s : σ) : dropObsolete k cs ts s = (ts, s) := by
  induction ts with
  | nil => rfl
  | cons t ts ih =>
      rw [dropObsolete, if_pos (h t (by simp)), ih fun u hu => h u (by simp [hu])]

theorem mem_updateFirst {p : τ → Bool} {f : τ → σ → τ × σ} {ts : List τ} {s : σ} {t' : τ}
    (h : t' ∈ (updateFirst p f ts s).1) :
    t' ∈ ts ∨ ∃ t ∈ ts, p t = true ∧ t' = (f t s).1 := by
  induction ts with
  | nil => simp [updateFirst] at h
  | cons t ts ih =>
      by_cases hp : p t = true
      · simp only [updateFirst, hp, if_true, List.mem_cons] at h
        rcases h with rfl | h
        · exact .inr ⟨t, by simp, hp, rfl⟩
        · exact .inl (by simp [h])
      · simp only [updateFirst, if_neg hp, List.mem_cons] at h
        rcases h with rfl | h
        · exact .inl (by simp)
        · rcases ih h with h | ⟨u, hu, hpu, rfl⟩
          · exact .inl (by simp [h])
          · exact .inr ⟨u, by simp [hu], hpu, rfl⟩

theorem mem_updateFirst_of_neg {p : τ → Bool} {f : τ → σ → τ × σ} {ts : List τ} {t : τ}
    (ht : t ∈ ts) (hp : p t = false) (s : σ) : t ∈ (updateFirst p f ts s).1 := by
  induction ts with
  | nil => cases ht
  | cons u ts ih =>
      unfold updateFirst
      rcases List.mem_cons.mp ht with rfl | ht
      · rw [if_neg (by simp [hp])]
        exact List.mem_cons_self
      · split
        · exact List.mem_cons_of_mem _ ht
        · exact List.mem_cons_of_mem _ (ih ht)

theorem exists_updateFirst {p : τ → Bool} {f : τ → σ → τ × σ} {ts : List τ}
    (h : ts.any p = true) (s : σ) : ∃ t ∈ ts, p t = true ∧
      (f t s).1 ∈ (updateFirst p f ts s).1 ∧ (updateFirst p f ts s).2 = (f t s).2 := by
  induction ts with
  | nil => cases h
  | cons t ts ih =>
      unfold updateFirst
      by_cases hp : p t = true
      · rw [if_pos hp]
        exact ⟨t, List.mem_cons_self, hp, List.mem_cons_self, rfl⟩
      · rw [if_neg hp]
        have hrest : ts.any p = true := by simpa [hp] using h
        obtain ⟨u, hin, hu, hmem, hsnd⟩ := ih hrest
        exact ⟨u, List.mem_cons_of_mem _ hin, hu, List.mem_cons_of_mem _ hmem, hsnd⟩

/-- An update that keeps `key` keeps the list of keys. -/
theorem map_updateFirst {key : τ → κ} {p : τ → Bool} {f : τ → σ → τ × σ}
    (hf : ∀ t s, key (f t s).1 = key t) (ts : List τ) (s : σ) :
    (updateFirst p f ts s).1.map key = ts.map key := by
  induction ts with
  | nil => rfl
  | cons t ts ih =>
      by_cases hp : p t = true
      · simp only [updateFirst, hp, if_true, List.map_cons, hf]
      · simp only [updateFirst, if_neg hp, List.map_cons, ih]

/-! ## Invariants of the threaded state -/

section Invariant

variable (k : Kind σ χ τ) {P : σ → Prop}

/-- Every action of the kind keeps the state property `P`. -/
structure Kind.Keeps (P : σ → Prop) : Prop where
  create : ∀ c s, P s → P (k.create c s).2
  update : ∀ c t s, P s → P (k.update c t s).2
  destroy : ∀ t s, P s → P (k.destroy t s)

theorem Kind.keeps_true : k.Keeps fun _ => True :=
  ⟨fun _ _ _ => trivial, fun _ _ _ _ => trivial, fun _ _ _ => trivial⟩

theorem updateFirst_keeps {p : τ → Bool} {f : τ → σ → τ × σ}
    (hf : ∀ t s, P s → P (f t s).2) (ts : List τ) {s : σ} (hs : P s) :
    P (updateFirst p f ts s).2 := by
  induction ts with
  | nil => exact hs
  | cons t ts ih =>
      by_cases hp : p t = true
      · simpa only [updateFirst, hp, if_true] using hf t s hs
      · simpa only [updateFirst, if_neg hp] using ih

variable {k}

theorem Kind.Keeps.track (h : k.Keeps P) (c : χ) (ts : List τ) {s : σ} (hs : P s) :
    P (track k c ts s).2 := by
  unfold Reconcile.track
  split
  · exact updateFirst_keeps (fun t s hs => h.update c t s hs) ts hs
  · exact h.update c _ _ (h.create c s hs)

theorem Kind.Keeps.addMissing (h : k.Keeps P) (cs : List χ) (ts : List τ) {s : σ}
    (hs : P s) : P (addMissing k cs ts s).2 := by
  induction cs generalizing ts s with
  | nil => exact hs
  | cons c cs ih => exact ih _ (h.track c ts hs)

theorem Kind.Keeps.dropObsolete (h : k.Keeps P) (cs : List χ) (ts : List τ) {s : σ}
    (hs : P s) : P (dropObsolete k cs ts s).2 := by
  induction ts generalizing s with
  | nil => exact hs
  | cons t ts ih =>
      simp only [Reconcile.dropObsolete]
      split
      · exact ih hs
      · exact ih (h.destroy t s hs)

/-- Destroying every record of a list, front to back. -/
def destroyAll (destroy : τ → σ → σ) (ts : List τ) (s : σ) : σ :=
  ts.foldl (fun s t => destroy t s) s

theorem destroyAll_keeps {destroy : τ → σ → σ} (hd : ∀ t s, P s → P (destroy t s))
    (ts : List τ) {s : σ} (hs : P s) : P (destroyAll destroy ts s) := by
  induction ts generalizing s with
  | nil => exact hs
  | cons t ts ih => exact ih (hd t s hs)

theorem Kind.Keeps.reconcile (h : k.Keeps P) (ts : List τ) (cs : List χ) {s : σ}
    (hs : P s) : P (reconcile k ts cs s).2 :=
  h.dropObsolete cs _ (h.addMissing cs ts hs)

end Invariant

/-! ## Ledgers: invariants that weigh the records -/

section Ledger

variable {M : Type} [AddCommMonoid M]

/-- The total weight of a record list. -/
def total (w : τ → M) (ts : List τ) : M := (ts.map w).sum

@[simp] theorem total_nil (w : τ → M) : total w [] = 0 := rfl

@[simp] theorem total_cons (w : τ → M) (t : τ) (ts : List τ) :
    total w (t :: ts) = w t + total w ts := rfl

theorem total_append (w : τ → M) (ts ts' : List τ) :
    total w (ts ++ ts') = total w ts + total w ts' := by
  simp [total]

/-- Weighing nested lists is weighing their concatenation. -/
theorem total_flatMap {υ : Type} (w : υ → M) (sub : τ → List υ) (ts : List τ) :
    total w (ts.flatMap sub) = total (fun t => total w (sub t)) ts := by
  induction ts with
  | nil => rfl
  | cons t ts ih => rw [List.flatMap_cons, total_append, total_cons, ih]

/-- `I m s` relates the state to the total weight `m` of all records
there are; `Q` is what every single record satisfies. The three actions
move weight in and out of the ledger; the rules need to hold only for
the objects of the source list `cs`. -/
structure Ledger (k : Kind σ χ τ) (w : τ → M) (I : M → σ → Prop) (Q : τ → Prop)
    (cs : List χ) : Prop where
  create : ∀ c ∈ cs, ∀ m s, I m s → I (m + w (k.create c s).1) (k.create c s).2
  update : ∀ c ∈ cs, ∀ t m s, k.stored c t = true → Q t → I (m + w t) s →
    I (m + w (k.update c t s).1) (k.update c t s).2
  destroy : ∀ t m s, I (m + w t) s → I m (k.destroy t s)
  /-- a new record is the one its object is looked up by -/
  stored_create : ∀ c ∈ cs, ∀ s, k.stored c (k.create c s).1 = true
  each_create : ∀ c ∈ cs, ∀ s, Q (k.create c s).1
  each_update : ∀ c ∈ cs, ∀ t s, k.stored c t = true → Q t → Q (k.update c t s).1

variable {k : Kind σ χ τ} {w : τ → M} {I : M → σ → Prop} {Q : τ → Prop} {cs : List χ}

theorem updateFirst_ledger {p : τ → Bool} {f : τ → σ → τ × σ}
    (hf : ∀ t m s, p t = true → Q t → I (m + w t) s → I (m + w (f t s).1) (f t s).2)
    {ts : List τ} (hQ : ∀ t ∈ ts, Q t) (m : M) {s : σ} (hs : I (m + total w ts) s) :
    I (m + total w (updateFirst p f ts s).1) (updateFirst p f ts s).2 := by
  induction ts generalizing m with
  | nil => exact hs
  | cons t ts ih =>
      by_cases hp : p t = true
      · simp only [updateFirst, hp, if_true, total_cons]
        have h := hf t (m + total w ts) s hp (hQ t (by simp)) (by
          rwa [add_assoc, add_comm (total w ts)])
        rwa [add_assoc, add_comm (total w ts)] at h
      · simp only [updateFirst, if_neg hp, total_cons]
        have h := ih (fun u hu => hQ u (by simp [hu])) (m + w t) (by rwa [add_assoc])
        rwa [add_assoc] at h

theorem Ledger.each_track (h : Ledger k w I Q cs) {c : χ} (hc : c ∈ cs) {ts : List τ}
    (hQ : ∀ t ∈ ts, Q t) (s : σ) : ∀ t ∈ (track k c ts s).1, Q t := by
  intro t ht
  unfold Reconcile.track at ht
  split at ht
  · rcases mem_updateFirst ht with ht | ⟨u, hu, hp, rfl⟩
    · exact hQ t ht
    · exact h.each_update c hc u s hp (hQ u hu)
  · rcases List.mem_cons.mp ht with rfl | ht
    · exact h.each_update c hc _ _ (h.stored_create c hc s) (h.each_create c hc s)
    · exact hQ t ht

theorem Ledger.track (h : Ledger k w I Q cs) {c : χ} (hc : c ∈ cs) {ts : List τ}
    (hQ : ∀ t ∈ ts, Q t) (m : M) {s : σ} (hs : I (m + total w ts) s) :
    I (m + total w (track k c ts s).1) (track k c ts s).2 := by
  unfold Reconcile.track
  split
  · exact updateFirst_ledger (fun t m s hp hq => h.update c hc t m s hp hq) hQ m hs
  · have h1 := h.create c hc _ s hs
    have h2 := h.update c hc _ _ _ (h.stored_create c hc s) (h.each_create c hc s) h1
    simpa only [total_cons, add_assoc, add_comm (total w ts)] using h2

theorem Ledger.each_addMissing (h : Ledger k w I Q cs) {cs' : List χ} (hsub : ∀ c ∈ cs', c ∈ cs)
    {ts : List τ} (hQ : ∀ t ∈ ts, Q t) (s : σ) : ∀ t ∈ (addMissing k cs' ts s).1, Q t := by
  induction cs' generalizing ts s with
  | nil => exact hQ
  | cons c cs' ih =>
      exact ih (fun d hd => hsub d (by simp [hd])) (h.each_track (hsub c (by simp)) hQ s) _

theorem Ledger.addMissing (h : Ledger k w I Q cs) {cs' : List χ} (hsub : ∀ c ∈ cs', c ∈ cs)
    {ts : List τ} (hQ : ∀ t ∈ ts, Q t) (m : M) {s : σ} (hs : I (m + total w ts) s) :
    I (m + total w (addMissing k cs' ts s).1) (addMissing k cs' ts s).2 := by
  induction cs' generalizing ts s with
  | nil => exact hs
  | cons c cs' ih =>
      have hc : c ∈ cs := hsub c (by simp)
      exact ih (fun d hd => hsub d (by simp [hd])) (h.each_track hc hQ s) (h.track hc hQ m hs)

theorem dropObsolete_ledger (hd : ∀ t m s, I (m + w t) s → I m (k.destroy t s))
    (cs' : List χ) (ts : List τ) (m : M) {s : σ} (hs : I (m + total w ts) s) :
    I (m + total w (dropObsolete k cs' ts s).1) (dropObsolete k cs' ts s).2 := by
  induction ts generalizing m s with
  | nil => exact hs
  | cons t ts ih =>
      by_cases hp : cs'.any (k.present t) = true
      · simp only [Reconcile.dropObsolete, hp, if_true, total_cons]
        have h := ih (m + w t) (s := s) (by rwa [add_assoc])
        rwa [add_assoc] at h
      · simp only [Reconcile.dropObsolete, if_neg hp]
        refine ih m (hd t _ s ?_)
        rwa [add_assoc, add_comm (total w ts)]

/-- **The ledger rule**: whatever the weight `m` of the records outside
the list, the invariant holds of the new total after both passes. -/
theorem Ledger.reconcile (h : Ledger k w I Q cs) {ts : List τ} (hQ : ∀ t ∈ ts, Q t) (m : M)
    {s : σ} (hs : I (m + total w ts) s) :
    I (m + total w (reconcile k ts cs s).1) (reconcile k ts cs s).2 :=
  dropObsolete_ledger h.destroy cs _ m (h.addMissing (fun _ hc => hc) hQ m hs)

theorem Ledger.each_reconcile (h : Ledger k w I Q cs) {ts : List τ} (hQ : ∀ t ∈ ts, Q t)
    (s : σ) : ∀ t ∈ (Reconcile.reconcile k ts cs s).1, Q t := by
  intro t ht
  rw [reconcile_fst, List.mem_filter] at ht
  exact h.each_addMissing (fun _ hc => hc) hQ s t ht.1

theorem destroyAll_ledger {destroy : τ → σ → σ}
    (hd : ∀ t m s, I (m + w t) s → I m (destroy t s))
    (ts : List τ) (m : M) {s : σ} (hs : I (m + total w ts) s) :
    I m (destroyAll destroy ts s) := by
  induction ts generalizing s with
  | nil => simpa [destroyAll] using hs
  | cons t ts ih =>
      refine ih (hd t _ s ?_)
      rwa [add_assoc, add_comm (total w ts)]

end Ledger

/-! ## Keyed kinds -/

variable [DecidableEq κ]

/-- Both lookups compare one key, and no action changes it. -/
structure Keyed (k : Kind σ χ τ) (key : τ → κ) (ckey : χ → κ) : Prop where
  stored : ∀ c t, k.stored c t = (key t == ckey c)
  present : ∀ t c, k.present t c = (ckey c == key t)
  create : ∀ c s, key (k.create c s).1 = ckey c
  update : ∀ c t s, key (k.update c t s).1 = key t

namespace Keyed

variable {k : Kind σ χ τ} {key : τ → κ} {ckey : χ → κ}

theorem any_stored (h : Keyed k key ckey) (c : χ) (ts : List τ) :
    ts.any (k.stored c) = true ↔ ckey c ∈ ts.map key := by
  simp only [List.any_eq_true, h.stored, beq_iff_eq, List.mem_map]

theorem any_present (h : Keyed k key ckey) (t : τ) (cs : List χ) :
    cs.any (k.present t) = true ↔ key t ∈ cs.map ckey := by
  simp only [List.any_eq_true, h.present, beq_iff_eq, List.mem_map]

/-- Keys after one object of the first pass. -/
theorem map_track (h : Keyed k key ckey) (c : χ) (ts : List τ) (s : σ) :
    (track k c ts s).1.map key =
      if ckey c ∈ ts.map key then ts.map key else ckey c :: ts.map key := by
  by_cases hc : ts.any (k.stored c) = true
  · rw [if_pos ((h.any_stored c ts).mp hc), track, if_pos hc,
      map_updateFirst (fun t s => h.update c t s)]
  · rw [if_neg (fun hm => hc ((h.any_stored c ts).mpr hm)), track, if_neg hc]
    simp [h.update, h.create]

theorem mem_map_track (h : Keyed k key ckey) (c : χ) (ts : List τ) (s : σ) (x : κ) :
    x ∈ (track k c ts s).1.map key ↔ x = ckey c ∨ x ∈ ts.map key := by
  rw [h.map_track]
  split
  · rename_i hc
    constructor
    · exact .inr
    · rintro (rfl | hx)
      · exact hc
      · exact hx
  · simp [List.mem_cons]

theorem nodup_track (h : Keyed k key ckey) (c : χ) {ts : List τ} (s : σ)
    (hts : (ts.map key).Nodup) : ((track k c ts s).1.map key).Nodup := by
  rw [h.map_track]
  split
  · exact hts
  · rename_i hc
    exact List.nodup_cons.mpr ⟨hc, hts⟩

theorem mem_map_addMissing (h : Keyed k key ckey) (cs : List χ) (ts : List τ) (s : σ)
    (x : κ) :
    x ∈ (addMissing k cs ts s).1.map key ↔ x ∈ cs.map ckey ∨ x ∈ ts.map key := by
  induction cs generalizing ts s with
  | nil => simp [addMissing]
  | cons c cs ih =>
      rw [addMissing, ih, h.mem_map_track, List.map_cons, List.mem_cons]
      tauto

theorem nodup_addMissing (h : Keyed k key ckey) (cs : List χ) {ts : List τ} (s : σ)
    (hts : (ts.map key).Nodup) : ((addMissing k cs ts s).1.map key).Nodup := by
  induction cs generalizing ts s with
  | nil => exact hts
  | cons c cs ih => exact ih _ (h.nodup_track c s hts)

/-- The keys after both passes are those of the source list. -/
theorem mem_map_reconcile (h : Keyed k key ckey) (ts : List τ) (cs : List χ) (s : σ) (x : κ) :
    x ∈ (reconcile k ts cs s).1.map key ↔ x ∈ cs.map ckey := by
  rw [reconcile_fst]
  constructor
  · intro hx
    obtain ⟨t, ht, rfl⟩ := List.mem_map.mp hx
    exact (h.any_present t cs).mp (List.mem_filter.mp ht).2
  · intro hx
    obtain ⟨t, ht, rfl⟩ := List.mem_map.mp ((h.mem_map_addMissing cs ts s x).mpr (.inl hx))
    exact List.mem_map.mpr ⟨t, List.mem_filter.mpr ⟨ht, (h.any_present t cs).mpr hx⟩, rfl⟩

/-- Where every record has an object, none is obsolete after the first
pass. -/
theorem present_addMissing (h : Keyed k key ckey) {ts : List τ} {cs : List χ} {s : σ}
    (hts : ∀ t ∈ ts, key t ∈ cs.map ckey) :
    ∀ t ∈ (addMissing k cs ts s).1, cs.any (k.present t) = true := by
  intro t ht
  rw [h.any_present]
  rcases (h.mem_map_addMissing cs ts s _).mp (List.mem_map_of_mem ht) with hin | hin
  · exact hin
  · obtain ⟨u, hu, he⟩ := List.mem_map.mp hin
    exact he ▸ hts u hu

/-- **Exactness**: the keys after both passes are the keys of the
source list, each occurring once. -/
theorem reconcile_keys (h : Keyed k key ckey) {ts : List τ} {cs : List χ} (s : σ)
    (hts : (ts.map key).Nodup) (hcs : (cs.map ckey).Nodup) :
    ((reconcile k ts cs s).1.map key).Perm (cs.map ckey) := by
  refine (List.perm_ext_iff_of_nodup ?_ hcs).mpr (h.mem_map_reconcile ts cs s)
  rw [reconcile_fst]
  exact (h.nodup_addMissing cs s hts).sublist (List.filter_sublist.map key)

/-- New records go to the head, one after the other. -/
theorem map_addMissing_of_disjoint (h : Keyed k key ckey) {cs : List χ} {ts : List τ} (s : σ)
    (hcs : (cs.map ckey).Nodup) (hdisj : ∀ c ∈ cs, ckey c ∉ ts.map key) :
    (addMissing k cs ts s).1.map key = (cs.map ckey).reverse ++ ts.map key := by
  induction cs generalizing ts s with
  | nil => rfl
  | cons c cs ih =>
      rw [List.map_cons, List.nodup_cons] at hcs
      have hkeys := h.map_track c ts s
      rw [if_neg (hdisj c (by simp))] at hkeys
      rw [addMissing, ih _ hcs.2, hkeys, List.map_cons, List.reverse_cons, List.append_assoc]
      · rfl
      · intro d hd hmem
        rw [hkeys] at hmem
        rcases List.mem_cons.mp hmem with he | hmem
        · exact hcs.1 (he ▸ List.mem_map_of_mem hd)
        · exact hdisj d (by simp [hd]) hmem

/-- **The first time** the records are those of the source list, in
reverse order. -/
theorem map_reconcile_nil (h : Keyed k key ckey) {cs : List χ} (s : σ)
    (hcs : (cs.map ckey).Nodup) :
    (reconcile k [] cs s).1.map key = (cs.map ckey).reverse := by
  have hkeys : (addMissing k cs [] s).1.map key = (cs.map ckey).reverse := by
    rw [h.map_addMissing_of_disjoint s hcs (by simp), List.map_nil, List.append_nil]
  have hall : ∀ t ∈ (addMissing k cs [] s).1, cs.any (k.present t) = true := by
    intro t ht
    have hmem := List.mem_map_of_mem (f := key) ht
    rw [hkeys, List.mem_reverse] at hmem
    exact (h.any_present t cs).mpr hmem
  rw [reconcile_fst, List.filter_eq_self.mpr hall, hkeys]

/-- A record without an object in the source list is not touched. -/
theorem mem_addMissing_of_other (h : Keyed k key ckey) {cs : List χ} {ts : List τ} {t : τ}
    (ht : t ∈ ts) (hother : key t ∉ cs.map ckey) (s : σ) : t ∈ (addMissing k cs ts s).1 := by
  induction cs generalizing ts s with
  | nil => exact ht
  | cons c cs ih =>
      rw [List.map_cons, List.mem_cons, not_or] at hother
      refine ih ?_ hother.2 _
      unfold track
      split
      · refine mem_updateFirst_of_neg ht ?_ s
        rw [h.stored]
        simpa using hother.1
      · exact List.mem_cons_of_mem _ ht

/-- **Every object leaves a record** that has been updated from it. -/
theorem exists_updated (h : Keyed k key ckey) {cs : List χ} (hcs : (cs.map ckey).Nodup) {c : χ}
    (hc : c ∈ cs) (ts : List τ) (s : σ) :
    ∃ t s', (k.update c t s').1 ∈ (reconcile k ts cs s).1 ∧ key t = ckey c := by
  have hadd : ∃ t s', (k.update c t s').1 ∈ (addMissing k cs ts s).1 ∧ key t = ckey c := by
    induction cs generalizing ts s with
    | nil => cases hc
    | cons d cs ih =>
        rw [List.map_cons, List.nodup_cons] at hcs
        rcases List.mem_cons.mp hc with rfl | hc
        · -- what the turn of `c` leaves is not touched any more
          have hturn : ∃ t s', (k.update c t s').1 ∈ (track k c ts s).1 ∧ key t = ckey c := by
            unfold track
            split
            · rename_i hany
              obtain ⟨t, -, hp, hmem, -⟩ := exists_updateFirst (f := k.update c) hany s
              exact ⟨t, s, hmem, by simpa [h.stored] using hp⟩
            · exact ⟨_, _, List.mem_cons_self, h.create c s⟩
          obtain ⟨t, s', hmem, hkey⟩ := hturn
          refine ⟨t, s', h.mem_addMissing_of_other hmem ?_ _, hkey⟩
          rw [h.update, hkey]
          exact hcs.1
        · exact ih hcs.2 hc _ _
  obtain ⟨t, s', hmem, hkey⟩ := hadd
  refine ⟨t, s', ?_, hkey⟩
  rw [reconcile_fst, List.mem_filter]
  refine ⟨hmem, (h.any_present _ cs).mpr ?_⟩
  rw [h.update, hkey]
  exact List.mem_map_of_mem hc

/-- **The trace rule**: the state keeps a log of what the updates of the
objects note, in the order of the source list. Objects have distinct keys,
so none of them is updated twice. -/
theorem reconcile_trace (h : Keyed k key ckey) {β : Type} {I : List β → σ → Prop}
    {Q : χ → τ → Prop} {f : χ → List β} {cs : List χ}
    (hcreate : ∀ c ∈ cs, ∀ seen s, I seen s → I seen (k.create c s).2 ∧ Q c (k.create c s).1)
    (hupdate : ∀ c ∈ cs, ∀ t seen s, Q c t → I seen s → I (seen ++ f c) (k.update c t s).2)
    (hcs : (cs.map ckey).Nodup) {ts : List τ} (hkeys : ∀ t ∈ ts, key t ∈ cs.map ckey)
    (hts : ∀ t ∈ ts, ∀ c ∈ cs, key t = ckey c → Q c t) (seen : List β) {s : σ} (hs : I seen s) :
    I (seen ++ cs.flatMap f) (reconcile k ts cs s).2 := by
  have hall : ∀ t ∈ (addMissing k cs ts s).1, cs.any (k.present t) = true :=
    h.present_addMissing hkeys
  rw [reconcile, dropObsolete_of_present hall]
  clear hall hkeys
  induction cs generalizing ts seen s with
  | nil => simpa [addMissing] using hs
  | cons c cs ih =>
      rw [List.map_cons, List.nodup_cons] at hcs
      have hturn : I (seen ++ f c) (track k c ts s).2 := by
        unfold track
        split
        · rename_i hany
          obtain ⟨t, ht, hp, -, hsnd⟩ := exists_updateFirst (f := k.update c) hany s
          rw [hsnd]
          have hkey : key t = ckey c := by simpa [h.stored] using hp
          exact hupdate c (by simp) t seen s (hts t ht c (by simp) hkey) hs
        · obtain ⟨hnew, hq⟩ := hcreate c (by simp) seen s hs
          exact hupdate c (by simp) _ seen _ hq hnew
      -- the record of `c` is none of the objects' whose turn is still to come
      have hrest : ∀ t ∈ (track k c ts s).1, ∀ d ∈ cs, key t = ckey d → Q d t := by
        intro t ht d hd hkey
        have hne : key t ≠ ckey c := fun he =>
          hcs.1 (he.symm.trans hkey ▸ List.mem_map_of_mem hd)
        unfold track at ht
        split at ht
        · rcases mem_updateFirst ht with ht | ⟨u, hu, hp, rfl⟩
          · exact hts t ht d (by simp [hd]) hkey
          · refine absurd ?_ hne
            rw [h.update]
            simpa [h.stored] using hp
        · rcases List.mem_cons.mp ht with rfl | ht
          · exact absurd (by rw [h.update, h.create]) hne
          · exact hts t ht d (by simp [hd]) hkey
      have hcons := ih (fun d hd => hcreate d (by simp [hd])) (fun d hd => hupdate d (by simp [hd]))
        hcs.2 hrest _ hturn
      rwa [List.append_assoc, ← List.flatMap_cons] at hcons

/-- The same for the first records there are. -/
theorem reconcile_trace_nil (h : Keyed k key ckey) {β : Type} {I : List β → σ → Prop}
    {Q : χ → τ → Prop} {f : χ → List β} {cs : List χ}
    (hcreate : ∀ c ∈ cs, ∀ seen s, I seen s → I seen (k.create c s).2 ∧ Q c (k.create c s).1)
    (hupdate : ∀ c ∈ cs, ∀ t seen s, Q c t → I seen s → I (seen ++ f c) (k.update c t s).2)
    (hcs : (cs.map ckey).Nodup) (seen : List β) {s : σ} (hs : I seen s) :
    I (seen ++ cs.flatMap f) (reconcile k [] cs s).2 :=
  h.reconcile_trace hcreate hupdate hcs (List.forall_mem_nil _) (List.forall_mem_nil _) seen hs

/-- If every object has a record and every record an object, the passes
neither create nor destroy: the list keeps its shape. -/
theorem reconcile_map (h : Keyed k key ckey) {β : Type} {f : τ → β}
    (hf : ∀ c t s, f (k.update c t s).1 = f t) {ts : List τ} {cs : List χ} (s : σ)
    (hcs : ∀ c ∈ cs, ckey c ∈ ts.map key) (hts : ∀ t ∈ ts, key t ∈ cs.map ckey) :
    (reconcile k ts cs s).1.map f = ts.map f := by
  have hadd : ∀ cs' : List χ, (∀ c ∈ cs', ckey c ∈ ts.map key) → ∀ (ts' : List τ) (s : σ),
      ts'.map key = ts.map key → ts'.map f = ts.map f →
      (addMissing k cs' ts' s).1.map key = ts.map key ∧
        (addMissing k cs' ts' s).1.map f = ts.map f := by
    intro cs'
    induction cs' with
    | nil => exact fun _ _ _ hk hf' => ⟨hk, hf'⟩
    | cons c cs' ih =>
        intro hc ts' s hk hf'
        have hany : ts'.any (k.stored c) = true :=
          (h.any_stored c ts').mpr (by rw [hk]; exact hc c (by simp))
        rw [addMissing, track, if_pos hany]
        refine ih (fun d hd => hc d (by simp [hd])) _ _ ?_ ?_
        · rw [map_updateFirst (fun t s => h.update c t s), hk]
        · rw [map_updateFirst (fun t s => hf c t s), hf']
  obtain ⟨-, hf'⟩ := hadd cs hcs ts s rfl rfl
  rw [reconcile_fst, List.filter_eq_self.mpr (h.present_addMissing hts), hf']

/-- Where every record has an object, it does not matter how records are
destroyed. -/
theorem reconcile_of_kept (h : Keyed k key ckey) (destroy : τ → σ → σ) {ts : List τ}
    {cs : List χ} (s : σ) (hts : ∀ t ∈ ts, key t ∈ cs.map ckey) :
    reconcile k ts cs s = reconcile { k with destroy := destroy } ts cs s := by
  have hadd : ∀ (cs : List χ) (ts : List τ) (s : σ),
      addMissing { k with destroy := destroy } cs ts s = addMissing k cs ts s := by
    intro cs
    induction cs with
    | nil => exact fun _ _ => rfl
    | cons c cs ih => exact fun ts s => ih (track k c ts s).1 (track k c ts s).2
  have hall : ∀ t ∈ (addMissing k cs ts s).1, cs.any (k.present t) = true :=
    h.present_addMissing hts
  rw [reconcile, reconcile, hadd, dropObsolete_of_present hall,
    dropObsolete_of_present (k := { k with destroy := destroy }) hall]

/-- **The ledger rule without creation and destruction**: if every object
has a record and every record an object, only the updates move weight. -/
theorem updates_ledger (h : Keyed k key ckey) {M : Type} [AddCommMonoid M] {w : τ → M}
    {I : M → σ → Prop} {cs : List χ}
    (hupdate : ∀ c ∈ cs, ∀ t m s, I (m + w t) s →
      I (m + w (k.update c t s).1) (k.update c t s).2)
    {ts : List τ} (hcs : ∀ c ∈ cs, ckey c ∈ ts.map key) (hts : ∀ t ∈ ts, key t ∈ cs.map ckey)
    (m : M) {s : σ} (hs : I (m + total w ts) s) :
    I (m + total w (reconcile k ts cs s).1) (reconcile k ts cs s).2 := by
  have hadd : ∀ cs' : List χ, (∀ c ∈ cs', c ∈ cs) → ∀ (ts' : List τ) (s : σ),
      ts'.map key = ts.map key → I (m + total w ts') s →
      (addMissing k cs' ts' s).1.map key = ts.map key ∧
        I (m + total w (addMissing k cs' ts' s).1) (addMissing k cs' ts' s).2 := by
    intro cs'
    induction cs' with
    | nil => exact fun _ _ _ hk hs => ⟨hk, hs⟩
    | cons c cs' ih =>
        intro hsub ts' s hk hs
        have hc : c ∈ cs := hsub c (by simp)
        have hany : ts'.any (k.stored c) = true :=
          (h.any_stored c ts').mpr (by rw [hk]; exact hcs c hc)
        rw [addMissing, track, if_pos hany]
        refine ih (fun d hd => hsub d (by simp [hd])) _ _ ?_ ?_
        · rw [map_updateFirst (fun t s => h.update c t s), hk]
        · exact updateFirst_ledger (Q := fun _ => True)
            (fun t m s _ _ hs => hupdate c hc t m s hs) (fun _ _ => trivial) m hs
  obtain ⟨-, hadd⟩ := hadd cs (fun _ hc => hc) ts s rfl hs
  rw [reconcile, dropObsolete_of_present (h.present_addMissing hts)]
  exact hadd

/-- Where the record `t'` of object `c` comes from: it is the update of
the record that was there before under this key, or of a new one if
there was none. `P` holds of the states at which the actions ran. -/
def Origin (k : Kind σ χ τ) (key : τ → κ) (ckey : χ → κ) (P : σ → Prop) (ts : List τ)
    (c : χ) (t' : τ) : Prop :=
  ∃ t s, P s ∧ t' = (k.update c t s).1 ∧
    ((t ∈ ts ∧ key t = ckey c) ∨
      (ckey c ∉ ts.map key ∧ ∃ s₀, P s₀ ∧ t = (k.create c s₀).1))

variable {P : σ → Prop}

theorem mem_track (h : Keyed k key ckey) (hP : k.Keeps P) {c : χ} {ts : List τ} {s : σ}
    (hs : P s) (hts : (ts.map key).Nodup) {t' : τ} (ht : t' ∈ (track k c ts s).1) :
    (t' ∈ ts ∧ key t' ≠ ckey c) ∨ (key t' = ckey c ∧ Origin k key ckey P ts c t') := by
  by_cases hc : ts.any (k.stored c) = true
  · rw [track, if_pos hc] at ht
    -- the updated position is the only one with this key
    have hsplit : ∀ ts : List τ, (ts.map key).Nodup →
        t' ∈ (updateFirst (k.stored c) (k.update c) ts s).1 → ckey c ∈ ts.map key →
        (t' ∈ ts ∧ key t' ≠ ckey c) ∨ ∃ t ∈ ts, key t = ckey c ∧ t' = (k.update c t s).1 := by
      intro ts
      induction ts with
      | nil => intro _ h1; simp [updateFirst] at h1
      | cons t ts ih =>
          intro hnd hmem hin
          rw [List.map_cons, List.nodup_cons] at hnd
          by_cases hp : k.stored c t = true
          · have hkey : key t = ckey c := by simpa [h.stored] using hp
            simp only [updateFirst, hp, if_true, List.mem_cons] at hmem
            rcases hmem with rfl | hmem
            · exact .inr ⟨t, by simp, hkey, rfl⟩
            · refine .inl ⟨by simp [hmem], fun he => hnd.1 ?_⟩
              rw [hkey, ← he]
              exact List.mem_map_of_mem hmem
          · have hkey : key t ≠ ckey c := by simpa [h.stored] using hp
            simp only [updateFirst, if_neg hp, List.mem_cons] at hmem
            rcases hmem with rfl | hmem
            · exact .inl ⟨by simp, hkey⟩
            · have hin' : ckey c ∈ ts.map key := by
                rcases List.mem_cons.mp hin with he | hin'
                · exact absurd he.symm hkey
                · exact hin'
              rcases ih hnd.2 hmem hin' with ⟨h1, h2⟩ | ⟨u, hu, hku, rfl⟩
              · exact .inl ⟨by simp [h1], h2⟩
              · exact .inr ⟨u, by simp [hu], hku, rfl⟩
    rcases hsplit ts hts ht ((h.any_stored c ts).mp hc) with hold | ⟨t, htm, hkey, rfl⟩
    · exact .inl hold
    · exact .inr ⟨by rw [h.update, hkey], t, s, hs, rfl, .inl ⟨htm, hkey⟩⟩
  · have hnot : ckey c ∉ ts.map key := fun hm => hc ((h.any_stored c ts).mpr hm)
    rw [track, if_neg hc] at ht
    rcases List.mem_cons.mp ht with rfl | ht
    · refine .inr ⟨by rw [h.update, h.create], _, _, hP.create c s hs, rfl, .inr ⟨hnot, s, hs, rfl⟩⟩
    · refine .inl ⟨ht, fun he => hnot ?_⟩
      rw [← he]
      exact List.mem_map_of_mem ht

theorem mem_addMissing (h : Keyed k key ckey) (hP : k.Keeps P) {cs : List χ} {ts : List τ}
    {s : σ} (hs : P s) (hts : (ts.map key).Nodup) (hcs : (cs.map ckey).Nodup) {t' : τ}
    (ht : t' ∈ (addMissing k cs ts s).1) :
    (t' ∈ ts ∧ key t' ∉ cs.map ckey) ∨
      ∃ c ∈ cs, key t' = ckey c ∧ Origin k key ckey P ts c t' := by
  induction cs generalizing ts s with
  | nil => exact .inl ⟨ht, by simp⟩
  | cons c cs ih =>
      rw [List.map_cons, List.nodup_cons] at hcs
      rcases ih (hP.track c ts hs) (h.nodup_track c s hts) hcs.2 ht with
        ⟨hin, hkey⟩ | ⟨d, hd, hkey, t, s', hs', rfl, horig⟩
      · rcases h.mem_track hP hs hts hin with ⟨hin, hne⟩ | ⟨he, horig⟩
        · exact .inl ⟨hin, by simp [hne, hkey]⟩
        · exact .inr ⟨c, by simp, he, horig⟩
      · -- the record of a later object: the step for `c` did not touch it
        have hdc : ckey d ≠ ckey c := fun he => hcs.1 (he ▸ List.mem_map_of_mem hd)
        refine .inr ⟨d, by simp [hd], hkey, t, s', hs', rfl, ?_⟩
        rcases horig with ⟨htm, htk⟩ | ⟨hnot, hnew⟩
        · rcases h.mem_track hP hs hts htm with ⟨hin, _⟩ | ⟨he, _⟩
          · exact .inl ⟨hin, htk⟩
          · exact absurd (htk.symm.trans he) hdc
        · exact .inr ⟨fun hm => hnot ((h.mem_map_track c ts s _).mpr (.inr hm)), hnew⟩

/-- **Provenance**: every record after both passes belongs to an object
of the source list and has just been updated from it. -/
theorem reconcile_origin (h : Keyed k key ckey) (hP : k.Keeps P) {ts : List τ}
    {cs : List χ} {s : σ} (hs : P s) (hts : (ts.map key).Nodup) (hcs : (cs.map ckey).Nodup)
    {t' : τ} (ht : t' ∈ (reconcile k ts cs s).1) :
    ∃ c ∈ cs, key t' = ckey c ∧ Origin k key ckey P ts c t' := by
  rw [reconcile_fst, List.mem_filter, h.any_present] at ht
  rcases h.mem_addMissing hP hs hts hcs ht.1 with ⟨-, hnot⟩ | horig
  · exact absurd ht.2 hnot
  · exact horig

end Keyed

/-! ## The mirror relation -/

/-- `new` mirrors the source list `cs`: the keys agree, each occurring
once, and every record stands in `rel` to its predecessor in `old` (if
there was one under its key) and to its object. -/
structure Mirror (key : τ → κ) (ckey : χ → κ) (rel : Option τ → τ → χ → Prop)
    (old new : List τ) (cs : List χ) : Prop where
  keys : (new.map key).Perm (cs.map ckey)
  nodup : (new.map key).Nodup
  each : ∀ t' ∈ new, ∃ c ∈ cs, ckey c = key t' ∧
    rel (old.find? fun t => key t == key t') t' c

theorem Mirror.imp {key : τ → κ} {ckey : χ → κ} {rel rel' : Option τ → τ → χ → Prop}
    {old new : List τ} {cs : List χ} (h : Mirror key ckey rel old new cs)
    (himp : ∀ o, ∀ t ∈ new, ∀ c ∈ cs, rel o t c → rel' o t c) :
    Mirror key ckey rel' old new cs where
  keys := h.keys
  nodup := h.nodup
  each t ht := by
    obtain ⟨c, hc, hkey, hrel⟩ := h.each t ht
    exact ⟨c, hc, hkey, himp _ t ht c hc hrel⟩

/-- What every record says of its object, the records say together of the
source list. -/
theorem Mirror.mem_flatMap {key : τ → κ} {ckey : χ → κ} {rel : Option τ → τ → χ → Prop}
    {old new : List τ} {cs : List χ} (h : Mirror key ckey rel old new cs)
    (hcs : (cs.map ckey).Nodup) {β : Type} {f : τ → List β} {g : χ → List β}
    (hfg : ∀ t ∈ new, ∀ c ∈ cs, rel (old.find? fun u => key u == key t) t c →
      ∀ x, x ∈ f t ↔ x ∈ g c) (x : β) : x ∈ new.flatMap f ↔ x ∈ cs.flatMap g := by
  rw [List.mem_flatMap, List.mem_flatMap]
  constructor
  · intro ⟨t, ht, hx⟩
    obtain ⟨c, hc, -, hrel⟩ := h.each t ht
    exact ⟨c, hc, (hfg t ht c hc hrel x).mp hx⟩
  · intro ⟨c, hc, hx⟩
    obtain ⟨t, ht, hkey⟩ := List.mem_map.mp (h.keys.mem_iff.mpr (List.mem_map_of_mem hc))
    obtain ⟨c', hc', hkey', hrel⟩ := h.each t ht
    obtain rfl := List.inj_on_of_nodup_map hcs hc' hc (hkey'.trans hkey)
    exact ⟨t, ht, (hfg t ht c' hc' hrel x).mpr hx⟩

theorem find?_key_of_mem {key : τ → κ} {ts : List τ} (hts : (ts.map key).Nodup) {t : τ}
    (ht : t ∈ ts) : (ts.find? fun u => key u == key t) = some t := by
  induction ts with
  | nil => simp at ht
  | cons u ts ih =>
      rw [List.map_cons, List.nodup_cons] at hts
      rcases List.mem_cons.mp ht with rfl | ht
      · simp
      · have hne : key u ≠ key t := fun he => hts.1 (he ▸ List.mem_map_of_mem ht)
        rw [List.find?_cons_of_neg (by simpa using hne)]
        exact ih hts.2 ht

theorem find?_key_eq_none {key : τ → κ} {ts : List τ} {x : κ} (hx : x ∉ ts.map key) :
    (ts.find? fun u => key u == x) = none := by
  rw [List.find?_eq_none]
  intro u hu he
  exact hx (by rw [← (beq_iff_eq.mp he)]; exact List.mem_map_of_mem hu)

/-- Reconciling a keyed kind yields a mirror, for every relation that
the update establishes, on an old record and on a new one. -/
theorem Keyed.mirror {k : Kind σ χ τ} {key : τ → κ} {ckey : χ → κ} (h : Keyed k key ckey)
    {P : σ → Prop} (hP : k.Keeps P) {rel : Option τ → τ → χ → Prop} {ts : List τ}
    {cs : List χ} {s : σ} (hs : P s) (hts : (ts.map key).Nodup) (hcs : (cs.map ckey).Nodup)
    (hold : ∀ t ∈ ts, ∀ c ∈ cs, key t = ckey c → ∀ s, P s →
      rel (some t) (k.update c t s).1 c)
    (hnew : ∀ c ∈ cs, ∀ s₀ s, P s₀ → P s →
      rel none (k.update c (k.create c s₀).1 s).1 c) :
    Mirror key ckey rel ts (reconcile k ts cs s).1 cs where
  keys := h.reconcile_keys s hts hcs
  nodup := (h.reconcile_keys s hts hcs).nodup_iff.mpr hcs
  each := by
    intro t' ht'
    obtain ⟨c, hc, hkey, t, s', hs', rfl, horig⟩ := h.reconcile_origin hP hs hts hcs ht'
    refine ⟨c, hc, hkey.symm, ?_⟩
    rcases horig with ⟨ht, htk⟩ | ⟨hnot, s₀, hs₀, rfl⟩
    · rw [h.update, find?_key_of_mem hts ht]
      exact hold t ht c hc htk s' hs'
    · rw [hkey, find?_key_eq_none hnot]
      exact hnew c hc s₀ s' hs₀ hs'

end Reconcile
