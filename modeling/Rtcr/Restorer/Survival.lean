import Rtcr.Restorer.Quota

/-!
# Restorer.Survival — the quota of one service

A session that `restore()` creates again gets exactly the quota that was
stored. A bootstrapped one gets it on top of what it has.
-/

namespace Rtcr

open Fallible

/-! ## Survival -/

/-- The stored sessions have their quota back: what the child's session
records and what its parent has been upgraded by are what was stored. -/
def Survives {τ χ : Type} (g : Genode) (q : SessionQuota χ) (badge : τ → Nat) (args : τ → String)
    (r : Restorer) (stored : List τ) (objects : List χ) : Prop :=
  ∀ t ∈ stored, ∃ c ∈ objects, r.translate (badge t) = some (q.cap c) ∧
    g.ramQuota (q.args c) = g.ramQuota (args t) ∧ q.parent c = g.ramQuota (args t)

/-- A session that bootstrapped stored ones are translated to has not
been upgraded, and only one of them has. -/
def FreshStart {τ χ : Type} (g : Genode) (q : SessionQuota χ) (boot : τ → Bool) (args : τ → String)
    (stored : List τ) (objects : List χ) : Prop :=
  (stored.filter boot ≠ [] → ∀ c ∈ objects.head?, q.parent c = 0) ∧
    (stored.filter boot).Pairwise fun a b => g.ramQuota (args a) = 0 ∧ g.ramQuota (args b) = 0

/-- The quota of the bootstrapped stored sessions, all together. -/
def bootedQuota {τ : Type} (g : Genode) (boot : τ → Bool) (args : τ → String) (stored : List τ) :
    Nat := ((stored.filter boot).map fun t => g.ramQuota (args t)).sum

/-- Sessions with different capabilities that are handed out, each opened
and upgraded. -/
structure Opened {χ : Type} (g : Genode) (q : SessionQuota χ) (n : Nat) (objects : List χ) :
    Prop where
  caps : (objects.map fun c => (q.cap c).localName).Nodup
  below : ∀ c ∈ objects, (q.cap c).localName < n
  since : ∀ c ∈ objects, ∃ upgrades, q.Since g upgrades c

theorem Opened.mono {χ : Type} {g : Genode} {q : SessionQuota χ} {n n' : Nat} {objects : List χ}
    (h : Opened g q n objects) (hle : n ≤ n') : Opened g q n' objects :=
  ⟨h.caps, fun c hc => (h.below c hc).trans_le hle, h.since⟩

theorem Opened.nil {χ : Type} {g : Genode} {q : SessionQuota χ} {n : Nat} : Opened g q n [] :=
  ⟨List.nodup_nil, by simp, by simp⟩

theorem Opened.single {χ : Type} {g : Genode} {q : SessionQuota χ} {n : Nat} {c : χ}
    (hlt : (q.cap c).localName < n) (hsince : ∃ upgrades, q.Since g upgrades c) :
    Opened g q n [c] :=
  ⟨List.nodup_singleton _, by simpa using hlt, by simpa using hsince⟩

theorem Survives.congr {τ χ : Type} {g : Genode} {q : SessionQuota χ} {badge : τ → Nat}
    {args : τ → String} {r r' : Restorer} {stored : List τ} {objects : List χ}
    (h : r'.ckptToRestoInfos = r.ckptToRestoInfos) :
    Survives g q badge args r' stored objects ↔ Survives g q badge args r stored objects := by
  unfold Survives Restorer.translate
  rw [h]

namespace Translated

variable {τ : Type} {boot : τ → Bool} {first : Cap} {n n' : Nat} {ps : List (τ × Cap)}

theorem newCaps_ascending (h : Translated boot first n n' ps) :
    (newCaps boot ps).Pairwise fun a b => a.localName < b.localName := by
  rw [newCaps, List.pairwise_map]
  refine List.Pairwise.imp_of_mem ?_ (h.ascending.sublist List.filter_sublist)
  intro a b ha hb hab
  exact hab (by simpa using (List.mem_filter.mp ha).2) (by simpa using (List.mem_filter.mp hb).2)

theorem newCaps_le (h : Translated boot first n n' ps) {cap : Cap} (hcap : cap ∈ newCaps boot ps) :
    n ≤ cap.localName := by
  obtain ⟨p, hp, rfl⟩ := List.mem_map.mp hcap
  obtain ⟨hmem, hb⟩ := List.mem_filter.mp hp
  exact (h.fresh p hmem (by simpa using hb)).1

/-- A new capability belongs to one stored session only. -/
theorem fresh_inj (h : Translated boot first n n' ps)
    (hfirst : ps.filter (fun p => boot p.1) ≠ [] → first.localName < n) {a b : τ × Cap}
    (ha : a ∈ ps) (hb : b ∈ ps) (hba : boot a.1 = false) (hcap : b.2 = a.2) : b = a := by
  have hbb : boot b.1 = false := by
    cases hbb : boot b.1 with
    | false => rfl
    | true =>
        have hlo := (h.fresh a ha hba).1
        have hhi := hfirst (List.ne_nil_of_mem (List.mem_filter.mpr ⟨hb, hbb⟩))
        rw [← hcap, h.booted b hb hbb] at hlo
        omega
  have hnd : ((ps.filter fun p => !boot p.1).map fun p => p.2.localName).Nodup := by
    have hasc := h.newCaps_ascending
    rw [newCaps, List.pairwise_map] at hasc
    rw [List.Nodup, List.pairwise_map]
    exact hasc.imp fun hlt => Nat.ne_of_lt hlt
  exact List.inj_on_of_nodup_map hnd (List.mem_filter.mpr ⟨hb, by simp [hbb]⟩)
    (List.mem_filter.mpr ⟨ha, by simp [hba]⟩) (congrArg Cap.localName hcap)

end Translated

/-! ## One service -/

/-- The capabilities of all sessions of a service differ. -/
theorem caps_nodup {τ χ : Type} {g : Genode} {q : SessionQuota χ} {boot : τ → Bool} {first : Cap}
    {n n' : Nat} {ps : List (τ × Cap)} {objects objects₁ : List χ} (ho : Opened g q n objects)
    (htr : Translated boot first n n' ps)
    (hfaces : objects₁.map q.face =
      ((newCaps boot ps).map fun cap => (cap, "", 0)).reverse ++ objects.map q.face) :
    (objects₁.map fun c => (q.cap c).localName).Nodup := by
  have hlist : objects₁.map (fun c => (q.cap c).localName) =
      ((newCaps boot ps).map Cap.localName).reverse ++
        objects.map fun c => (q.cap c).localName := by
    have hmap := congrArg (List.map fun f : Cap × String × Nat => f.1.localName) hfaces
    simpa [List.map_append, List.map_reverse, Function.comp_def, SessionQuota.face] using hmap
  rw [hlist, List.nodup_append]
  refine ⟨List.nodup_reverse.mpr ?_, ho.caps, ?_⟩
  · rw [List.Nodup, List.pairwise_map]
    exact htr.newCaps_ascending.imp fun hlt => Nat.ne_of_lt hlt
  · intro x hx y hy he
    obtain ⟨cap, hcap, rfl⟩ := List.mem_map.mp (List.mem_reverse.mp hx)
    obtain ⟨c, hc, rfl⟩ := List.mem_map.mp hy
    have hlo := htr.newCaps_le hcap
    have hhi := ho.below c hc
    omega

/-- A service when the upgrades have been replayed: `objects` before
`restore()`, `objects₁` when all stored sessions are translated,
`objects₂` afterwards. -/
structure Settled {τ χ : Type} (g : Genode) (q : SessionQuota χ) (boot : τ → Bool) (first : Cap)
    (badge : τ → Nat) (args : τ → String) (n n' : Nat) (r : Restorer) (ps : List (τ × Cap))
    (objects objects₁ objects₂ : List χ) : Prop where
  opened : Opened g q n objects
  head : ps.filter (fun p => boot p.1) ≠ [] → ∃ c, objects.head? = some c ∧ q.cap c = first
  distinct : (ps.map fun p => badge p.1).Nodup
  translated : Translated boot first n n' ps
  lookup : ∀ p ∈ ps, r.translate (badge p.1) = some p.2
  faces : objects₁.map q.face =
    ((newCaps boot ps).map fun cap => (cap, "", 0)).reverse ++ objects.map q.face
  replay : List.Forall₂ (Replayed g q badge args r (ps.map Prod.fst)) objects₁ objects₂

namespace Settled

variable {τ χ : Type} {g : Genode} {q : SessionQuota χ} {boot : τ → Bool} {first : Cap}
  {badge : τ → Nat} {args : τ → String} {n n' : Nat} {r : Restorer} {ps : List (τ × Cap)}
  {objects objects₁ objects₂ : List χ}
  (h : Settled g q boot first badge args n n' r ps objects objects₁ objects₂)

include h

theorem replayed_eq (cap : Cap) : replayed g badge args r cap (ps.map Prod.fst) =
    ((ps.filter fun p => p.2 = cap).map fun p => g.ramQuota (args p.1)).sum := by
  unfold replayed
  rw [List.filter_map, List.map_map]
  congr 2
  refine List.filter_congr fun p hp => ?_
  simp [h.lookup p hp]

theorem first_lt (hb : ps.filter (fun p => boot p.1) ≠ []) : first.localName < n := by
  obtain ⟨c, hc, rfl⟩ := h.head hb
  exact h.opened.below c (List.mem_of_head? hc)

/-- A session created again ends with the quota that was stored. -/
theorem fresh (hg : g.Faithful) {p : τ × Cap} (hp : p ∈ ps) (hb : boot p.1 = false) :
    ∃ d ∈ objects₂, q.cap d = p.2 ∧ g.ramQuota (q.args d) = g.ramQuota (args p.1) ∧
      q.parent d = g.ramQuota (args p.1) := by
  have hface : (p.2, "", 0) ∈ objects₁.map q.face := by
    rw [h.faces]
    refine List.mem_append_left _ (List.mem_reverse.mpr (List.mem_map.mpr ⟨p.2, ?_, rfl⟩))
    exact List.mem_map.mpr ⟨p, List.mem_filter.mpr ⟨hp, by simp [hb]⟩, rfl⟩
  obtain ⟨c, hc, hface⟩ := List.mem_map.mp hface
  simp only [SessionQuota.face, Prod.mk.injEq] at hface
  obtain ⟨hcap, hargs, hparent⟩ := hface
  obtain ⟨d, hd, hrep⟩ := List.exists_of_forall₂_left h.replay hc
  have hone : ps.filter (fun p' => p'.2 = p.2) = [p] := by
    refine List.filter_eq_singleton h.distinct.of_map hp fun p' hp' => ?_
    rw [decide_eq_true_iff]
    exact ⟨h.translated.fresh_inj h.first_lt hp hp' hb, fun he => by rw [he]⟩
  have hsum : q.parent d = g.ramQuota (args p.1) := by
    rw [hrep.parent, hparent, hcap, h.replayed_eq, hone]
    simp
  refine ⟨d, hd, hrep.cap.trans hcap, ?_, hsum⟩
  have hacc := hrep.accounted (.new hg hargs hparent)
  rw [hacc (hsum ▸ hg.below _), hsum]

/-- **A bootstrapped session** ends with its own upgrades and the quota
of all stored sessions that are translated to it. -/
theorem booted {c : χ} (hc : objects.head? = some c) (hcap : q.cap c = first) :
    ∃ d ∈ objects₂, q.cap d = first ∧
      q.parent d = q.parent c + bootedQuota g boot args (ps.map Prod.fst) ∧
      (q.Accounted g c → q.Accounted g d) := by
  have hmem : c ∈ objects := List.mem_of_head? hc
  have hface : q.face c ∈ objects₁.map q.face := by
    rw [h.faces]
    exact List.mem_append_right _ (List.mem_map_of_mem hmem)
  obtain ⟨c₁, hc₁, hface⟩ := List.mem_map.mp hface
  obtain ⟨hcap₁, hargs₁, hparent₁⟩ := SessionQuota.face_eq hface
  obtain ⟨d, hd, hrep⟩ := List.exists_of_forall₂_left h.replay hc₁
  have hall : ps.filter (fun p => p.2 = first) = ps.filter fun p => boot p.1 := by
    refine List.filter_congr fun p hp => ?_
    cases hb : boot p.1 with
    | true => simpa using h.translated.booted p hp hb
    | false =>
        have hlo := (h.translated.fresh p hp hb).1
        have hhi := h.opened.below c hmem
        rw [hcap] at hhi
        refine decide_eq_false fun he => ?_
        rw [he] at hlo
        omega
  refine ⟨d, hd, hrep.cap.trans (hcap₁.trans hcap), ?_, fun hacc => ?_⟩
  · rw [hrep.parent, hparent₁, hcap₁, hcap, h.replayed_eq, hall, bootedQuota, List.filter_map,
      List.map_map]
    rfl
  · exact hrep.accounted (hacc.congr hargs₁ hparent₁)

/-- A capability is that of one session. -/
theorem unique {d d' : χ} (hd : d ∈ objects₂) (hd' : d' ∈ objects₂) (he : q.cap d = q.cap d') :
    d = d' := by
  have hnd := caps_nodup h.opened h.translated h.faces
  rw [← Replayed.caps h.replay] at hnd
  exact List.inj_on_of_nodup_map hnd hd hd' (congrArg Cap.localName he)

/-- **Survival** of the quota in one service. -/
theorem survives_iff (hg : g.Faithful)
    (hfits : ps.filter (fun p => boot p.1) ≠ [] → ∀ c ∈ objects.head?,
      q.parent c + bootedQuota g boot args (ps.map Prod.fst) < 2 ^ 32) :
    Survives g q badge args r (ps.map Prod.fst) objects₂ ↔
      FreshStart g q boot args (ps.map Prod.fst) objects := by
  have hfilter : (ps.map Prod.fst).filter boot = (ps.filter fun p => boot p.1).map Prod.fst :=
    List.filter_map
  by_cases hboot : ps.filter (fun p => boot p.1) = []
  · -- all sessions are created again
    have hfresh : FreshStart g q boot args (ps.map Prod.fst) objects := by
      rw [FreshStart, hfilter, hboot]
      exact ⟨fun hne => absurd rfl hne, .nil⟩
    refine iff_of_true (fun t ht => ?_) hfresh
    obtain ⟨p, hp, rfl⟩ := List.mem_map.mp ht
    have hb : boot p.1 = false := by
      simpa using List.filter_eq_nil_iff.mp hboot p hp
    obtain ⟨d, hd, hcap, hargs, hparent⟩ := h.fresh hg hp hb
    exact ⟨d, hd, hcap ▸ h.lookup p hp, hargs, hparent⟩
  · obtain ⟨c, hc, hcap⟩ := h.head hboot
    obtain ⟨d, hd, hdcap, hparent, hacc⟩ := h.booted hc hcap
    have hlt : q.parent d < 2 ^ 32 := hparent ▸ hfits hboot c hc
    obtain ⟨upgrades, hsince⟩ := h.opened.since c (List.mem_of_head? hc)
    have hargs : g.ramQuota (q.args d) = q.parent d := hacc (hsince.accounted hg) hlt
    -- the bootstrapped session has the sum of all, each stored one its own
    have hsum : Survives g q badge args r (ps.map Prod.fst) objects₂ ↔
        ∀ x ∈ ((ps.map Prod.fst).filter boot).map fun t => g.ramQuota (args t),
          q.parent c + (((ps.map Prod.fst).filter boot).map fun t => g.ramQuota (args t)).sum = x := by
      constructor
      · intro hsurvives x hx
        obtain ⟨t, ht, rfl⟩ := List.mem_map.mp hx
        rw [hfilter] at ht
        obtain ⟨p, hp, rfl⟩ := List.mem_map.mp ht
        obtain ⟨hp, hb⟩ := List.mem_filter.mp hp
        obtain ⟨d', hd', htr, -, hparent'⟩ := hsurvives p.1 (List.mem_map_of_mem hp)
        rw [h.lookup p hp, h.translated.booted p hp hb, Option.some.injEq, ← hdcap] at htr
        rw [← hparent', ← h.unique hd hd' htr, hparent]
        rfl
      · intro hx t ht
        obtain ⟨p, hp, rfl⟩ := List.mem_map.mp ht
        cases hb : boot p.1 with
        | false =>
            obtain ⟨d, hd, hcap, hargs, hparent⟩ := h.fresh hg hp hb
            exact ⟨d, hd, hcap ▸ h.lookup p hp, hargs, hparent⟩
        | true =>
            have hquota : q.parent d = g.ramQuota (args p.1) := by
              rw [hparent]
              refine hx _ (List.mem_map_of_mem ?_)
              exact List.mem_filter.mpr ⟨List.mem_map_of_mem hp, hb⟩
            refine ⟨d, hd, ?_, hargs.trans hquota, hquota⟩
            rw [h.lookup p hp, h.translated.booted p hp hb, hdcap]
    rw [hsum, List.forall_sum_eq_iff, List.pairwise_map, FreshStart]
    refine and_congr ?_ Iff.rfl
    rw [hc]
    simp

end Settled

end Rtcr
