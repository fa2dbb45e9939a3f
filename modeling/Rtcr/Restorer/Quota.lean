import Rtcr.Restorer.StateSteps

/-!
# Restorer.Quota — the quota of restored sessions

`restore()` replays the recorded upgrade arguments of a session through
`upgrade`, which adds them to what the session has. A session that was
created again has nothing; one that bootstrap has made may have been
upgraded before.
-/

namespace Rtcr

open Fallible

/-- A `ram_quota` below 2^32 is printed and parsed faithfully. -/
structure Genode.Faithful (g : Genode) : Prop where
  empty : g.ramQuota "" = 0
  below : ∀ args, g.ramQuota args < 2 ^ 32
  set : ∀ args n, n < 2 ^ 32 → g.ramQuota (g.setRamQuota args n) = n

/-! ## Sessions and their upgrades -/

/-- What the sessions of all services have in common here: the recorded
arguments, the upgrades at the parent, and `_upgrade_session`. -/
structure SessionQuota (χ : Type) where
  cap : χ → Cap
  args : χ → String
  parent : χ → Nat
  upgrade : Genode → String → χ → χ
  cap_upgrade : ∀ g a c, cap (upgrade g a c) = cap c
  args_upgrade : ∀ g a c, args (upgrade g a c) = g.upgradedArgs (args c) a
  parent_upgrade : ∀ g a c, parent (upgrade g a c) = parent c + g.ramQuota a

def RamSessionComponent.quota : SessionQuota RamSessionComponent where
  cap := (·.cap)
  args := (·.parentState.upgradeArgs)
  parent := (·.parentUpgraded)
  upgrade := RamSessionComponent.upgrade
  cap_upgrade _ _ _ := rfl
  args_upgrade _ _ _ := rfl
  parent_upgrade _ _ _ := rfl

def PdSessionComponent.quota : SessionQuota PdSessionComponent where
  cap := (·.cap)
  args := (·.parentState.upgradeArgs)
  parent := (·.parentUpgraded)
  upgrade := PdSessionComponent.upgrade
  cap_upgrade _ _ _ := rfl
  args_upgrade _ _ _ := rfl
  parent_upgrade _ _ _ := rfl

def CpuSessionComponent.quota : SessionQuota CpuSessionComponent where
  cap := (·.cap)
  args := (·.parentState.upgradeArgs)
  parent := (·.parentUpgraded)
  upgrade := CpuSessionComponent.upgrade
  cap_upgrade _ _ _ := rfl
  args_upgrade _ _ _ := rfl
  parent_upgrade _ _ _ := rfl

def RmSessionComponent.quota : SessionQuota RmSessionComponent where
  cap := (·.cap)
  args := (·.parentState.upgradeArgs)
  parent := (·.parentUpgraded)
  upgrade := RmSessionComponent.upgrade
  cap_upgrade _ _ _ := rfl
  args_upgrade _ _ _ := rfl
  parent_upgrade _ _ _ := rfl

def LogSessionComponent.quota : SessionQuota LogSessionComponent where
  cap := (·.cap)
  args := (·.parentState.upgradeArgs)
  parent := (·.parentUpgraded)
  upgrade := LogSessionComponent.upgrade
  cap_upgrade _ _ _ := rfl
  args_upgrade _ _ _ := rfl
  parent_upgrade _ _ _ := rfl

def TimerSessionComponent.quota : SessionQuota TimerSessionComponent where
  cap := (·.cap)
  args := (·.parentState.upgradeArgs)
  parent := (·.parentUpgraded)
  upgrade := TimerSessionComponent.upgrade
  cap_upgrade _ _ _ := rfl
  args_upgrade _ _ _ := rfl
  parent_upgrade _ _ _ := rfl

namespace SessionQuota

variable {χ : Type} (q : SessionQuota χ) {g : Genode} {c d : χ}

/-- The recorded arguments tell what the parent has been upgraded by, if
that fits. -/
def Accounted (g : Genode) (c : χ) : Prop :=
  q.parent c < 2 ^ 32 → g.ramQuota (q.args c) = q.parent c

/-- The session has been opened and then upgraded with `upgrades`. -/
def Since (g : Genode) (upgrades : List String) (c : χ) : Prop :=
  ∃ new, q.args new = "" ∧ q.parent new = 0 ∧
    c = upgrades.foldl (fun c args => q.upgrade g args c) new

variable {q}

theorem Accounted.congr (h : q.Accounted g c) (hargs : q.args d = q.args c)
    (hparent : q.parent d = q.parent c) : q.Accounted g d := by
  unfold Accounted
  rw [hargs, hparent]
  exact h

theorem Accounted.new (hg : g.Faithful) (hargs : q.args c = "") (hparent : q.parent c = 0) :
    q.Accounted g c := by
  intro _
  rw [hargs, hparent]
  exact hg.empty

/-- **Accumulation**: an upgrade keeps the account. -/
theorem Accounted.upgrade (hg : g.Faithful) (h : q.Accounted g c) (args : String) :
    q.Accounted g (q.upgrade g args c) := by
  intro hlt
  rw [q.parent_upgrade] at hlt ⊢
  have hown : g.ramQuota (q.args c) = q.parent c := h (by omega)
  rw [q.args_upgrade, Genode.upgradedArgs, hown]
  exact hg.set _ _ hlt

/-- After any sequence of upgrades. -/
theorem Since.accounted (hg : g.Faithful) {upgrades : List String} (h : q.Since g upgrades c) :
    q.Accounted g c := by
  obtain ⟨new, hargs, hparent, rfl⟩ := h
  have hall : ∀ (us : List String) (c : χ), q.Accounted g c →
      q.Accounted g (us.foldl (fun c args => q.upgrade g args c) c) := by
    intro us
    induction us with
    | nil => exact fun _ h => h
    | cons u us ih => exact fun c h => ih _ (h.upgrade hg u)
  exact hall upgrades new (.new hg hargs hparent)

/-- The replay of recorded arguments. -/
theorem upgradeIfNecessary_spec (hg : g.Faithful) (args : String) (c : χ) :
    q.cap (upgradeIfNecessary g q.upgrade args c) = q.cap c ∧
      q.parent (upgradeIfNecessary g q.upgrade args c) = q.parent c + g.ramQuota args ∧
      (q.Accounted g c → q.Accounted g (upgradeIfNecessary g q.upgrade args c)) := by
  unfold upgradeIfNecessary
  by_cases h : g.ramQuota args = 0
  · rw [if_neg (not_not.mpr h), h]
    exact ⟨rfl, rfl, fun h => h⟩
  · rw [if_pos h]
    exact ⟨q.cap_upgrade .., q.parent_upgrade .., fun h => h.upgrade hg args⟩

end SessionQuota

/-! ## Identified and recreated sessions -/

namespace SessionQuota

variable {χ : Type} (q : SessionQuota χ)

/-- What the other phases leave alone. -/
def face (c : χ) : Cap × String × Nat := (q.cap c, q.args c, q.parent c)

variable {q}

theorem face_eq {c d : χ} (h : q.face c = q.face d) :
    q.cap c = q.cap d ∧ q.args c = q.args d ∧ q.parent c = q.parent d := by
  simpa [face] using h

end SessionQuota

/-- A kind of sessions: the stored sessions that `boot` tells are
translated to the session `first`, all others to new ones. -/
structure IdentifiesSessions {τ χ : Type} (k : RestoKind τ χ) (q : SessionQuota χ)
    (boot : τ → Bool) (first : Cap) : Prop where
  cap : ∀ c, k.cap c = q.cap c
  identify : ∀ t objects o, k.identify t objects = .ok o →
    o = if boot t then some first else none
  recreate : ∀ t r c r₁, k.recreate t r = .ok (c, r₁) →
    r.core.nextBadge ≤ (q.cap c).localName ∧ (q.cap c).localName < r₁.core.nextBadge ∧
      q.args c = "" ∧ q.parent c = 0 ∧ r₁.ckptToRestoInfos = r.ckptToRestoInfos
  parts : ∀ t c r c' r', k.parts t c r = .ok (c', r') → q.face c' = q.face c ∧ r.Ahead r'

/-- The stored sessions with the capabilities they are translated to:
`first` for those that `boot` tells, new ones in ascending order for the
others. -/
structure Translated {τ : Type} (boot : τ → Bool) (first : Cap) (n n' : Nat)
    (ps : List (τ × Cap)) : Prop where
  booted : ∀ p ∈ ps, boot p.1 = true → p.2 = first
  fresh : ∀ p ∈ ps, boot p.1 = false → n ≤ p.2.localName ∧ p.2.localName < n'
  ascending : ps.Pairwise fun a b =>
    boot a.1 = false → boot b.1 = false → a.2.localName < b.2.localName

/-- The new ones of them. -/
def newCaps {τ : Type} (boot : τ → Bool) (ps : List (τ × Cap)) : List Cap :=
  (ps.filter fun p => !boot p.1).map (·.2)

/-- What a run over the stored sessions `ts` does. -/
structure SessionsRun {τ χ : Type} (k : RestoKind τ χ) (q : SessionQuota χ) (boot : τ → Bool)
    (first : Cap) (ts : List τ) (x x' : List χ × Restorer) : Prop where
  ahead : x.2.Ahead x'.2
  pairs : ∃ ps : List (τ × Cap), ps.map Prod.fst = ts ∧
    Translated boot first x.2.core.nextBadge x'.2.core.nextBadge ps ∧
    (∀ p ∈ ps, ⟨k.badge p.1, p.2⟩ ∈ x'.2.ckptToRestoInfos) ∧
    x'.1.map q.face = ((newCaps boot ps).map fun cap => (cap, "", 0)).reverse ++ x.1.map q.face

section IdentifySessions

variable {τ χ : Type} {k : RestoKind τ χ} {q : SessionQuota χ} {boot : τ → Bool} {first : Cap}

/-- Putting an object back with the same face. -/
theorem map_face_modifyFirst {objects : List χ} {p : χ → Bool} {c d : χ}
    (hfind : objects.find? p = some c) (h : q.face d = q.face c) :
    (List.modifyFirst p (fun _ => d) objects).map q.face = objects.map q.face := by
  induction objects with
  | nil => rfl
  | cons x objects ih =>
      by_cases hx : p x = true
      · rw [List.find?_cons_of_pos hx, Option.some.injEq] at hfind
        subst hfind
        simp [List.modifyFirst, hx, h]
      · rw [List.find?_cons_of_neg hx] at hfind
        simp [List.modifyFirst, hx, ih hfind]

theorem IdentifiesSessions.step (hk : IdentifiesSessions k q boot first) {t : τ}
    {x x' : List χ × Restorer} (h : k.step t x = .ok x') : SessionsRun k q boot first [t] x x' := by
  obtain ⟨objects, r⟩ := x
  obtain ⟨objects', r'⟩ := x'
  rcases k.step_cases h with ⟨c, c', hid, hfind, hparts, hobjects⟩ |
    ⟨c, c', r₁, hid, hrec, hparts, hobjects⟩
  · -- the session is there
    have ho := hk.identify t objects _ hid
    obtain ⟨hface, hahead⟩ := hk.parts t c _ c' r' hparts
    have hboot : boot t = true ∧ k.cap c = first := by
      by_cases hb : boot t = true
      · rw [if_pos hb] at ho
        exact ⟨hb, Option.some.inj ho⟩
      · rw [if_neg hb] at ho
        cases ho
    refine ⟨⟨hahead.le, (List.suffix_cons _ _).trans hahead.suffix⟩, [(t, first)], rfl, ?_, ?_, ?_⟩
    · exact ⟨by simp, by simp [hboot.1], List.pairwise_singleton ..⟩
    · intro p hp
      obtain rfl := List.mem_singleton.mp hp
      refine hahead.suffix.subset ?_
      rw [hboot.2]
      exact List.mem_cons_self
    · rw [hobjects]
      simp only [newCaps, hboot.1, List.filter_cons, List.filter_nil, Bool.not_true,
        Bool.false_eq_true, if_false, List.map_nil, List.reverse_nil, List.nil_append]
      exact map_face_modifyFirst hfind hface
  · -- a new one
    have ho := hk.identify t objects _ hid
    obtain ⟨hlo, hhi, hargs, hparent, htable⟩ := hk.recreate t r c r₁ hrec
    obtain ⟨hface, hahead⟩ := hk.parts t c _ c' r' hparts
    have hboot : boot t = false := by
      cases hb : boot t with
      | false => rfl
      | true =>
          rw [hb, if_pos rfl] at ho
          cases ho
    have hle : r₁.core.nextBadge ≤ r'.core.nextBadge := hahead.le
    have hsuffix : (⟨k.badge t, k.cap c⟩ :: r₁.ckptToRestoInfos) <:+ r'.ckptToRestoInfos :=
      hahead.suffix
    rw [htable] at hsuffix
    refine ⟨⟨by show r.core.nextBadge ≤ r'.core.nextBadge; omega,
      (List.suffix_cons _ _).trans hsuffix⟩, [(t, k.cap c)], rfl, ?_, ?_, ?_⟩
    · refine ⟨by simp [hboot], fun p hp _ => ?_, List.pairwise_singleton ..⟩
      obtain rfl := List.mem_singleton.mp hp
      rw [hk.cap]
      exact ⟨hlo, hhi.trans_le hle⟩
    · intro p hp
      obtain rfl := List.mem_singleton.mp hp
      exact hsuffix.subset List.mem_cons_self
    · rw [hobjects, List.map_cons, hface]
      simp [newCaps, hboot, SessionQuota.face, hargs, hparent, hk.cap]

theorem SessionsRun.nil (x : List χ × Restorer) : SessionsRun k q boot first [] x x :=
  ⟨.refl _, [], rfl, ⟨by simp, by simp, .nil⟩, by simp, rfl⟩

theorem SessionsRun.append {ts ts' : List τ} {x x₁ x' : List χ × Restorer}
    (h : SessionsRun k q boot first ts x x₁) (h' : SessionsRun k q boot first ts' x₁ x') :
    SessionsRun k q boot first (ts ++ ts') x x' := by
  obtain ⟨hahead, ps, hps, htr, hentries, hfaces⟩ := h
  obtain ⟨hahead', ps', hps', htr', hentries', hfaces'⟩ := h'
  refine ⟨hahead.trans hahead', ps ++ ps', by rw [List.map_append, hps, hps'], ⟨?_, ?_, ?_⟩, ?_, ?_⟩
  · intro p hp
    rcases List.mem_append.mp hp with hp | hp
    · exact htr.booted p hp
    · exact htr'.booted p hp
  · intro p hp hb
    rcases List.mem_append.mp hp with hp | hp
    · exact ⟨(htr.fresh p hp hb).1, (htr.fresh p hp hb).2.trans_le hahead'.le⟩
    · exact ⟨hahead.le.trans (htr'.fresh p hp hb).1, (htr'.fresh p hp hb).2⟩
  · refine List.pairwise_append.mpr ⟨htr.ascending, htr'.ascending, fun a ha b hb hba hbb => ?_⟩
    exact (htr.fresh a ha hba).2.trans_le (htr'.fresh b hb hbb).1
  · intro p hp
    rcases List.mem_append.mp hp with hp | hp
    · exact hahead'.suffix.subset (hentries p hp)
    · exact hentries' p hp
  · rw [hfaces', hfaces]
    simp [newCaps, List.filter_append, List.map_append, List.reverse_append]

/-- **A run over all stored sessions of a kind.** -/
theorem IdentifiesSessions.run (hk : IdentifiesSessions k q boot first) {stored : List τ}
    {objects objects' : List χ} {r r' : Restorer}
    (h : k.run stored objects r = .ok (objects', r')) :
    SessionsRun k q boot first stored (objects, r) (objects', r') :=
  loop_rel (I := fun _ _ => True) (R := SessionsRun k q boot first)
    (fun x _ => .nil x) (fun _ _ _ _ _ _ => trivial)
    (fun _ _ _ _ _ _ hstep hrest => (hk.step hstep).append hrest) h trivial

end IdentifySessions

/-! ## Replayed upgrades -/

/-- A kind of sessions whose state restoration replays the upgrades
`args` of the stored session. -/
structure ReplaysUpgrades {τ χ : Type} (g : Genode) (k : StateKind τ χ) (q : SessionQuota χ)
    (args : τ → String) : Prop where
  cap : ∀ c, k.cap c = q.cap c
  present : ∀ t c r o r', k.restore t (some c) r = .ok (o, r') → ∃ d, o = some d ∧
    q.cap d = q.cap c ∧ q.parent d = q.parent c + g.ramQuota (args t) ∧
    (q.Accounted g c → q.Accounted g d) ∧ r'.ckptToRestoInfos = r.ckptToRestoInfos
  missing : ∀ t r o r', k.restore t none r = .ok (o, r') →
    o = none ∧ r'.ckptToRestoInfos = r.ckptToRestoInfos

/-- The sum of what is replayed for the session with this capability. -/
def replayed {τ : Type} (g : Genode) (badge : τ → Nat) (args : τ → String) (r : Restorer)
    (cap : Cap) (ts : List τ) : Nat :=
  ((ts.filter fun t => r.translate (badge t) = some cap).map fun t => g.ramQuota (args t)).sum

/-- A session before and after the replay of `ts`. -/
structure Replayed {τ χ : Type} (g : Genode) (q : SessionQuota χ) (badge : τ → Nat)
    (args : τ → String) (r : Restorer) (ts : List τ) (c d : χ) : Prop where
  cap : q.cap d = q.cap c
  parent : q.parent d = q.parent c + replayed g badge args r (q.cap c) ts
  accounted : q.Accounted g c → q.Accounted g d

section Replay

variable {τ χ : Type} {g : Genode} {k : StateKind τ χ} {q : SessionQuota χ} {args : τ → String}

theorem replayed_cons (g : Genode) (badge : τ → Nat) (args : τ → String) (r : Restorer) (cap : Cap)
    (t : τ) (ts : List τ) : replayed g badge args r cap (t :: ts) =
      (if r.translate (badge t) = some cap then g.ramQuota (args t) else 0) +
        replayed g badge args r cap ts := by
  unfold replayed
  by_cases h : r.translate (badge t) = some cap
  · rw [List.filter_cons_of_pos (by simpa using h), if_pos h]
    simp
  · rw [List.filter_cons_of_neg (by simpa using h), if_neg h, Nat.zero_add]

theorem replayed_congr {badge : τ → Nat} {r r' : Restorer}
    (h : r'.ckptToRestoInfos = r.ckptToRestoInfos) (cap : Cap) (ts : List τ) :
    replayed g badge args r' cap ts = replayed g badge args r cap ts := by
  unfold replayed Restorer.translate
  rw [h]

theorem ReplaysUpgrades.step (hk : ReplaysUpgrades g k q args) {t : τ} {x x' : List χ × Restorer}
    (hcaps : (x.1.map fun c => (q.cap c).localName).Nodup) (h : k.step t x = .ok x') :
    x'.2.ckptToRestoInfos = x.2.ckptToRestoInfos ∧
      List.Forall₂ (Replayed g q k.badge args x.2 [t]) x.1 x'.1 := by
  obtain ⟨o, hfind, hrest⟩ := bind_eq_ok.mp h
  obtain ⟨⟨o', r₁⟩, hrestore, hlast⟩ := bind_eq_ok.mp hrest
  obtain ⟨restoCap, htr, ho⟩ := findChildObject_eq_ok hfind
  have hone : ∀ cap, replayed g k.badge args x.2 cap [t] =
      if restoCap = cap then g.ramQuota (args t) else 0 := by
    intro cap
    rw [replayed_cons, htr]
    simp [replayed]
  cases o with
  | none =>
      obtain ⟨rfl, htable⟩ := hk.missing t x.2 o' r₁ hrestore
      cases hlast
      refine ⟨htable, List.forall₂_same.mpr fun c hc => ⟨rfl, ?_, fun hacc => hacc⟩⟩
      have hnot : restoCap ≠ q.cap c := by
        intro he
        refine findByBadge_eq_none.mp ho.symm (List.mem_map.mpr ⟨c, hc, ?_⟩)
        rw [hk.cap, he]
      rw [hone, if_neg hnot, Nat.add_zero]
  | some c =>
      obtain ⟨d, rfl, hcap, hparent, hacc, htable⟩ := hk.present t c x.2 o' r₁ hrestore
      cases hlast
      refine ⟨htable, ?_⟩
      obtain ⟨hmem, hname⟩ := findByBadge_some ho.symm
      have hcapc : q.cap c = restoCap := by
        rw [← hk.cap]
        exact Cap.ext_localName hname
      have hlist : (List.modifyFirst (fun x => (k.cap x).localName == (k.cap d).localName)
          (fun _ => d) x.1) =
          x.1.map fun x => if (q.cap x).localName = (q.cap c).localName then d else x := by
        simp only [hk.cap, hcap]
        exact List.modifyFirst_key _ _ hcaps
      show List.Forall₂ _ x.1 (List.modifyFirst _ _ x.1)
      rw [hlist, List.forall₂_map_right_iff, List.forall₂_same]
      intro y hy
      by_cases hsame : (q.cap y).localName = (q.cap c).localName
      · obtain rfl := List.inj_on_of_nodup_map hcaps hy hmem hsame
        rw [if_pos rfl]
        exact ⟨hcap, by rw [hone, if_pos hcapc.symm, hparent], hacc⟩
      · rw [if_neg hsame]
        refine ⟨rfl, ?_, fun h => h⟩
        have hnot : restoCap ≠ q.cap y := by
          intro he
          rw [← hcapc] at he
          exact hsame (congrArg Cap.localName he.symm)
        rw [hone, if_neg hnot, Nat.add_zero]

theorem Replayed.caps {badge : τ → Nat} {r : Restorer} {ts : List τ} {objects objects' : List χ}
    (h : List.Forall₂ (Replayed g q badge args r ts) objects objects') :
    objects'.map (fun c => (q.cap c).localName) = objects.map fun c => (q.cap c).localName := by
  induction h with
  | nil => rfl
  | cons hcd _ ih => rw [List.map_cons, List.map_cons, hcd.cap, ih]

/-- **The replay of all stored sessions of a kind.** -/
theorem ReplaysUpgrades.run (hk : ReplaysUpgrades g k q args) {stored : List τ}
    {objects objects' : List χ} {r r' : Restorer}
    (hcaps : (objects.map fun c => (q.cap c).localName).Nodup)
    (h : k.run stored objects r = .ok (objects', r')) :
    r'.ckptToRestoInfos = r.ckptToRestoInfos ∧
      List.Forall₂ (Replayed g q k.badge args r stored) objects objects' := by
  refine loop_rel
    (I := fun _ x => (x.1.map fun c => (q.cap c).localName).Nodup)
    (R := fun ts (x x' : List χ × Restorer) => x'.2.ckptToRestoInfos = x.2.ckptToRestoInfos ∧
      List.Forall₂ (Replayed g q k.badge args x.2 ts) x.1 x'.1)
    ?_ ?_ ?_ h hcaps
  · intro x _
    exact ⟨rfl, List.forall₂_same.mpr fun c _ => ⟨rfl, rfl, fun h => h⟩⟩
  · intro t ts x x' hx hstep
    rw [Replayed.caps (hk.step hx hstep).2]
    exact hx
  · intro t ts x x₁ x' hx hstep ⟨htable, hrest⟩
    obtain ⟨htable₁, hfirst⟩ := hk.step hx hstep
    refine ⟨htable.trans htable₁, ?_⟩
    have hcomp : ∀ c d e, Replayed g q k.badge args x.2 [t] c d →
        Replayed g q k.badge args x₁.2 ts d e → Replayed g q k.badge args x.2 (t :: ts) c e := by
      intro c d e hcd hde
      refine ⟨hde.cap.trans hcd.cap, ?_, fun h => hde.accounted (hcd.accounted h)⟩
      rw [hde.parent, hcd.parent, hcd.cap, replayed_congr htable₁, replayed_cons, replayed_cons,
        Nat.add_assoc]
      rfl
    exact List.forall₂_trans hcomp hfirst hrest

end Replay

end Rtcr
