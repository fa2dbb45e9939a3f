import Rtcr.Restorer.Kinds

/-!
# Restorer.Injective — different objects, different translations

A stored object is translated to an object of the child or to a new one.
If no object of the child is taken twice, the translation is injective.
The only search that may take the wrong object is the one for a
bootstrapped thread, by its name.
-/

namespace Rtcr

open Fallible Translation

/-! ## Draws -/

/-- Capabilities that come into the translation: each place of `pool` at
most once, apart from those only new ones. -/
def Restorer.DrawsFrom (pool : List Cap) (r r' : Restorer) : Prop :=
  Translation.DrawsFrom (·.restoCap) (·.localName) pool r.core.nextBadge r'.core.nextBadge
    r.ckptToRestoInfos r'.ckptToRestoInfos

/-- The same, with exactly the old capabilities. -/
def Restorer.Draws (olds : List Cap) (r r' : Restorer) : Prop :=
  Translation.Draws (·.restoCap) (·.localName) olds r.core.nextBadge r'.core.nextBadge
    r.ckptToRestoInfos r'.ckptToRestoInfos

namespace Restorer.Draws

variable {olds olds' : List Cap} {r r₁ r' : Restorer}

theorem refl (r : Restorer) : Draws [] r r := Translation.Draws.refl _ _ _ _

theorem trans (h : Draws olds r r₁) (h' : Draws olds' r₁ r') : Draws (olds ++ olds') r r' :=
  Translation.Draws.trans h h'

theorem entry (badge : Nat) (cap : Cap) (r : Restorer) :
    Draws [cap] r (r.addTranslation badge cap) :=
  Translation.Draws.old (fun e : CkptRestoBadgeInfo => e.restoCap) (·.localName) _ ⟨badge, cap⟩ _

/-- A new capability, and its translation. -/
theorem new (badge : Nat) {cap : Cap} (hlo : r.core.nextBadge ≤ cap.localName)
    (hhi : cap.localName < r₁.core.nextBadge)
    (htable : r₁.ckptToRestoInfos = r.ckptToRestoInfos) :
    Draws [] r (r₁.addTranslation badge cap) := by
  unfold Draws addTranslation
  rw [htable]
  exact Translation.Draws.fresh (fun e : CkptRestoBadgeInfo => e.restoCap) _ hlo hhi

/-- The old capabilities belong to different elements of a list, which
have none in common. -/
theorem drawsFrom {α : Type} {R : α → Cap → Prop} {S : α → α → Prop} {as : List α}
    {pool : List Cap} (h : Draws olds r r') (hR : List.Forall₂ R as olds) (hS : as.Pairwise S)
    (hapart : ∀ a b cap, S a b → R a cap → ¬R b cap) (hpool : ∀ a cap, R a cap → cap ∈ pool) :
    Restorer.DrawsFrom pool r r' := by
  refine ⟨olds, List.Nodup.subperm ?_ fun cap hcap => ?_, h⟩
  · clear h
    induction hR with
    | nil => exact List.nodup_nil
    | cons hr hrest ih =>
        rw [List.pairwise_cons] at hS
        refine List.nodup_cons.mpr ⟨fun hmem => ?_, ih hS.2⟩
        obtain ⟨b, hb, hrb⟩ := List.exists_of_forall₂_right hrest hmem
        exact hapart _ b _ (hS.1 b hb) hr hrb
  · obtain ⟨a, -, hr⟩ := List.exists_of_forall₂_right hR hcap
    exact hpool a cap hr

end Restorer.Draws

namespace Restorer.DrawsFrom

variable {pool pool' : List Cap} {r r₁ r' : Restorer}

theorem refl (r : Restorer) : DrawsFrom [] r r := .of_draws (.refl _ _ _ _)

theorem mono (h : DrawsFrom pool r r') (hsub : pool.Subperm pool') : DrawsFrom pool' r r' :=
  Translation.DrawsFrom.mono h hsub

theorem trans (h : DrawsFrom pool r r₁) (h' : DrawsFrom pool' r₁ r') :
    DrawsFrom (pool ++ pool') r r' := Translation.DrawsFrom.trans h h'

theorem entry (badge : Nat) (cap : Cap) (r : Restorer) :
    DrawsFrom [cap] r (r.addTranslation badge cap) := .of_draws (Draws.entry badge cap r)

theorem new (badge : Nat) {cap : Cap} (hlo : r.core.nextBadge ≤ cap.localName)
    (hhi : cap.localName < r₁.core.nextBadge)
    (htable : r₁.ckptToRestoInfos = r.ckptToRestoInfos) :
    DrawsFrom [] r (r₁.addTranslation badge cap) := .of_draws (Draws.new badge hlo hhi htable)

end Restorer.DrawsFrom

namespace RestoKind

variable {τ χ : Type} {k : RestoKind τ χ} {t : τ} {x x' : List χ × Restorer}

/-- One stored object: the object of the child it takes, if any, and
what its parts take. -/
theorem step_drawsFrom (pool : τ → χ → List Cap) (hk : k.Lawful)
    (hparts : ∀ c r c' r', k.parts t c r = .ok (c', r') → Restorer.DrawsFrom (pool t c) r r')
    (h : k.step t x = .ok x') :
    (∃ c, k.identify t x.1 = .ok (some (k.cap c)) ∧ k.find (k.cap c) x.1 = some c ∧
      Restorer.DrawsFrom (k.cap c :: pool t c) x.2 x'.2) ∨
    (∃ c r₁, k.identify t x.1 = .ok none ∧ k.recreate t x.2 = .ok (c, r₁) ∧
      Restorer.DrawsFrom (pool t c) x.2 x'.2) := by
  obtain ⟨objects, r⟩ := x
  obtain ⟨objects', r'⟩ := x'
  rcases k.step_cases h with ⟨c, c', hid, hfind, hp, rfl⟩ | ⟨c, c', r₁, hid, hr, hp, rfl⟩
  · exact .inl ⟨c, hid, hfind, (Restorer.DrawsFrom.entry _ _ r).trans (hparts c _ c' r' hp)⟩
  · obtain ⟨hlo, hhi, htable⟩ := hk.recreate t r c r₁ hr
    refine .inr ⟨c, r₁, hid, hr, ?_⟩
    have hnew : Restorer.DrawsFrom [] r
        ((r₁.addKcap (k.kcap t) (k.cap c)).addTranslation (k.badge t) (k.cap c)) :=
      Restorer.DrawsFrom.new _ hlo hhi htable
    exact hnew.trans (hparts c _ c' r' hp)

theorem leaf_drawsFrom (hleaf : k.parts = noParts) (c : χ) (r : Restorer) (c' : χ) (r' : Restorer)
    (h : k.parts t c r = .ok (c', r')) : Restorer.DrawsFrom [] r r' := by
  rw [hleaf] at h
  cases h
  exact .refl r

/-- All stored objects; `I` is what holds where `ts` are still to come. -/
theorem run_drawsFrom {I : List τ → List χ × Restorer → Prop} (pool : τ → List Cap)
    (hstep : ∀ t ts x x', I (t :: ts) x → k.step t x = .ok x' →
      Restorer.DrawsFrom (pool t) x.2 x'.2 ∧ I ts x') {stored : List τ}
    {objects objects' : List χ} {r r' : Restorer}
    (h : k.run stored objects r = .ok (objects', r')) (hI : I stored (objects, r)) :
    Restorer.DrawsFrom (stored.flatMap pool) r r' := by
  refine loop_rel (I := I)
    (R := fun ts (x x' : List χ × Restorer) => Restorer.DrawsFrom (ts.flatMap pool) x.2 x'.2)
    (fun x _ => .refl x.2) (fun t ts x x' hx h => (hstep t ts x x' hx h).2) ?_ h hI
  intro t ts x x₁ x' hx hstep' hrest
  rw [List.flatMap_cons]
  exact (hstep t ts x x₁ hx hstep').1.trans hrest

theorem flatMap_nil_eq {α : Type} (l : List α) : (l.flatMap fun _ => ([] : List Cap)) = [] := by
  simp

/-- Objects of which none is there yet take none. -/
theorem run_drawsFrom_new (hk : k.Lawful) (hid : ∀ t objects, k.identify t objects = .ok none)
    (hparts : ∀ t c r c' r', k.parts t c r = .ok (c', r') → Restorer.DrawsFrom [] r r')
    {stored : List τ} {objects objects' : List χ} {r r' : Restorer}
    (h : k.run stored objects r = .ok (objects', r')) : Restorer.DrawsFrom [] r r' := by
  have hall := run_drawsFrom (I := fun _ _ => True) (fun _ => []) ?_ h trivial
  · rwa [flatMap_nil_eq] at hall
  · intro t ts x x' _ hstep
    refine ⟨?_, trivial⟩
    rcases step_drawsFrom (fun _ _ => []) hk (hparts t) hstep with
      ⟨c, he, -, -⟩ | ⟨c, r₁, -, -, hdraws⟩
    · rw [hid] at he
      cases he
    · exact hdraws

/-- Where only the sessions of bootstrap get through, there are no
others. -/
theorem booted_of_run {boot : τ → Bool}
    (hfail : ∀ t x x', boot t = false → k.step t x ≠ .ok x') {stored : List τ}
    {objects objects' : List χ} {r r' : Restorer}
    (h : k.run stored objects r = .ok (objects', r')) : ∀ t ∈ stored, boot t = true := by
  intro t ht
  by_contra hb
  exact loop_ne_ok ht (fun x x' => hfail t x x' (by simpa using hb)) h

/-- Sessions of which only that of bootstrap gets through. -/
theorem run_single {boot : τ → Bool} {b : χ} {rest : List χ}
    (hid : ∀ t objects, k.identify t objects = .ok (if boot t then some (k.cap b) else none))
    (hfail : ∀ t x x', boot t = false → k.step t x ≠ .ok x') {stored : List τ}
    (hone : (stored.filter boot).length ≤ 1) {objects' : List χ} {r r' : Restorer}
    (h : k.run stored (b :: rest) r = .ok (objects', r')) :
    stored = [] ∧ objects' = b :: rest ∧ r' = r ∨
      ∃ t c', stored = [t] ∧ boot t = true ∧
        k.parts t b (r.addTranslation (k.badge t) (k.cap b)) = .ok (c', r') ∧
        objects' = c' :: rest := by
  have hall : ∀ t ∈ stored, boot t = true := booted_of_run hfail h
  rw [List.filter_eq_self.mpr hall] at hone
  match stored, hone with
  | [], _ =>
      cases h
      exact .inl ⟨rfl, rfl, rfl⟩
  | [t], _ =>
      right
      have hb := hall t List.mem_cons_self
      obtain ⟨x', hstep, hnil⟩ := loop_cons_eq_ok.mp h
      obtain rfl := Except.ok.inj hnil
      have hthere : k.identify t (b :: rest) = .ok (some (k.cap b)) := by
        rw [hid, hb, if_pos rfl]
      have hfind : findByBadge (fun c => (k.cap c).localName) (k.cap b).localName (b :: rest) =
          some b := by
        rw [findByBadge_cons, if_pos rfl]
      rw [k.step_identify hthere hfind] at hstep
      cases hp : k.parts t b (r.addTranslation (k.badge t) (k.cap b)) with
      | error e =>
          rw [hp] at hstep
          cases hstep
      | ok x =>
          rw [hp] at hstep
          cases hstep
          refine ⟨t, x.1, rfl, hb, hp, ?_⟩
          simp [List.modifyFirst]

end RestoKind

/-! ## RAM sessions -/

section Phases

variable {g : Genode} {inBootstrap : Bool} {granularity : Nat} {r r' : Restorer}

/-- At most one place of `pool` for a list of which at most one element
takes it. -/
theorem subperm_of_one {α : Type} {p : α → Bool} {l : List α} {pool : List Cap}
    (hone : (l.filter p).length ≤ 1) :
    (l.flatMap fun a => if p a then pool else []).Subperm pool := by
  induction l with
  | nil => exact List.nil_subperm
  | cons a l ih =>
      rw [List.flatMap_cons]
      by_cases ha : p a = true
      · rw [List.filter_cons_of_pos ha, List.length_cons] at hone
        have hnil : l.filter p = [] := List.length_eq_zero_iff.mp (by omega)
        have hrest : (l.flatMap fun a => if p a then pool else []) = [] := by
          refine List.flatMap_eq_nil_iff.mpr fun b hb => ?_
          rw [if_neg (List.filter_eq_nil_iff.mp hnil b hb)]
        rw [if_pos ha, hrest, List.append_nil]
      · rw [List.filter_cons_of_neg ha] at hone
        rw [if_neg ha, List.nil_append]
        exact ih hone

/-- The pairing takes dataspaces of the session. -/
theorem identifyRamDataspaces_mem {infos : List RamDataspaceInfo}
    {stored : List StoredRamDataspaceInfo} {pairs : List CkptRestoBadgeInfo}
    (h : identifyRamDataspaces infos stored = .ok pairs) :
    ∀ e ∈ pairs, ∃ d ∈ infos, d.cap = e.restoCap := by
  obtain ⟨storedArray, -, h⟩ := bind_eq_ok.mp h
  obtain ⟨array, -, h⟩ := bind_eq_ok.mp h
  obtain ⟨storedArray', -, h⟩ := bind_eq_ok.mp h
  obtain ⟨array', -, h⟩ := bind_eq_ok.mp h
  refine loop_keeps (I := fun l : List CkptRestoBadgeInfo =>
    ∀ e ∈ l, ∃ d ∈ infos, d.cap = e.restoCap) ?_ h (by simp)
  intro i _ l l' hl hstep
  unfold pairDataspace at hstep
  split at hstep
  · split at hstep
    · rename_i storedRamds ramds _ hfind
      cases hstep
      intro e he
      rcases List.mem_cons.mp he with rfl | he
      · exact ⟨ramds, (findByBadge_some hfind).1, rfl⟩
      · exact hl e he
    · cases hstep
  · cases hstep

/-- A RAM dataspace with an invalid capability is not in the list. -/
def RamSessionComponent.Valid (s : RamSessionComponent) : Prop :=
  ∀ d ∈ s.parentState.ramDataspaces, d.cap ≠ Cap.invalid

theorem RamSessionComponent.Allocates.valid {s s' : RamSessionComponent} {core core' : Core}
    {cap : Cap} (h : s.Allocates core cap s' core') (hs : s.Valid) (hpos : 0 < core.nextBadge) :
    s'.Valid := by
  intro d hd
  rcases h.dataspaces with ⟨info, rfl, hlist, hlo, -⟩ | ⟨-, hlist⟩
  · rw [hlist] at hd
    rcases List.mem_cons.mp hd with rfl | hd
    · intro he
      rw [he] at hlo
      exact absurd hlo (by show ¬core.nextBadge ≤ 0; omega)
    · exact hs d hd
  · rw [hlist] at hd
    exact hs d hd

/-- A dataspace that is found after the allocation is a new one. -/
theorem RamSessionComponent.Allocates.fresh {s s' : RamSessionComponent} {core core' : Core}
    {cap : Cap} (h : s.Allocates core cap s' core') (hs : s.Valid) {d : RamDataspaceInfo}
    (hd : d ∈ s'.parentState.ramDataspaces) (hcap : d.cap = cap) :
    core.nextBadge ≤ cap.localName ∧ cap.localName < core'.nextBadge := by
  rcases h.dataspaces with ⟨info, -, -, hrange⟩ | ⟨hinvalid, hlist⟩
  · exact hrange
  · rw [hlist] at hd
    exact absurd (hcap.trans hinvalid) (hs d hd)

theorem identifyRecreateRamDataspaces_drawsFrom {stored : List StoredRamDataspaceInfo}
    {s s' : RamSessionComponent} (hs : s.Valid) (hpos : 0 < r.core.nextBadge)
    (hbadges : (stored.map (·.badge)).Nodup)
    (hpairs : ∀ pairs, identifyRamDataspaces s.parentState.ramDataspaces stored = .ok pairs →
      (pairs.map (·.restoCap)).Nodup)
    (h : identifyRecreateRamDataspaces inBootstrap stored s r = .ok (s', r')) :
    Restorer.DrawsFrom (s.parentState.ramDataspaces.map (·.cap)) r r' := by
  obtain ⟨pairs, hidentify, hrest⟩ := bind_eq_ok.mp h
  split at hrest
  · cases hrest
  · have hloop : ∃ olds, Restorer.Draws olds r r' ∧
        List.Forall₂ (fun u cap => (⟨u.badge, cap⟩ : CkptRestoBadgeInfo) ∈ pairs)
          (stored.filter (·.bootstrapped)) olds := by
      refine loop_rel
        (I := fun _ (x : RamSessionComponent × Restorer) => x.1.Valid ∧ 0 < x.2.core.nextBadge)
        (R := fun ts (x x' : RamSessionComponent × Restorer) => ∃ olds,
          Restorer.Draws olds x.2 x'.2 ∧
          List.Forall₂ (fun u cap => (⟨u.badge, cap⟩ : CkptRestoBadgeInfo) ∈ pairs)
            (ts.filter (·.bootstrapped)) olds) ?_ ?_ ?_ hrest ⟨hs, hpos⟩
      · exact fun x _ => ⟨[], .refl x.2, .nil⟩
      · intro t ts x x₁ ⟨hx, hn⟩ hstep
        rcases identifyRecreateRamDataspace_cases hstep with
          ⟨crInfo, -, ramds, -, -, -, -, rfl⟩ | ⟨cap, s, core, ramds, -, -, halloc, -, rfl⟩
        · exact ⟨hx, hn⟩
        · exact ⟨halloc.valid hx hn, hn.trans_le halloc.le⟩
      · intro t ts x x₁ x' ⟨hx, hn⟩ hstep ⟨olds, hdraws, hrel⟩
        rcases identifyRecreateRamDataspace_cases hstep with
          ⟨crInfo, hpair, ramds, -, hb, hbadge, hcap, rfl⟩ |
          ⟨cap, s, core, ramds, hramds, hb, halloc, hcap, rfl⟩
        · refine ⟨ramds.cap :: olds, (Restorer.Draws.entry t.badge ramds.cap x.2).trans hdraws, ?_⟩
          rw [List.filter_cons, if_pos hb]
          refine .cons ?_ hrel
          rw [hcap, ← hbadge]
          exact hpair
        · obtain ⟨hlo, hhi⟩ := halloc.fresh hx hramds hcap
          have hnew : Restorer.Draws [] x.2
              (((x.2.setCore core).addKcap t.kcap cap).addTranslation t.badge cap) :=
            Restorer.Draws.new t.badge hlo hhi rfl
          refine ⟨olds, hnew.trans hdraws, ?_⟩
          rw [List.filter_cons, hb, if_neg Bool.false_ne_true]
          exact hrel
    obtain ⟨olds, hdraws, hrel⟩ := hloop
    have hapart : (stored.filter (·.bootstrapped)).Pairwise fun u v => u.badge ≠ v.badge := by
      rw [List.Nodup, List.pairwise_map] at hbadges
      exact hbadges.sublist List.filter_sublist
    refine hdraws.drawsFrom hrel hapart ?_ ?_
    · intro u v cap hne hu hv
      exact hne (congrArg CkptRestoBadgeInfo.ckptBadge
        (List.inj_on_of_nodup_map (hpairs pairs hidentify) hu hv rfl))
    · intro u cap hu
      obtain ⟨d, hd, hcap⟩ := identifyRamDataspaces_mem hidentify _ hu
      exact List.mem_map.mpr ⟨d, hd, hcap⟩

/-- A session that is created again has no dataspaces to identify. -/
theorem ramSessionKind_fails (bootstrapped : RamSessionComponent) (t : StoredRamSessionInfo)
    (x x' : List RamSessionComponent × Restorer) (hb : t.bootstrapped = false) :
    (ramSessionKind g granularity inBootstrap bootstrapped).step t x ≠ .ok x' := by
  intro h
  obtain ⟨objects, r⟩ := x
  obtain ⟨objects', r'⟩ := x'
  rcases RestoKind.step_cases _ h with ⟨c, c', hid, -⟩ | ⟨c, c', r₁, -, hr, hp, -⟩
  · dsimp only [ramSessionKind] at hid
    rw [hb] at hid
    cases hid
  · cases hr
    obtain ⟨pairs, hidentify, hrest⟩ := bind_eq_ok.mp hp
    have hnil : pairs = [] := by
      rw [List.eq_nil_iff_forall_not_mem]
      intro e he
      obtain ⟨d, hd, -⟩ := identifyRamDataspaces_mem hidentify e he
      cases hd
    rw [hnil] at hrest
    cases hrest

theorem identifyRecreateRamSessions_drawsFrom {stored : List StoredRamSessionInfo}
    {b : RamSessionComponent} {rest ramRoot' : List RamSessionComponent}
    (hone : (stored.filter (·.bootstrapped)).length ≤ 1) (hb : b.Valid)
    (hpos : 0 < r.core.nextBadge)
    (hbadges : ∀ t ∈ stored, (t.storedRamdsInfos.map (·.badge)).Nodup)
    (hpairs : ∀ t ∈ stored, t.bootstrapped = true → ∀ pairs,
      identifyRamDataspaces b.parentState.ramDataspaces t.storedRamdsInfos = .ok pairs →
        (pairs.map (·.restoCap)).Nodup)
    (h : identifyRecreateRamSessions g granularity inBootstrap stored (b :: rest) r =
      .ok (ramRoot', r')) :
    Restorer.DrawsFrom (b.cap :: b.parentState.ramDataspaces.map (·.cap)) r r' := by
  rcases RestoKind.run_single (fun _ _ => by rfl) (by exact ramSessionKind_fails b) hone h with
    ⟨-, -, rfl⟩ | ⟨t, s', rfl, hboot, hparts, -⟩
  · exact (Restorer.DrawsFrom.refl _).mono List.nil_subperm
  · have hentry := Restorer.DrawsFrom.entry t.badge b.cap r
    exact hentry.trans (identifyRecreateRamDataspaces_drawsFrom hb hpos (hbadges t (by simp))
      (hpairs t (by simp) hboot) hparts)

/-! ## PD sessions -/

/-- The capabilities of a region map: its own and its dataspace's. -/
def RegionMapComponent.caps (rm : RegionMapComponent) : List Cap := [rm.cap, rm.parentState.dsCap]

theorem addRegionMap_drawsFrom (t : StoredRegionMapInfo) (rm : RegionMapComponent) (r : Restorer) :
    Restorer.DrawsFrom rm.caps r (addRegionMap t rm r) :=
  (Restorer.DrawsFrom.entry t.badge rm.cap r).trans (.entry t.dsBadge rm.parentState.dsCap _)

theorem identifyRecreateSignalSources_drawsFrom {stored : List StoredSignalSourceInfo}
    {sources sources' : List SignalSourceInfo}
    (hone : (stored.filter (·.bootstrapped)).length ≤ 1)
    (h : identifyRecreateSignalSources inBootstrap stored sources r = .ok (sources', r')) :
    Restorer.DrawsFrom (sources.map (·.cap)) r r' := by
  obtain ⟨b, hhead, hrun⟩ := identifyRecreateSignalSources_head h
  have hall := RestoKind.run_drawsFrom (I := fun _ _ => True)
    (fun t : StoredSignalSourceInfo => if t.bootstrapped then [b.cap] else []) ?_ hrun trivial
  · refine (hall.mono (subperm_of_one hone)).mono ?_
    obtain ⟨rest, rfl⟩ := List.head?_eq_some_iff.mp hhead
    exact ((List.nil_sublist _).cons_cons _).subperm
  · intro t ts x x' _ hstep
    refine ⟨?_, trivial⟩
    rcases RestoKind.step_drawsFrom (fun _ _ => []) (signalSourceKind_lawful b)
      (RestoKind.leaf_drawsFrom rfl) hstep with ⟨c, hid, -, hdraws⟩ | ⟨c, r₁, hid, -, hdraws⟩
    · dsimp only [signalSourceKind] at hid hdraws
      split at hid
      · rename_i hb
        rw [if_pos hb, Option.some.inj (Except.ok.inj hid)]
        exact hdraws
      · cases hid
    · dsimp only [signalSourceKind] at hid
      split at hid
      · cases hid
      · rename_i hb
        rw [if_neg hb]
        exact hdraws

theorem identifyRecreateSignalContexts_drawsFrom {stored : List StoredSignalContextInfo}
    {contexts contexts' : List SignalContextInfo}
    (h : identifyRecreateSignalContexts inBootstrap stored contexts r = .ok (contexts', r')) :
    Restorer.DrawsFrom [] r r' :=
  RestoKind.run_drawsFrom_new signalContextKind_lawful (fun _ _ => rfl)
    (fun _ => RestoKind.leaf_drawsFrom rfl) h

/-- What a PD session has that can be identified. -/
def PdSessionComponent.partCaps (pd : PdSessionComponent) : List Cap :=
  pd.parentState.signalSources.map (·.cap) ++
    (pd.addressSpace.caps ++ pd.stackArea.caps ++ pd.linkerArea.caps)

theorem pdSessionParts_drawsFrom {t : StoredPdSessionInfo} {pd pd' : PdSessionComponent}
    (hone : (t.storedSourceInfos.filter (·.bootstrapped)).length ≤ 1)
    (h : pdSessionParts inBootstrap t pd r = .ok (pd', r')) :
    Restorer.DrawsFrom pd.partCaps r r' := by
  obtain ⟨sources, r₁, contexts, r₂, hs, hc, -, rfl⟩ := pdSessionParts_cases h
  have hsignals := (identifyRecreateSignalSources_drawsFrom hone hs).trans
    (identifyRecreateSignalContexts_drawsFrom hc)
  have hareas := ((addRegionMap_drawsFrom t.storedAddressSpace pd.addressSpace r₂).trans
    (addRegionMap_drawsFrom t.storedStackArea pd.stackArea _)).trans
    (addRegionMap_drawsFrom t.storedLinkerArea pd.linkerArea _)
  have hall := hsignals.trans hareas
  rw [List.append_nil] at hall
  exact hall

/-- A session that is created again has no signal source to begin with. -/
theorem pdSessionKind_fails (bootstrapped : PdSessionComponent) (t : StoredPdSessionInfo)
    (x x' : List PdSessionComponent × Restorer) (hb : t.bootstrapped = false) :
    (pdSessionKind g inBootstrap bootstrapped).step t x ≠ .ok x' := by
  intro h
  obtain ⟨objects, r⟩ := x
  obtain ⟨objects', r'⟩ := x'
  rcases RestoKind.step_cases _ h with ⟨c, c', hid, -⟩ | ⟨c, c', r₁, -, hr, hp, -⟩
  · dsimp only [pdSessionKind] at hid
    rw [hb] at hid
    cases hid
  · cases hr
    obtain ⟨sources, r₂, -, -, hs, -⟩ := pdSessionParts_cases hp
    cases hs

theorem identifyRecreatePdSessions_drawsFrom {stored : List StoredPdSessionInfo}
    {b : PdSessionComponent} {rest pdRoot' : List PdSessionComponent}
    (hone : (stored.filter (·.bootstrapped)).length ≤ 1)
    (hsources : ∀ t ∈ stored, (t.storedSourceInfos.filter (·.bootstrapped)).length ≤ 1)
    (h : identifyRecreatePdSessions g inBootstrap stored (b :: rest) r = .ok (pdRoot', r')) :
    Restorer.DrawsFrom (b.cap :: b.partCaps) r r' := by
  rcases RestoKind.run_single (fun _ _ => by rfl) (by exact pdSessionKind_fails b) hone h with
    ⟨-, -, rfl⟩ | ⟨t, pd', rfl, -, hparts, -⟩
  · exact (Restorer.DrawsFrom.refl _).mono List.nil_subperm
  · have hentry := Restorer.DrawsFrom.entry t.badge b.cap r
    exact hentry.trans (pdSessionParts_drawsFrom (hsources t (by simp)) hparts)

/-! ## CPU sessions -/

/-- No thread that is created again has the name of a bootstrapped one
whose turn comes later. -/
def NamesClear (ts : List StoredCpuThreadInfo) : Prop :=
  ts.Pairwise fun u v => u.bootstrapped = false → v.bootstrapped = true → u.name ≠ v.name

instance (ts : List StoredCpuThreadInfo) : Decidable (NamesClear ts) :=
  inferInstanceAs (Decidable (List.Pairwise _ ts))

/-- The turn of a thread. -/
theorem cpuThreadKind_step_cases {pdSessions : List PdSessionComponent} {t : StoredCpuThreadInfo}
    {x x' : List CpuThreadComponent × Restorer}
    (h : (cpuThreadKind inBootstrap pdSessions).step t x = .ok x') :
    (∃ c, t.bootstrapped = true ∧ x.1.find? (fun c => c.parentState.name == t.name) = some c ∧
      x' = (x.1, x.2.addTranslation t.badge c.cap)) ∨
    (∃ c pdSession, t.bootstrapped = false ∧ threadPdSession t pdSessions x.2 = .ok pdSession ∧
      c.parentState.name = t.name ∧ c.cap = ⟨x.2.core.nextBadge⟩ ∧ x'.1 = c :: x.1 ∧
      x'.2.core.nextBadge = x.2.core.nextBadge + 1 ∧
      x'.2.ckptToRestoInfos = ⟨t.badge, c.cap⟩ :: x.2.ckptToRestoInfos) := by
  obtain ⟨threads, r⟩ := x
  obtain ⟨threads', r'⟩ := x'
  rcases RestoKind.step_cases _ h with ⟨c, c', hid, hfind, hp, rfl⟩ | ⟨c, c', r₁, hid, hr, hp, rfl⟩
  · left
    cases hp
    dsimp only [cpuThreadKind] at hid hfind
    split at hid
    · rename_i hb
      split at hid
      · rename_i c₀ hname
        have hcap : c₀.cap = c.cap := Option.some.inj (Except.ok.inj hid)
        refine ⟨c₀, hb, hname, ?_⟩
        rw [hcap]
        exact congrArg (·, r.addTranslation t.badge c.cap) (List.modifyFirst_find hfind)
      · cases hid
    · cases hid
  · right
    cases hp
    obtain ⟨pdSession, hpd, rfl, rfl⟩ := cpuThreadKind_recreate hr
    have hb : t.bootstrapped = false := by
      cases hb : t.bootstrapped with
      | false => rfl
      | true =>
          dsimp only [cpuThreadKind] at hid
          rw [hb, if_pos rfl] at hid
          split at hid <;> cases hid
    exact ⟨_, pdSession, hb, hpd, rfl, rfl, rfl, rfl, rfl⟩

theorem cpuThreads_drawsFrom {pdSessions : List PdSessionComponent}
    {stored : List StoredCpuThreadInfo} {threads threads' : List CpuThreadComponent}
    (hcaps : (threads.map (·.cap)).Nodup)
    (hnames : ((stored.filter (·.bootstrapped)).map (·.name)).Nodup) (hclear : NamesClear stored)
    (h : (cpuThreadKind inBootstrap pdSessions).run stored threads r = .ok (threads', r')) :
    Restorer.DrawsFrom (threads.map (·.cap)) r r' := by
  have hloop : ∃ olds, Restorer.Draws olds r r' ∧
      List.Forall₂ (fun u cap => ∃ c ∈ threads, c.parentState.name = u.name ∧ c.cap = cap)
        (stored.filter (·.bootstrapped)) olds := by
    refine loop_rel
      (I := fun ts (x : List CpuThreadComponent × Restorer) => NamesClear ts ∧
        ∃ news, x.1 = news ++ threads ∧
          ∀ c ∈ news, ∀ v ∈ ts, v.bootstrapped = true → c.parentState.name ≠ v.name)
      (R := fun ts (x x' : List CpuThreadComponent × Restorer) => ∃ olds,
        Restorer.Draws olds x.2 x'.2 ∧
        List.Forall₂ (fun u cap => ∃ c ∈ threads, c.parentState.name = u.name ∧ c.cap = cap)
          (ts.filter (·.bootstrapped)) olds) ?_ ?_ ?_ h ⟨hclear, [], rfl, by simp⟩
    · exact fun x _ => ⟨[], .refl x.2, .nil⟩
    · -- a recreated thread is inserted in front, and has the name of none that is still to come
      intro t ts x x₁ ⟨hts, news, hx, hnews⟩ hstep
      rw [NamesClear, List.pairwise_cons] at hts
      refine ⟨hts.2, ?_⟩
      rcases cpuThreadKind_step_cases hstep with
        ⟨c, -, -, rfl⟩ | ⟨c, pdSession, hb, -, hname, -, hlist, -, -⟩
      · exact ⟨news, hx, fun c hc v hv => hnews c hc v (List.mem_cons_of_mem _ hv)⟩
      · refine ⟨c :: news, by rw [hlist, hx, List.cons_append], fun d hd v hv hbv => ?_⟩
        rcases List.mem_cons.mp hd with rfl | hd
        · rw [hname]
          exact hts.1 v hv hb hbv
        · exact hnews d hd v (List.mem_cons_of_mem _ hv) hbv
    · intro t ts x x₁ x' ⟨hts, news, hx, hnews⟩ hstep ⟨olds, hdraws, hrel⟩
      rcases cpuThreadKind_step_cases hstep with
        ⟨c, hb, hfind, rfl⟩ | ⟨c, pdSession, hb, -, -, hcap, -, hnext, htable⟩
      · -- the name leads past the new threads
        refine ⟨c.cap :: olds, (Restorer.Draws.entry t.badge c.cap x.2).trans hdraws, ?_⟩
        rw [List.filter_cons, if_pos hb]
        have hname : c.parentState.name = t.name := by
          simpa using List.find?_some hfind
        refine .cons ⟨c, ?_, hname, rfl⟩ hrel
        have hmem := List.mem_of_find?_eq_some hfind
        rw [hx] at hmem
        rcases List.mem_append.mp hmem with hmem | hmem
        · exact absurd hname (hnews c hmem t List.mem_cons_self hb)
        · exact hmem
      · refine ⟨olds, ?_, ?_⟩
        · have hnew : Restorer.Draws [] x.2 x₁.2 := by
            have hadd : Restorer.Draws [] x.2
                ((x.2.setCore x₁.2.core).addTranslation t.badge c.cap) := by
              refine Restorer.Draws.new t.badge ?_ ?_ rfl
              · rw [hcap]
              · rw [hcap]
                show x.2.core.nextBadge < x₁.2.core.nextBadge
                omega
            unfold Restorer.Draws at hadd ⊢
            rw [htable]
            exact hadd
          exact hnew.trans hdraws
        · rw [List.filter_cons, hb, if_neg Bool.false_ne_true]
          exact hrel
  obtain ⟨olds, hdraws, hrel⟩ := hloop
  have hapart : (stored.filter (·.bootstrapped)).Pairwise fun u v => u.name ≠ v.name := by
    rw [List.Nodup, List.pairwise_map] at hnames
    exact hnames
  refine hdraws.drawsFrom hrel hapart ?_ ?_
  · intro u v cap hne ⟨c, hc, hname, hcap⟩ ⟨d, hd, hname', hcap'⟩
    obtain rfl := List.inj_on_of_nodup_map hcaps hc hd (hcap.trans hcap'.symm)
    exact hne (hname.symm.trans hname')
  · intro u cap ⟨c, hc, _, hcap⟩
    exact List.mem_map.mpr ⟨c, hc, hcap⟩

/-- What a CPU session has that can be identified. -/
def CpuSessionComponent.threadCaps (s : CpuSessionComponent) : List Cap :=
  s.parentState.cpuThreads.map (·.cap)

/-- The threads of a stored session can be told apart by their names. -/
structure StoredCpuSessionInfo.ThreadsClear (t : StoredCpuSessionInfo) : Prop where
  names : ((t.storedCpuThreadInfos.filter (·.bootstrapped)).map (·.name)).Nodup
  clear : NamesClear t.storedCpuThreadInfos

theorem identifyRecreateCpuThreads_drawsFrom {pdSessions : List PdSessionComponent}
    {t : StoredCpuSessionInfo} {s s' : CpuSessionComponent} (hcaps : s.threadCaps.Nodup)
    (ht : t.ThreadsClear)
    (h : identifyRecreateCpuThreads inBootstrap pdSessions t.storedCpuThreadInfos s r =
      .ok (s', r')) : Restorer.DrawsFrom s.threadCaps r r' := by
  obtain ⟨threads, hrun, -⟩ := identifyRecreateCpuThreads_cases h
  exact cpuThreads_drawsFrom hcaps ht.names ht.clear hrun

/-- The session of bootstrap is still to be identified by one of `ts`. -/
structure Awaits (b : CpuSessionComponent) (ts : List StoredCpuSessionInfo)
    (x : List CpuSessionComponent × Restorer) : Prop where
  below : b.cap.localName < x.2.core.nextBadge
  one : ts.Pairwise fun t u => ¬(t.bootstrapped = true ∧ u.bootstrapped = true)
  there : (∃ t ∈ ts, t.bootstrapped = true) →
    findByBadge (fun c => c.cap.localName) b.cap.localName x.1 = some b
  clear : ∀ t ∈ ts, t.ThreadsClear

theorem Awaits.step {pdSessions : List PdSessionComponent} {b : CpuSessionComponent}
    {t : StoredCpuSessionInfo} {ts : List StoredCpuSessionInfo}
    {x x' : List CpuSessionComponent × Restorer} (hx : Awaits b (t :: ts) x)
    (h : (cpuSessionKind g inBootstrap pdSessions b).step t x = .ok x') : Awaits b ts x' := by
  obtain ⟨c, c', hturn⟩ := (cpuSessionKind_lawful pdSessions b).step h
  obtain ⟨hone, hrest⟩ := List.pairwise_cons.mp hx.one
  refine ⟨hx.below.trans_le hturn.ahead.le, hrest, fun ⟨u, hu, hbu⟩ => ?_,
    fun u hu => hx.clear u (List.mem_cons_of_mem _ hu)⟩
  have hb : t.bootstrapped = false := by
    have hnot := hone u hu
    simpa [hbu] using hnot
  have hsp : (cpuSessionKind g inBootstrap pdSessions b).Spares b.cap t := by
    refine .inl fun objects he => ?_
    dsimp only [cpuSessionKind] at he
    rw [hb] at he
    cases he
  have hfind := hturn.others hx.below hsp
  exact hfind.trans (hx.there ⟨u, List.mem_cons_of_mem _ hu, hbu⟩)

theorem identifyRecreateCpuSessions_drawsFrom {pdSessions : List PdSessionComponent}
    {b : CpuSessionComponent} {rest cpuRoot' : List CpuSessionComponent}
    {stored : List StoredCpuSessionInfo} (hbelow : b.cap.localName < r.core.nextBadge)
    (hcaps : b.threadCaps.Nodup) (hone : (stored.filter (·.bootstrapped)).length ≤ 1)
    (hclear : ∀ t ∈ stored, t.ThreadsClear)
    (h : (cpuSessionKind g inBootstrap pdSessions b).run stored (b :: rest) r =
      .ok (cpuRoot', r')) : Restorer.DrawsFrom (b.cap :: b.threadCaps) r r' := by
  have hstart : Awaits b stored (b :: rest, r) :=
    ⟨hbelow, List.pairwise_of_one hone, fun _ => by rw [findByBadge_cons, if_pos rfl], hclear⟩
  refine (RestoKind.run_drawsFrom (I := Awaits b)
    (fun t : StoredCpuSessionInfo => if t.bootstrapped then b.cap :: b.threadCaps else []) ?_ h
    hstart).mono (subperm_of_one hone)
  intro t ts x x' hx hstep
  refine ⟨?_, hx.step hstep⟩
  have ht := hx.clear t List.mem_cons_self
  obtain ⟨objects, r⟩ := x
  obtain ⟨objects', r'⟩ := x'
  rcases RestoKind.step_cases _ hstep with
    ⟨c, c', hid, hfind, hp, -⟩ | ⟨c, c', r₁, hid, hr, hp, -⟩
  · dsimp only [cpuSessionKind] at hid hfind
    split at hid
    · rename_i hb
      have hcap : b.cap = c.cap := Option.some.inj (Except.ok.inj hid)
      obtain rfl : b = c := by
        rw [← hcap, hx.there ⟨t, List.mem_cons_self, hb⟩] at hfind
        exact Option.some.inj hfind
      rw [if_pos hb]
      exact (Restorer.DrawsFrom.entry _ _ r).trans
        (identifyRecreateCpuThreads_drawsFrom hcaps ht hp)
    · cases hid
  · dsimp only [cpuSessionKind] at hid
    split at hid
    · cases hid
    · rename_i hb
      rw [if_neg hb]
      cases hr
      have hnew : Restorer.DrawsFrom [] r
          (((r.setCore r.core.newCap.2).addKcap t.kcap r.core.newCap.1).addTranslation t.badge
            r.core.newCap.1) :=
        Restorer.DrawsFrom.new t.badge (Nat.le_refl _) (Nat.lt_succ_self _) rfl
      refine hnew.trans (identifyRecreateCpuThreads_drawsFrom ?_ ht hp)
      exact List.nodup_nil

/-! ## RM, LOG and Timer sessions -/

theorem regionMaps_drawsFrom {stored : List StoredRegionMapInfo}
    {regionMaps regionMaps' : List RegionMapComponent}
    (h : (regionMapKind inBootstrap).run stored regionMaps r = .ok (regionMaps', r')) :
    Restorer.DrawsFrom [] r r' := by
  have hall := RestoKind.run_drawsFrom (I := fun _ _ => True) (fun _ => []) ?_ h trivial
  · rwa [RestoKind.flatMap_nil_eq] at hall
  · intro t ts x x' _ hstep
    refine ⟨?_, trivial⟩
    obtain ⟨objects, r⟩ := x
    obtain ⟨objects', r'⟩ := x'
    rcases RestoKind.step_cases _ hstep with ⟨c, c', hid, -⟩ | ⟨c, c', r₁, -, hr, hp, -⟩
    · cases hid
    · cases hr
      cases hp
      -- two capabilities, the region map's and its dataspace's
      have hcap : Restorer.DrawsFrom [] r
          ((r.setCore r.core.newCap.2).addTranslation t.badge ⟨r.core.nextBadge⟩) :=
        Restorer.DrawsFrom.new t.badge (Nat.le_refl _) (Nat.lt_succ_self _) rfl
      have hds : Restorer.DrawsFrom []
          ((r.setCore r.core.newCap.2).addTranslation t.badge ⟨r.core.nextBadge⟩)
          ((((r.setCore r.core.newCap.2.newCap.2).addKcap t.kcap ⟨r.core.nextBadge⟩).addTranslation
            t.badge ⟨r.core.nextBadge⟩).addTranslation t.dsBadge ⟨r.core.nextBadge + 1⟩) :=
        Restorer.DrawsFrom.new t.dsBadge (Nat.le_refl _) (Nat.lt_succ_self _) rfl
      exact hcap.trans hds

theorem identifyRecreateRmSessions_drawsFrom {stored : List StoredRmSessionInfo}
    {root root' : Option (List RmSessionComponent)}
    (h : identifyRecreateRmSessions g inBootstrap stored root r = .ok (root', r')) :
    Restorer.DrawsFrom [] r r' := by
  obtain ⟨objects, hrun, -⟩ := identifyRecreateSessions_cases h
  refine RestoKind.run_drawsFrom_new rmSessionKind_lawful (fun _ _ => rfl) ?_ hrun
  intro t s r s' r' hp
  obtain ⟨regionMaps, hmaps, -⟩ := identifyRecreateRegionMaps_cases hp
  exact regionMaps_drawsFrom hmaps

theorem identifyRecreateLogSessions_drawsFrom {stored : List StoredLogSessionInfo}
    {root root' : Option (List LogSessionComponent)}
    (h : identifyRecreateLogSessions g inBootstrap stored root r = .ok (root', r')) :
    Restorer.DrawsFrom [] r r' := by
  obtain ⟨objects, hrun, -⟩ := identifyRecreateSessions_cases h
  exact RestoKind.run_drawsFrom_new logSessionKind_lawful (fun _ _ => rfl)
    (fun _ => RestoKind.leaf_drawsFrom rfl) hrun

theorem identifyRecreateTimerSessions_drawsFrom {stored : List StoredTimerSessionInfo}
    {root root' : Option (List TimerSessionComponent)}
    (h : identifyRecreateTimerSessions g inBootstrap stored root r = .ok (root', r')) :
    Restorer.DrawsFrom [] r r' := by
  obtain ⟨objects, hrun, -⟩ := identifyRecreateSessions_cases h
  exact RestoKind.run_drawsFrom_new timerSessionKind_lawful (fun _ _ => rfl)
    (fun _ => RestoKind.leaf_drawsFrom rfl) hrun

end Phases

end Rtcr
