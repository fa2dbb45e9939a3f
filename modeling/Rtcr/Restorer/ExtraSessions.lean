import Rtcr.Checkpointer.Exact
import Rtcr.Checkpointer.History
import Rtcr.Restorer.Injective
import Rtcr.Restorer.Memory
import Rtcr.Restorer.Pairing

/-!
# Restorer.ExtraSessions — sessions that bootstrap has not made

RAM dataspaces and signal sources are looked for in the same way in the
session of bootstrap, which has some, and in a session that has just been
created, which has none. So a checkpoint is restorable only if all its
RAM and PD sessions are those of bootstrap
(`identifyRecreateRamPd_iff`).
-/

namespace Rtcr

open Fallible Translation

/-! ## Allocation succeeds -/

namespace RamSessionComponent

/-- What `alloc` takes from the quota of the session. -/
def allocCost (granularity size : Nat) : Nat :=
  if granularity > 0 then
    ((designatedRanges (pageSize * granularity) size).map fun range => alignAddr range.2).sum
  else alignAddr size

theorem allocDesignated_succeeds (ranges : List (Nat × Nat)) (mrm : ManagedRegionMapInfo)
    (s : RamSessionComponent) (core : Core)
    (hquota : (ranges.map fun range => alignAddr range.2).sum ≤ s.parentRam.quota) :
    ∃ mrm' s' core', allocDesignated ranges mrm s core = (true, mrm', s', core') ∧
      s'.parentState = s.parentState ∧ s'.granularity = s.granularity ∧
      s'.parentRam.quota =
        s.parentRam.quota - (ranges.map fun range => alignAddr range.2).sum := by
  induction ranges generalizing mrm s core with
  | nil => exact ⟨mrm, s, core, rfl, rfl, rfl, rfl⟩
  | cons range ranges ih =>
      obtain ⟨relAddr, size⟩ := range
      rw [List.map_cons, List.sum_cons] at hquota ⊢
      have hsize : ¬s.parentRam.quota < alignAddr size := by
        show ¬s.parentRam.quota < alignAddr (relAddr, size).2
        omega
      unfold allocDesignated parentAlloc
      rw [if_neg hsize]
      obtain ⟨mrm', s', core', halloc, hstate, hgran, hleft⟩ := ih
        { mrm with ddInfos := .new core.newDataspace.1 relAddr size :: mrm.ddInfos }
        { s with
          parentRam :=
            { s.parentRam with
              quota := s.parentRam.quota - alignAddr size
              dataspaces := (core.newDataspace.1, size) :: s.parentRam.dataspaces }
          mdAlloc := .designatedDataspaceInfo core.newDataspace.1 :: s.mdAlloc }
        core.newDataspace.2 (by show _ ≤ s.parentRam.quota - alignAddr (relAddr, size).2; omega)
      refine ⟨mrm', s', core', halloc, hstate, hgran, hleft.trans ?_⟩
      show s.parentRam.quota - alignAddr size - _ = _
      rw [Nat.sub_sub]

/-- With the quota it takes, `alloc` puts a new dataspace at the head of
the list. -/
theorem alloc_succeeds (size : Nat) (cacheAttr : CacheAttribute) (inBootstrap : Bool)
    {s : RamSessionComponent} (core : Core)
    (hquota : allocCost s.granularity size ≤ s.parentRam.quota) :
    ∃ info s' core', s.alloc size cacheAttr inBootstrap core = some (info.cap, s', core') ∧
      s'.parentState.ramDataspaces = info :: s.parentState.ramDataspaces ∧
      s'.granularity = s.granularity ∧
      s'.parentRam.quota = s.parentRam.quota - allocCost s.granularity size := by
  unfold allocCost at hquota ⊢
  unfold alloc
  split at hquota
  · rename_i hg
    simp only [if_pos hg]
    dsimp only [allocManaged]
    obtain ⟨mrm', s', core', halloc, hstate, hgran, hleft⟩ := allocDesignated_succeeds
      (designatedRanges (pageSize * s.granularity) size) ⟨core.newCap.1, [], []⟩
      (({ s with
          parentRm := (core.newCap.1, regionMapSize (pageSize * s.granularity) size) :: s.parentRm
          receiver := core.newCap.1 :: s.receiver }.newMd (.managedRegionMapInfo core.newCap.1)).newMd
        (.ramDataspaceInfo core.newCap.2.newCap.1))
      { core.newCap.2.newCap.2 with
        ramDataspaceCount := core.newCap.2.newCap.2.ramDataspaceCount + 1 } hquota
    rw [halloc]
    let info : RamDataspaceInfo :=
      { cap := core.newCap.2.newCap.1, size := size, cached := cacheAttr
        bootstrapped := inBootstrap, timestamp := core.newCap.2.newCap.2.ramDataspaceCount
        mrmInfo := some mrm' }
    refine ⟨info, s'.setRamDataspaces (info :: s'.parentState.ramDataspaces), core', rfl, ?_, hgran,
      hleft⟩
    exact congrArg (info :: ·) (congrArg RamSessionInfo.ramDataspaces hstate)
  · rename_i hg
    simp only [if_neg hg, parentAlloc, if_neg (Nat.not_lt.mpr hquota)]
    let info : RamDataspaceInfo :=
      { cap := core.newDataspace.1, size := size, cached := cacheAttr, bootstrapped := inBootstrap
        timestamp := core.newDataspace.2.ramDataspaceCount, mrmInfo := none }
    exact ⟨info, _, _, rfl, rfl, rfl, rfl⟩

end RamSessionComponent

section Phases

variable {g : Genode} {inBootstrap : Bool} {granularity : Nat} {r r' : Restorer}

/-! ## RAM dataspaces -/

/-- What the restorer allocates for a record. -/
def StoredRamDataspaceInfo.cost (granularity : Nat) (t : StoredRamDataspaceInfo) : Nat :=
  if t.bootstrapped then 0 else RamSessionComponent.allocCost granularity t.size

/-- The session can take in what is still to come of `ts`; in the end it
has `n` dataspaces. -/
structure TakesIn (pairs : List CkptRestoBadgeInfo) (n : Nat) (ts : List StoredRamDataspaceInfo)
    (x : RamSessionComponent × Restorer) : Prop where
  paired : ∀ t ∈ ts, t.bootstrapped = true → ∃ e ∈ pairs, e.ckptBadge = t.badge
  there : ∀ e ∈ pairs, ∃ d ∈ x.1.parentState.ramDataspaces, d.cap = e.restoCap
  quota : (ts.map (·.cost x.1.granularity)).sum ≤ x.1.parentRam.quota
  length : x.1.parentState.ramDataspaces.length + ts.countP (!·.bootstrapped) = n

theorem TakesIn.step {pairs : List CkptRestoBadgeInfo} {n : Nat} {t : StoredRamDataspaceInfo}
    {ts : List StoredRamDataspaceInfo} {x : RamSessionComponent × Restorer}
    (h : TakesIn pairs n (t :: ts) x) :
    ∃ x', identifyRecreateRamDataspace inBootstrap pairs t x = .ok x' ∧ TakesIn pairs n ts x' := by
  have hpaired := fun u hu => h.paired u (List.mem_cons_of_mem t hu)
  have hquota := h.quota
  have hlength := h.length
  rw [List.map_cons, List.sum_cons] at hquota
  unfold identifyRecreateRamDataspace
  by_cases hb : t.bootstrapped = true
  · obtain ⟨e, he, hbadge⟩ := h.paired t List.mem_cons_self hb
    obtain ⟨e', he', -, hpair⟩ := findByBadge_of_mem (·.ckptBadge) he hbadge
    obtain ⟨d, hd, hcap⟩ := h.there e' he'
    obtain ⟨d', -, -, hfind⟩ := findByBadge_of_mem (·.cap.localName) hd
      (congrArg Cap.localName hcap)
    rw [List.countP_cons_of_neg (by simp [hb])] at hlength
    simp only [if_pos hb, hpair, hfind]
    refine ⟨_, rfl, hpaired, h.there, ?_, hlength⟩
    show (ts.map (·.cost x.1.granularity)).sum ≤ x.1.parentRam.quota
    omega
  · have hcost : t.cost x.1.granularity =
        RamSessionComponent.allocCost x.1.granularity t.size := if_neg hb
    obtain ⟨info, s, core, halloc, hlist, hgran, hleft⟩ :=
      RamSessionComponent.alloc_succeeds (s := x.1) t.size t.cached inBootstrap x.2.core
        (by omega)
    have hfind : findByBadge (·.cap.localName) info.cap.localName s.parentState.ramDataspaces =
        some info := by
      rw [hlist, findByBadge_cons, if_pos rfl]
    rw [List.countP_cons_of_pos (by simp [hb])] at hlength
    simp only [if_neg hb, halloc, hfind]
    refine ⟨_, rfl, hpaired, fun e he => ?_, ?_, ?_⟩
    · obtain ⟨d, hd, hcap⟩ := h.there e he
      exact ⟨d, hlist ▸ List.mem_cons_of_mem _ hd, hcap⟩
    · show (ts.map (·.cost s.granularity)).sum ≤ s.parentRam.quota
      rw [hgran, hleft]
      omega
    · show s.parentState.ramDataspaces.length + _ = n
      rw [hlist, List.length_cons]
      omega

/-- The pairing has all bootstrapped records. -/
theorem identifyRamDataspaces_paired {infos : List RamDataspaceInfo}
    {stored : List StoredRamDataspaceInfo} (hi : (infos.map (·.timestamp)).Nodup)
    (hs : (stored.map (·.timestamp)).Nodup) {pairs : List CkptRestoBadgeInfo}
    (h : identifyRamDataspaces infos stored = .ok pairs) :
    ∀ t ∈ stored, t.bootstrapped = true → ∃ e ∈ pairs, e.ckptBadge = t.badge := by
  intro t ht hb
  obtain ⟨⟨-, -, hle⟩, rfl⟩ := (identifyRamDataspaces_eq_ok hi hs).mp h
  have hmem : t ∈ oldestFirst (·.bootstrapped) (·.timestamp) stored :=
    List.mem_mergeSort.mpr (List.mem_filter.mpr ⟨ht, hb⟩)
  obtain ⟨k, hk, rfl⟩ := List.mem_iff_getElem.mp hmem
  have hk' : k < (oldestFirst (·.bootstrapped) (·.timestamp) infos).length := by
    rw [length_oldestFirst] at hk ⊢
    omega
  refine ⟨pairOf _ ((oldestFirst (·.bootstrapped) (·.timestamp) infos)[k]), ?_, rfl⟩
  rw [List.mem_reverse, List.mem_iff_getElem]
  exact ⟨k, by rw [List.length_zipWith]; omega, List.getElem_zipWith⟩

/-- What dataspaces that get through show of their records. -/
theorem identifyRecreateRamDataspaces_first {stored : List StoredRamDataspaceInfo}
    {s s' : RamSessionComponent} (hi : (s.parentState.ramDataspaces.map (·.timestamp)).Nodup)
    (hs : (stored.map (·.timestamp)).Nodup)
    (h : identifyRecreateRamDataspaces inBootstrap stored s r = .ok (s', r')) :
    BootstrappedFirst (·.bootstrapped) stored ∧ ∃ t ∈ stored, t.bootstrapped = true := by
  obtain ⟨pairs, hidentify, hrest⟩ := bind_eq_ok.mp h
  obtain ⟨⟨-, hfirst, -⟩, rfl⟩ := (identifyRamDataspaces_eq_ok hi hs).mp hidentify
  refine ⟨hfirst, ?_⟩
  by_contra hnone
  have hzero : stored.countP (·.bootstrapped) = 0 :=
    List.countP_eq_zero.mpr fun t ht hb => hnone ⟨t, ht, hb⟩
  have hnil : oldestFirst (·.bootstrapped) (·.timestamp) stored = [] :=
    List.length_eq_zero_iff.mp ((length_oldestFirst stored).trans hzero)
  rw [hnil] at hrest
  cases hrest

theorem identifyRecreateRamDataspaces_total (inBootstrap : Bool)
    {stored : List StoredRamDataspaceInfo}
    {s : RamSessionComponent} (r : Restorer)
    (hi : (s.parentState.ramDataspaces.map (·.timestamp)).Nodup)
    (hs : (stored.map (·.timestamp)).Nodup)
    (hboot : ∀ d ∈ s.parentState.ramDataspaces, d.bootstrapped = true)
    (hle : stored.countP (·.bootstrapped) ≤ s.parentState.ramDataspaces.length)
    (hquota : (stored.map (·.cost s.granularity)).sum ≤ s.parentRam.quota)
    (hfirst : BootstrappedFirst (·.bootstrapped) stored)
    (hsome : ∃ t ∈ stored, t.bootstrapped = true) :
    ∃ s' r', identifyRecreateRamDataspaces inBootstrap stored s r = .ok (s', r') ∧
      s'.parentState.ramDataspaces.length =
        s.parentState.ramDataspaces.length + stored.countP (!·.bootstrapped) := by
  have hall : s.parentState.ramDataspaces.countP (·.bootstrapped) =
      s.parentState.ramDataspaces.length := List.countP_eq_length.mpr hboot
  have hidentify := (identifyRamDataspaces_eq_ok hi hs).mpr
    ⟨⟨List.pairwise_of_forall_mem_list fun d hd _ _ _ => hboot d hd, hfirst, hall ▸ hle⟩, rfl⟩
  have hpaired := identifyRamDataspaces_paired hi hs hidentify
  have hstart : TakesIn _ _ stored (s, r) :=
    ⟨hpaired, identifyRamDataspaces_mem hidentify, hquota, rfl⟩
  obtain ⟨x', hloop, hend⟩ := loop_reaches
    (f := identifyRecreateRamDataspace inBootstrap _) (fun t ts x hx => hx.step) hstart
  refine ⟨x'.1, x'.2, ?_, hend.length⟩
  obtain ⟨t, ht, hb⟩ := hsome
  obtain ⟨e, he, -⟩ := hpaired t ht hb
  unfold identifyRecreateRamDataspaces
  rw [hidentify]
  simp only [bind, Except.bind]
  rw [if_neg (by simpa using List.ne_nil_of_mem he)]
  exact hloop

/-! ## Signals -/

/-- The turn of a signal source always gets through. -/
theorem signalSourceKind_step_total {b : SignalSourceInfo} (t : StoredSignalSourceInfo)
    {x : List SignalSourceInfo × Restorer} (hb : b ∈ x.1) :
    ∃ x', (signalSourceKind inBootstrap b).step t x = .ok x' ∧ b ∈ x'.1 ∧
      x'.1.length = x.1.length + [t].countP (!·.bootstrapped) := by
  obtain ⟨objects, r⟩ := x
  cases ht : t.bootstrapped with
  | true =>
      have hid : (signalSourceKind inBootstrap b).identify t objects = .ok (some b.cap) := by
        show Except.ok (if t.bootstrapped then some b.cap else none) = _
        rw [ht, if_pos rfl]
      exact ⟨_, RestoKind.leaf_step_identify rfl hid hb r, hb, by simp [ht]⟩
  | false =>
      have hid : (signalSourceKind inBootstrap b).identify t objects = .ok none := by
        show Except.ok (if t.bootstrapped then some b.cap else none) = _
        rw [ht, if_neg Bool.false_ne_true]
      have hrec : (signalSourceKind inBootstrap b).recreate t r =
          .ok ((SignalSourceInfo.create inBootstrap r.core).1, r.setCore r.core.newCap.2) := rfl
      exact ⟨_, RestoKind.leaf_step_recreate rfl hid hrec, List.mem_cons_of_mem _ hb,
        by simp [ht]⟩

theorem identifyRecreateSignalSources_total (inBootstrap : Bool)
    (stored : List StoredSignalSourceInfo)
    {sources : List SignalSourceInfo} (hne : sources ≠ []) (r : Restorer) :
    ∃ sources' r', identifyRecreateSignalSources inBootstrap stored sources r =
        .ok (sources', r') ∧
      sources'.length = sources.length + stored.countP (!·.bootstrapped) := by
  cases sources with
  | nil => exact absurd rfl hne
  | cons b rest =>
      have hreach := @loop_reaches _ _ _ (signalSourceKind inBootstrap b).step (b :: rest, r)
        (fun ts x => b ∈ x.1 ∧ x.1.length + ts.countP (!·.bootstrapped) =
          (b :: rest).length + stored.countP (!·.bootstrapped)) stored
      obtain ⟨x', hloop, -, hend⟩ := hreach
        (fun t ts x ⟨hmem, hlen⟩ => by
          obtain ⟨x', hstep, hmem', hlen'⟩ := signalSourceKind_step_total t hmem
          refine ⟨x', hstep, hmem', ?_⟩
          rw [← List.singleton_append, List.countP_append] at hlen
          omega)
        ⟨List.mem_cons_self, rfl⟩
      exact ⟨x'.1, x'.2, hloop, hend⟩

/-- Every stored context belongs to a signal source that is in the
translation when its turn comes, or to none. -/
def SourcesKnown : List Nat → List StoredSignalContextInfo → Prop
  | _, [] => True
  | known, t :: ts => (t.signalSourceBadge = 0 ∨ t.signalSourceBadge ∈ known) ∧
      SourcesKnown (t.badge :: known) ts

instance : (known : List Nat) → (ts : List StoredSignalContextInfo) →
    Decidable (SourcesKnown known ts)
  | _, [] => .isTrue trivial
  | known, t :: ts =>
      have : Decidable (SourcesKnown (t.badge :: known) ts) := instDecidableSourcesKnown _ ts
      inferInstanceAs (Decidable (_ ∧ _))

theorem SourcesKnown.congr {known known' : List Nat} {ts : List StoredSignalContextInfo}
    (h : SourcesKnown known ts) (hsub : ∀ b ∈ known, b ∈ known') : SourcesKnown known' ts := by
  induction ts generalizing known known' with
  | nil => trivial
  | cons t ts ih =>
      refine ⟨h.1.imp_right (hsub _), ih h.2 fun b hb => ?_⟩
      rcases List.mem_cons.mp hb with rfl | hb
      · exact List.mem_cons_self
      · exact List.mem_cons_of_mem _ (hsub b hb)

/-- The badges the translation knows. -/
def Restorer.known (r : Restorer) : List Nat := r.ckptToRestoInfos.map (·.ckptBadge)

theorem contextSource_ok_iff {t : StoredSignalContextInfo} :
    (∃ cap, contextSource t r = .ok cap) ↔
      t.signalSourceBadge = 0 ∨ t.signalSourceBadge ∈ r.known := by
  unfold contextSource Restorer.translate Restorer.known
  by_cases h0 : t.signalSourceBadge = 0
  · simp [h0]
  · rw [if_pos h0]
    cases hfind : findByBadge (·.ckptBadge) t.signalSourceBadge r.ckptToRestoInfos with
    | none => simp [h0, findByBadge_eq_none.mp hfind]
    | some e =>
        obtain ⟨he, hbadge⟩ := findByBadge_some hfind
        have hmem := List.mem_map_of_mem (f := (·.ckptBadge)) he
        rw [hbadge] at hmem
        simp only [Option.map_some, hmem, or_true, iff_true]
        exact ⟨_, rfl⟩

/-- The turn of a signal context. -/
theorem signalContextKind_step_known {t : StoredSignalContextInfo}
    {x x' : List SignalContextInfo × Restorer}
    (h : (signalContextKind inBootstrap).step t x = .ok x') :
    (t.signalSourceBadge = 0 ∨ t.signalSourceBadge ∈ x.2.known) ∧
      x'.2.known = t.badge :: x.2.known := by
  obtain ⟨objects, r⟩ := x
  obtain ⟨objects', r'⟩ := x'
  rcases RestoKind.step_cases _ h with ⟨c, c', hid, -⟩ | ⟨c, c', r₁, -, hr, hp, -⟩
  · cases hid
  · obtain ⟨ssCap, hss, rfl, rfl⟩ := signalContextKind_recreate hr
    cases hp
    exact ⟨contextSource_ok_iff.mp ⟨ssCap, hss⟩, rfl⟩

theorem identifyRecreateSignalContexts_known {stored : List StoredSignalContextInfo}
    {contexts contexts' : List SignalContextInfo}
    (h : identifyRecreateSignalContexts inBootstrap stored contexts r = .ok (contexts', r')) :
    SourcesKnown r.known stored := by
  refine loop_rel (I := fun _ _ => True)
    (R := fun ts (x _ : List SignalContextInfo × Restorer) => SourcesKnown x.2.known ts)
    (fun _ _ => trivial) (fun _ _ _ _ _ _ => trivial) ?_ h trivial
  intro t ts x x₁ _ _ hstep hrest
  obtain ⟨hsource, hknown⟩ := signalContextKind_step_known hstep
  rw [hknown] at hrest
  exact ⟨hsource, hrest⟩

theorem signalContextKind_step_total {t : StoredSignalContextInfo}
    {x : List SignalContextInfo × Restorer}
    (h : t.signalSourceBadge = 0 ∨ t.signalSourceBadge ∈ x.2.known) :
    ∃ x', (signalContextKind inBootstrap).step t x = .ok x' ∧
      x'.2.known = t.badge :: x.2.known ∧ x'.1.length = x.1.length + 1 := by
  obtain ⟨objects, r⟩ := x
  obtain ⟨ssCap, hss⟩ := contextSource_ok_iff.mpr h
  exact ⟨_, RestoKind.leaf_step_recreate rfl rfl (signalContextKind_recreate_of_source hss),
    rfl, rfl⟩

theorem identifyRecreateSignalContexts_total (inBootstrap : Bool)
    {stored : List StoredSignalContextInfo}
    (contexts : List SignalContextInfo) (h : SourcesKnown r.known stored) :
    ∃ contexts' r', identifyRecreateSignalContexts inBootstrap stored contexts r =
        .ok (contexts', r') ∧ contexts'.length = contexts.length + stored.length := by
  have hreach := @loop_reaches _ _ _ (signalContextKind inBootstrap).step (contexts, r)
    (fun ts x => SourcesKnown x.2.known ts ∧
      x.1.length + ts.length = contexts.length + stored.length) stored
  obtain ⟨x', hloop, -, hend⟩ := hreach
    (fun t ts x ⟨⟨hsource, hrest⟩, hlen⟩ => by
      obtain ⟨x', hstep, hknown, hlen'⟩ := signalContextKind_step_total hsource
      refine ⟨x', hstep, hknown ▸ hrest, ?_⟩
      rw [List.length_cons] at hlen
      omega)
    ⟨h, rfl⟩
  exact ⟨x'.1, x'.2, hloop, hend⟩

/-! ## The phases -/

/-- One record of bootstrap and the one session of bootstrap. -/
theorem RestoKind.run_one {τ χ : Type} {k : RestoKind τ χ} {t : τ} {b c' : χ}
    (hid : k.identify t [b] = .ok (some (k.cap b)))
    (hparts : k.parts t b (r.addTranslation (k.badge t) (k.cap b)) = .ok (c', r')) :
    k.run [t] [b] r = .ok ([c'], r') := by
  have hfind : findByBadge (fun c => (k.cap c).localName) (k.cap b).localName [b] = some b := by
    rw [findByBadge_cons, if_pos rfl]
  unfold RestoKind.run
  rw [loop, k.step_identify hid hfind, hparts]
  simp [Except.map, bind, Except.bind, List.modifyFirst]

/-- `_identify_recreate_ram_sessions`, then
`_identify_recreate_pd_sessions`. -/
def identifyRecreateRamPd (g : Genode) (st : TargetState) (child : TargetChild) (r : Restorer) :
    Except Err ((List RamSessionComponent × List PdSessionComponent) × Restorer) := do
  let ram ← identifyRecreateRamSessions g child.granularity child.inBootstrap st.ramSessions
    child.services.ramRoot r
  let pd ← identifyRecreatePdSessions g child.inBootstrap st.pdSessions child.services.pdRoot ram.2
  .ok ((ram.1, pd.1), pd.2)

/-- The records of a child that has one RAM and one PD session of
bootstrap, whatever else it has. -/
structure BootRecords (st : TargetState) : Prop where
  ram : st.ramSessions.countP (·.bootstrapped) = 1
  pd : st.pdSessions.countP (·.bootstrapped) = 1
  timestamps : ∀ t ∈ st.ramSessions, (t.storedRamdsInfos.map (·.timestamp)).Nodup
  /-- bootstrap makes no signal contexts -/
  contexts : ∀ t ∈ st.pdSessions, ∀ c ∈ t.storedContextInfos, c.bootstrapped = false

/-- The child with its one RAM and its one PD session of bootstrap. -/
structure BootChild (s : CustomServices) : Prop where
  ram : s.ramRoot.countP (·.parentState.bootstrapped) = 1
  pd : s.pdRoot.countP (·.parentState.bootstrapped) = 1
  timestamps : ∀ c ∈ s.ramRoot, (c.parentState.ramDataspaces.map (·.timestamp)).Nodup
  contexts : ∀ c ∈ s.pdRoot, ∀ x ∈ c.parentState.signalContexts, x.bootstrapped = false

/-- The records a checkpoint has left of such a child. -/
theorem BootChild.records {old st : TargetState} {s : CustomServices}
    {capMap : List BadgeKcapInfo} (h : BootChild s) (hexact : Checkpointer.Exact old st s)
    (hcur : Checkpointer.AllCurrent capMap s st) : BootRecords st where
  ram := by
    have hperm := hcur.ram.map_perm hexact.ram.keys hexact.ram.nodup
      (f := (·.bootstrapped)) (g := (·.parentState.bootstrapped))
      fun c t hc => congrArg (·.bootstrapped) hc.session
    have hcount := hperm.countP_eq id
    rw [List.countP_map, List.countP_map] at hcount
    exact hcount.trans h.ram
  pd := by
    have hperm := hcur.pd.map_perm hexact.pd.keys hexact.pd.nodup
      (f := (·.bootstrapped)) (g := (·.parentState.bootstrapped)) fun c t hc => hc.bootstrapped
    have hcount := hperm.countP_eq id
    rw [List.countP_map, List.countP_map] at hcount
    exact hcount.trans h.pd
  timestamps t ht := by
    obtain ⟨c, hc, hkey, hcurrent⟩ := hcur.ram t ht
    obtain ⟨c', hc', hkey', hx⟩ := hexact.ram.each t ht
    obtain rfl := List.inj_on_of_nodup_map (hexact.ram.keys.nodup_iff.mp hexact.ram.nodup) hc hc'
      (hkey.trans hkey'.symm)
    have hperm := hcurrent.dataspaces.map_perm hx.dataspaces.keys hx.dataspaces.nodup
      (f := (·.timestamp)) (g := (·.timestamp)) fun d u hd => congrArg (·.timestamp) hd
    exact hperm.nodup_iff.mpr (h.timestamps c hc)
  contexts t ht u hu := by
    obtain ⟨c, hc, -, hcurrent⟩ := hcur.pd t ht
    obtain ⟨x, hx, -, hux⟩ := hcurrent.contexts u hu
    exact (congrArg (·.bootstrapped) hux).trans (h.contexts c hc x hx)

/-- A child that the same binary has just bootstrapped: one session of
each kind, the dataspaces and the signal source of bootstrap. The parent
has what the restorer allocates. -/
structure BootTwin (st : TargetState) (s : CustomServices) : Prop where
  ramRoot : s.ramRoot.length = 1
  pdRoot : s.pdRoot.length = 1
  bootstrapped : ∀ c ∈ s.ramRoot, ∀ d ∈ c.parentState.ramDataspaces, d.bootstrapped = true
  timestamps : ∀ c ∈ s.ramRoot, (c.parentState.ramDataspaces.map (·.timestamp)).Nodup
  dataspaces : ∀ c ∈ s.ramRoot, ∀ t ∈ st.ramSessions, t.bootstrapped = true →
    t.storedRamdsInfos.countP (·.bootstrapped) ≤ c.parentState.ramDataspaces.length
  sources : ∀ c ∈ s.pdRoot, c.parentState.signalSources.length = 1
  quota : ∀ c ∈ s.ramRoot, ∀ t ∈ st.ramSessions, t.bootstrapped = true →
    (t.storedRamdsInfos.map (·.cost c.granularity)).sum ≤ c.parentRam.quota

/-- One new session for each session of the checkpoint that bootstrap has
not made, one new object for each such object. -/
structure NewObjects (st : TargetState) (s : CustomServices) (ramRoot : List RamSessionComponent)
    (pdRoot : List PdSessionComponent) : Prop where
  ramSessions : ramRoot.length = s.ramRoot.length + st.ramSessions.countP (!·.bootstrapped)
  ramDataspaces : (ramRoot.flatMap (·.parentState.ramDataspaces)).length =
    (s.ramRoot.flatMap (·.parentState.ramDataspaces)).length +
      (st.ramSessions.flatMap (·.storedRamdsInfos)).countP (!·.bootstrapped)
  pdSessions : pdRoot.length = s.pdRoot.length + st.pdSessions.countP (!·.bootstrapped)
  signalSources : (pdRoot.flatMap (·.parentState.signalSources)).length =
    (s.pdRoot.flatMap (·.parentState.signalSources)).length +
      (st.pdSessions.flatMap (·.storedSourceInfos)).countP (!·.bootstrapped)
  signalContexts : (pdRoot.flatMap (·.parentState.signalContexts)).length =
    (s.pdRoot.flatMap (·.parentState.signalContexts)).length +
      (st.pdSessions.flatMap (·.storedContextInfos)).countP (!·.bootstrapped)

/-- The phases get through and make exactly the new objects. -/
def RecreatesAll (g : Genode) (st : TargetState) (child : TargetChild) (core : Core) : Prop :=
  ∃ ramRoot pdRoot r', identifyRecreateRamPd g st child (.new core) = .ok ((ramRoot, pdRoot), r') ∧
    NewObjects st child.services ramRoot pdRoot

/-- No session but those of bootstrap; the dataspaces of bootstrap come
first, and there is one; no signal context without its source. -/
structure OnlyBootstrapSessions (st : TargetState) : Prop where
  ram : ∀ t ∈ st.ramSessions, t.bootstrapped = true
  pd : ∀ t ∈ st.pdSessions, t.bootstrapped = true
  dataspaces : ∀ t ∈ st.ramSessions, BootstrappedFirst (·.bootstrapped) t.storedRamdsInfos ∧
    ∃ d ∈ t.storedRamdsInfos, d.bootstrapped = true
  contexts : ∀ t ∈ st.pdSessions,
    SourcesKnown (st.ramSessions.flatMap (·.badges) ++ t.badge :: t.storedSourceInfos.map (·.badge))
      t.storedContextInfos

theorem Enters.mem_known {badges : List Nat} (h : Enters badges r r') (b : Nat) :
    b ∈ r'.known ↔ b ∈ badges ∨ b ∈ r.known := Adds.mem_keys h b

theorem identifyRecreateRamSessions_single {stored : List StoredRamSessionInfo}
    {s : RamSessionComponent} {ramRoot' : List RamSessionComponent}
    (hone : stored.countP (·.bootstrapped) = 1)
    (h : identifyRecreateRamSessions g granularity inBootstrap stored [s] r = .ok (ramRoot', r')) :
    ∃ t s', stored = [t] ∧ t.bootstrapped = true ∧
      identifyRecreateRamDataspaces inBootstrap t.storedRamdsInfos s
        (r.addTranslation t.badge s.cap) = .ok (s', r') := by
  rcases RestoKind.run_single (fun _ _ => by rfl) (by exact ramSessionKind_fails s)
    (List.length_filter_le_one hone) h with
    ⟨rfl, -, -⟩ | ⟨t, s', rfl, hb, hparts, -⟩
  · cases hone
  · exact ⟨t, s', rfl, hb, hparts⟩

theorem identifyRecreatePdSessions_single {stored : List StoredPdSessionInfo}
    {pd : PdSessionComponent} {pdRoot' : List PdSessionComponent}
    (hone : stored.countP (·.bootstrapped) = 1)
    (h : identifyRecreatePdSessions g inBootstrap stored [pd] r = .ok (pdRoot', r')) :
    ∃ t pd', stored = [t] ∧ t.bootstrapped = true ∧
      pdSessionParts inBootstrap t pd (r.addTranslation t.badge pd.cap) = .ok (pd', r') := by
  rcases RestoKind.run_single (fun _ _ => by rfl) (by exact pdSessionKind_fails pd)
    (List.length_filter_le_one hone) h with
    ⟨rfl, -, -⟩ | ⟨t, pd', rfl, hb, hparts, -⟩
  · cases hone
  · exact ⟨t, pd', rfl, hb, hparts⟩

theorem identifyRecreateRamSessions_total (granularity : Nat) {t : StoredRamSessionInfo} {s : RamSessionComponent}
    (hb : t.bootstrapped = true)
    (hparts : ∃ s' r', identifyRecreateRamDataspaces inBootstrap t.storedRamdsInfos s
        (r.addTranslation t.badge s.cap) = .ok (s', r') ∧
      s'.parentState.ramDataspaces.length =
        s.parentState.ramDataspaces.length + t.storedRamdsInfos.countP (!·.bootstrapped)) :
    ∃ s' r', identifyRecreateRamSessions g granularity inBootstrap [t] [s] r = .ok ([s'], r') ∧
      s'.parentState.ramDataspaces.length =
        s.parentState.ramDataspaces.length + t.storedRamdsInfos.countP (!·.bootstrapped) := by
  obtain ⟨s', r', hds, hlen⟩ := hparts
  have hid : (ramSessionKind g granularity inBootstrap s).identify t [s] = .ok (some s.cap) := by
    show Except.ok (if t.bootstrapped then some s.cap else none) = _
    rw [hb, if_pos rfl]
  exact ⟨s', r', RestoKind.run_one hid hds, hlen⟩

theorem identifyRecreatePdSessions_total (inBootstrap : Bool) {t : StoredPdSessionInfo} {pd : PdSessionComponent}
    (hb : t.bootstrapped = true) (hne : pd.parentState.signalSources ≠ [])
    (hknown : SourcesKnown (r.known ++ t.badge :: t.storedSourceInfos.map (·.badge))
      t.storedContextInfos) :
    ∃ pd' r', identifyRecreatePdSessions g inBootstrap [t] [pd] r = .ok ([pd'], r') ∧
      pd'.parentState.signalSources.length =
        pd.parentState.signalSources.length + t.storedSourceInfos.countP (!·.bootstrapped) ∧
      pd'.parentState.signalContexts.length =
        pd.parentState.signalContexts.length + t.storedContextInfos.length := by
  have hid : (pdSessionKind g inBootstrap pd).identify t [pd] = .ok (some pd.cap) := by
    show Except.ok (if t.bootstrapped then some pd.cap else none) = _
    rw [hb, if_pos rfl]
  obtain ⟨sources, r₁, hsources, hslen⟩ := identifyRecreateSignalSources_total inBootstrap
    t.storedSourceInfos hne (r.addTranslation t.badge pd.cap)
  have hentered := identifyRecreateSignalSources_enters hsources
  obtain ⟨contexts, r₂, hcontexts, hclen⟩ := identifyRecreateSignalContexts_total inBootstrap
    pd.parentState.signalContexts (hknown.congr fun b hmem => by
      rw [hentered.mem_known]
      rcases List.mem_append.mp hmem with hmem | hmem
      · exact .inr (List.mem_cons_of_mem _ hmem)
      · rcases List.mem_cons.mp hmem with rfl | hmem
        · exact .inr List.mem_cons_self
        · exact .inl hmem)
  have hparts : (pdSessionKind g inBootstrap pd).parts t pd (r.addTranslation t.badge pd.cap) =
      .ok (pd.setSignals sources contexts,
        addRegionMap t.storedLinkerArea pd.linkerArea (addRegionMap t.storedStackArea pd.stackArea
          (addRegionMap t.storedAddressSpace pd.addressSpace r₂))) := by
    simp only [pdSessionKind, pdSessionParts, hsources, hcontexts, bind, Except.bind]
  exact ⟨_, _, RestoKind.run_one hid hparts, hslen, hclen⟩

/-- What the phases show of a checkpoint they get through. -/
theorem RecreatesAll.only {st : TargetState} {child : TargetChild} {core : Core}
    (h : RecreatesAll g st child core) (hst : BootRecords st)
    (hchild : BootTwin st child.services) : OnlyBootstrapSessions st := by
  obtain ⟨s, hs⟩ := List.length_eq_one_iff.mp hchild.ramRoot
  obtain ⟨pd, hpd⟩ := List.length_eq_one_iff.mp hchild.pdRoot
  obtain ⟨ramRoot, pdRoot, r', h, -⟩ := h
  obtain ⟨⟨ramRoot, r₁⟩, hram, hrest⟩ := bind_eq_ok.mp h
  obtain ⟨⟨pdRoot, r₂⟩, hpdrun, -⟩ := bind_eq_ok.mp hrest
  have hknown := identifyRecreateRamSessions_enters hram
  rw [hs] at hram
  rw [hpd] at hpdrun
  obtain ⟨t, s', hram1, hb, hds⟩ := identifyRecreateRamSessions_single hst.ram hram
  obtain ⟨u, pd', hpd1, hb', hparts⟩ := identifyRecreatePdSessions_single hst.pd hpdrun
  obtain ⟨sources, r₃, contexts, r₄, hsources, hcontexts, -, -⟩ := pdSessionParts_cases hparts
  have hsknown := identifyRecreateSignalSources_enters hsources
  have hts := hst.timestamps
  rw [hram1, List.forall_mem_singleton] at hts
  have hfirst := identifyRecreateRamDataspaces_first
    (hchild.timestamps s (hs ▸ List.mem_singleton_self s)) hts hds
  have hcontext : SourcesKnown
      (st.ramSessions.flatMap (·.badges) ++ u.badge :: u.storedSourceInfos.map (·.badge))
      u.storedContextInfos := by
    refine (identifyRecreateSignalContexts_known hcontexts).congr fun b hmem => ?_
    rw [List.mem_append, List.mem_cons]
    rcases (hsknown.mem_known b).mp hmem with hmem | hmem
    · exact .inr (.inr hmem)
    · rcases List.mem_cons.mp hmem with rfl | hmem
      · exact .inr (.inl rfl)
      · rcases (hknown.mem_known b).mp hmem with hmem | hmem
        · exact .inl hmem
        · cases hmem
  exact
    { ram := by rw [hram1]; exact List.forall_mem_singleton.mpr hb
      pd := by rw [hpd1]; exact List.forall_mem_singleton.mpr hb'
      dataspaces := by rw [hram1]; exact List.forall_mem_singleton.mpr hfirst
      contexts := by rw [hpd1]; exact List.forall_mem_singleton.mpr hcontext }

theorem OnlyBootstrapSessions.recreatesAll (g : Genode) {st : TargetState} {child : TargetChild}
    (core : Core) (h : OnlyBootstrapSessions st) (hst : BootRecords st)
    (hchild : BootTwin st child.services) : RecreatesAll g st child core := by
  obtain ⟨s, hs⟩ := List.length_eq_one_iff.mp hchild.ramRoot
  obtain ⟨pd, hpd⟩ := List.length_eq_one_iff.mp hchild.pdRoot
  obtain ⟨t, ht⟩ := List.exists_singleton hst.ram h.ram
  obtain ⟨u, hu⟩ := List.exists_singleton hst.pd h.pd
  have hsmem : s ∈ child.services.ramRoot := hs ▸ List.mem_singleton_self s
  have htmem : t ∈ st.ramSessions := ht ▸ List.mem_singleton_self t
  have humem : u ∈ st.pdSessions := hu ▸ List.mem_singleton_self u
  have hb := h.ram t htmem
  obtain ⟨hfirst, hsome⟩ := h.dataspaces t htmem
  obtain ⟨s', r₁, hram, hdslen⟩ := identifyRecreateRamSessions_total (g := g)
    child.granularity hb (identifyRecreateRamDataspaces_total child.inBootstrap
      ((Restorer.new core).addTranslation t.badge s.cap) (hchild.timestamps s hsmem)
      (hst.timestamps t htmem) (hchild.bootstrapped s hsmem)
      (hchild.dataspaces s hsmem t htmem hb) (hchild.quota s hsmem t htmem hb) hfirst hsome)
  have hsource := hchild.sources pd (hpd ▸ List.mem_singleton_self pd)
  have hne : pd.parentState.signalSources ≠ [] := by
    intro hnil
    rw [hnil] at hsource
    cases hsource
  have hknown : SourcesKnown (r₁.known ++ u.badge :: u.storedSourceInfos.map (·.badge))
      u.storedContextInfos := by
    refine (h.contexts u humem).congr fun b hmem => ?_
    rw [ht] at hmem
    rw [List.mem_append] at hmem ⊢
    exact hmem.imp_left fun hmem =>
      ((identifyRecreateRamSessions_enters hram).mem_known b).mpr (.inl hmem)
  obtain ⟨pd', r₂, hpdrun, hslen, hclen⟩ := identifyRecreatePdSessions_total (g := g)
    child.inBootstrap (h.pd u humem) hne hknown
  have hrun : identifyRecreateRamPd g st child (.new core) = .ok (([s'], [pd']), r₂) := by
    unfold identifyRecreateRamPd
    rw [ht, hu, hs, hpd]
    simp only [hram, hpdrun, bind, Except.bind]
  have hcontexts : u.storedContextInfos.countP (!·.bootstrapped) = u.storedContextInfos.length :=
    List.countP_eq_length.mpr fun c hc => by simp [hst.contexts u humem c hc]
  refine ⟨[s'], [pd'], r₂, hrun, ?_, ?_, ?_, ?_, ?_⟩
  · simp [hs, ht, hb]
  · simpa [hs, ht] using hdslen
  · simp [hpd, hu, h.pd u humem]
  · simpa [hpd, hu] using hslen
  · simpa [hpd, hu, hcontexts] using hclen

/-- **Only the sessions of bootstrap**: the phases get through a
checkpoint and make exactly the new objects where no session is to be
recreated, and nowhere else. -/
theorem identifyRecreateRamPd_iff (g : Genode) {st : TargetState} {child : TargetChild}
    (core : Core) (hst : BootRecords st) (hchild : BootTwin st child.services) :
    RecreatesAll g st child core ↔ OnlyBootstrapSessions st :=
  ⟨fun h => h.only hst hchild, fun h => h.recreatesAll g core hst hchild⟩

end Phases

/-! ## One more session -/

namespace ExtraSample

/-- The small child, with a dataspace and a signal context of its own. -/
def busy : TargetChild :=
  { TargetChild.small with
    services :=
      { TargetChild.small.services with
        ramRoot :=
          [.bare 30 true 0
            [{ cap := ⟨32⟩, size := 0x1000, cached := .cached, bootstrapped := false
               timestamp := 1, mrmInfo := none },
             { cap := ⟨31⟩, size := 0xa000, cached := .cached, bootstrapped := true
               timestamp := 0, mrmInfo := none }]]
        pdRoot :=
          TargetChild.small.services.pdRoot.map fun pd =>
            pd.setSignals pd.parentState.signalSources [⟨⟨41⟩, ⟨40⟩, 7, false⟩] } }

/-- The same with a RAM session of its own, in which it has allocated
nothing. -/
def busier : TargetChild :=
  busy.mapRamSessions (RamSessionComponent.bare 60 false 0 [] :: ·)

/-- The records of a first checkpoint. -/
def records (child : TargetChild) : TargetState :=
  ((Checkpointer.new Core.small).checkpoint .empty child).state

end ExtraSample

open ExtraSample in
theorem identifyRecreateRamPd_iff_sample :
    RecreatesAll .small (records busy) .small .small :=
  (identifyRecreateRamPd_iff .small .small
    ⟨by decide +kernel, by decide +kernel, by decide +kernel, by decide +kernel⟩
    ⟨by decide +kernel, by decide +kernel, by decide +kernel, by decide +kernel,
      by decide +kernel, by decide +kernel, by decide +kernel⟩).mpr
    ⟨by decide +kernel, by decide +kernel, by decide +kernel, by decide +kernel⟩

open ExtraSample in
theorem extra_session_not_restorable :
    BootRecords (records busier) ∧ BootTwin (records busier) TargetChild.small.services ∧
      (identifyRecreateRamPd .small (records busier) .small (.new .small)).map (fun _ => ()) =
        .error (.exception "There is no bootstrapped RAM dataspace") ∧
      ¬RecreatesAll .small (records busier) .small .small := by
  have herr :
      (identifyRecreateRamPd .small (records busier) .small (.new .small)).map (fun _ => ()) =
        .error (.exception "There is no bootstrapped RAM dataspace") := by
    decide +kernel
  refine ⟨⟨by decide +kernel, by decide +kernel, by decide +kernel, by decide +kernel⟩,
    ⟨by decide +kernel, by decide +kernel, by decide +kernel, by decide +kernel,
      by decide +kernel, by decide +kernel, by decide +kernel⟩, herr, ?_⟩
  rintro ⟨ramRoot, pdRoot, r', h, -⟩
  rw [h] at herr
  cases herr

end Rtcr
