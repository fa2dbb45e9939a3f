import Rtcr.Checkpointer.Kinds

/-!
# Checkpointer.Steps — one prepare phase, record by record

For every kind: how a record after the phase comes from the record that
was stored before under its badge, or from a fresh one, and from the
child's object. `PrepareStep` puts the kinds together; nothing is said
here about attached regions, which are not matched by badge.
-/

namespace Rtcr.Checkpointer

open Reconcile

variable {χ τ : Type}

/-! ## Fresh and updated records -/

/-- The record an update starts from: the stored one, if there is one,
else a fresh one. -/
def Base (fresh : τ → Prop) : Option τ → τ → Prop
  | some t, base => base = t
  | none, base => fresh base

/-- `new` is the update of its base. -/
def Step (fresh : χ → τ → Prop) (updated : τ → χ → τ → Prop) (old : Option τ) (new : τ) (c : χ) :
    Prop :=
  ∃ base, Base (fresh c) old base ∧ updated base c new

/-- A record as its constructor leaves it, with the kcap from the map. -/
def Fresh (mk : χ → RecordAddr → Nat → τ) (childBadge : χ → Nat) (capMap : List BadgeKcapInfo)
    (c : χ) (t : τ) : Prop :=
  ∃ n, t = mk c (.block n) (findKcapByBadge (childBadge c) capMap)

/-- Records of this kind are not touched again. -/
def Untouched (t : τ) (_ : χ) (t' : τ) : Prop := t' = t

section Rule

variable {kind : Kind Checkpointer χ τ} {key : τ → Nat} {childKey : χ → Nat}
  {P : Checkpointer → Prop} {fresh : χ → τ → Prop} {updated : τ → χ → τ → Prop}

/-- The mirror of a keyed kind, from what its creation and its update
do. -/
theorem step_mirror (hkind : Keyed kind key childKey) (hP : kind.Keeps P) {ts : List τ}
    {cs : List χ} {ck : Checkpointer} (hck : P ck) (hts : (ts.map key).Nodup)
    (hcs : (cs.map childKey).Nodup)
    (hfresh : ∀ c ∈ cs, ∀ s, P s → fresh c (kind.create c s).1)
    (hold : ∀ t ∈ ts, ∀ c ∈ cs, key t = childKey c → ∀ s, P s →
      updated t c (kind.update c t s).1)
    (hnew : ∀ c ∈ cs, ∀ t, fresh c t → ∀ s, P s → updated t c (kind.update c t s).1) :
    Mirror key childKey (Step fresh updated) ts (reconcile kind ts cs ck).1 cs :=
  hkind.mirror hP hck hts hcs
    (fun t ht c hc hkey s hs => ⟨t, rfl, hold t ht c hc hkey s hs⟩)
    (fun c hc s₀ s hs₀ hs => ⟨_, hfresh c hc s₀ hs₀, hnew c hc _ (hfresh c hc s₀ hs₀) s hs⟩)

end Rule

/-- A kind without nested lists, whose update needs only the object. -/
theorem leaf_mirror {badge : τ → Nat} {addr : τ → RecordAddr}
    (mk : χ → RecordAddr → Nat → τ) (childBadge : χ → Nat) (refresh : χ → τ → τ)
    (hmk : ∀ c a kcap, badge (mk c a kcap) = childBadge c)
    (hrefresh : ∀ c t, badge (refresh c t) = badge t) {capMap : List BadgeKcapInfo}
    {ck : Checkpointer} (hck : ck.capabilityMapInfos = capMap) {ts : List τ} {cs : List χ}
    (hts : (ts.map badge).Nodup) (hcs : (cs.map childBadge).Nodup) :
    Mirror badge childBadge
      (Step (Fresh mk childBadge capMap) fun t c t' => t' = refresh c t) ts
      (reconcile (badgeKind badge childBadge (fun c => createStored (mk c) (childBadge c))
        (fun c t ck => (refresh c t, ck)) (fun t ck => ck.destroyRecord (addr t))) ts cs ck).1
      cs :=
  step_mirror (badgeKind_keyed (fun _ _ => hmk ..) (fun _ _ _ => hrefresh ..))
    ((stable_capabilityMapInfos capMap).leaf fun _ _ _ => rfl) hck hts hcs
    (fun c _ s hs => ⟨s.newRecord.1, by rw [← hs]; rfl⟩) (fun _ _ _ _ _ _ _ => rfl)
    (fun _ _ _ _ _ _ => rfl)

/-! ## RAM sessions -/

/-- A record that has just been made. -/
def FreshRamDataspace (capMap : List BadgeKcapInfo) (c : RamDataspaceInfo)
    (t : StoredRamDataspaceInfo) : Prop :=
  ∃ n copy, t = .new (.block n) c (findKcapByBadge c.cap.localName capMap) copy

theorem ramDataspaces_mirror {capMap : List BadgeKcapInfo} {ck : Checkpointer}
    (hck : ck.capabilityMapInfos = capMap) {ts : List StoredRamDataspaceInfo}
    {cs : List RamDataspaceInfo} (hts : (ts.map (·.badge)).Nodup)
    (hcs : (cs.map (·.cap.localName)).Nodup) :
    Mirror (·.badge) (·.cap.localName) (Step (FreshRamDataspace capMap) Untouched) ts
      (prepareRamDataspaces ts cs ck).1 cs := by
  have hstable := stable_capabilityMapInfos capMap
  refine step_mirror ramDataspaceKind_keyed hstable.ramDataspaces hck hts hcs
    (fun c _ s hs => ?_) (fun _ _ _ _ _ _ _ => rfl) (fun _ _ _ _ _ _ => rfl)
  have hmap := hstable.useCopyDataspace false c.cap c.size s hs
  exact ⟨_, _, by rw [← hmap]; rfl⟩

/-- A RAM session record and its nested list after the phase. -/
def UpdatedRamSession (capMap : List BadgeKcapInfo) (base : StoredRamSessionInfo)
    (c : RamSessionComponent) (new : StoredRamSessionInfo) : Prop :=
  new = { base with storedRamdsInfos := new.storedRamdsInfos } ∧
    Mirror (·.badge) (·.cap.localName) (Step (FreshRamDataspace capMap) Untouched)
      base.storedRamdsInfos new.storedRamdsInfos c.parentState.ramDataspaces

/-- A record that has just been made. -/
def FreshRamSession (capMap : List BadgeKcapInfo) :=
  Fresh (fun c : RamSessionComponent => (StoredRamSessionInfo.new · c ·)) (·.cap.localName) capMap

theorem ramSessions_mirror {capMap : List BadgeKcapInfo} (ck : Checkpointer)
    (hck : ck.capabilityMapInfos = capMap) {ts : List StoredRamSessionInfo}
    {cs : List RamSessionComponent} (hts : (ts.map (·.badge)).Nodup)
    (hcs : (cs.map (·.cap.localName)).Nodup)
    (htsub : ∀ t ∈ ts, (t.storedRamdsInfos.map (·.badge)).Nodup)
    (hcsub : ∀ c ∈ cs, (c.parentState.ramDataspaces.map (·.cap.localName)).Nodup) :
    Mirror (·.badge) (·.cap.localName) (Step (FreshRamSession capMap) (UpdatedRamSession capMap))
      ts (prepareRamSessions ts cs ck).1 cs := by
  refine step_mirror ramSessionKind_keyed (stable_capabilityMapInfos capMap).ramSessions hck hts
    hcs (fun c _ s hs => ⟨s.newRecord.1, by rw [← hs]; rfl⟩)
    (fun t ht c hc _ s hs => ⟨rfl, ramDataspaces_mirror hs (htsub t ht) (hcsub c hc)⟩)
    (fun c hc t ht s hs => ⟨rfl, ramDataspaces_mirror hs ?_ (hcsub c hc)⟩)
  obtain ⟨n, rfl⟩ := ht
  exact List.nodup_nil

/-! ## Region maps -/

/-- A record that has just been made. -/
def FreshRegionMap (capMap : List BadgeKcapInfo) :=
  Fresh (fun c : RegionMapComponent => (StoredRegionMapInfo.new · c ·)) (·.cap.localName) capMap

/-- A region map record after the phase, whatever its regions are. -/
def UpdatedRegionMap (base : StoredRegionMapInfo) (c : RegionMapComponent)
    (new : StoredRegionMapInfo) : Prop :=
  new = { base with
    sighBadge := c.parentState.sigh.localName
    storedAttachedRegionInfos := new.storedAttachedRegionInfos }

theorem regionMaps_mirror {capMap : List BadgeKcapInfo} {ck : Checkpointer}
    (hck : ck.capabilityMapInfos = capMap) {ts : List StoredRegionMapInfo}
    {cs : List RegionMapComponent} (hts : (ts.map (·.badge)).Nodup)
    (hcs : (cs.map (·.cap.localName)).Nodup) :
    Mirror (·.badge) (·.cap.localName) (Step (FreshRegionMap capMap) UpdatedRegionMap) ts
      (prepareRegionMaps ts cs ck).1 cs :=
  step_mirror regionMapKind_keyed (stable_capabilityMapInfos capMap).regionMaps hck hts hcs
    (fun c _ s hs => ⟨s.newRecord.1, by rw [← hs]; rfl⟩) (fun _ _ _ _ _ _ _ => rfl)
    (fun _ _ _ _ _ _ => rfl)

/-- One embedded region map, when the temporary lists agree on the
badges. -/
theorem areaAfter_updated {capMap : List BadgeKcapInfo} {ck : Checkpointer}
    (hck : ck.capabilityMapInfos = capMap) {old : List StoredRegionMapInfo}
    {cs : List RegionMapComponent} (hkeys : old.map (·.badge) = cs.map (·.cap.localName))
    (hcs : (cs.map (·.cap.localName)).Nodup) (haddr : (old.map (·.addr)).Nodup)
    {t : StoredRegionMapInfo} (ht : t ∈ old) {c : RegionMapComponent} (hc : c ∈ cs)
    (htc : t.badge = c.cap.localName) :
    UpdatedRegionMap t c (areaAfter t (prepareRegionMaps old cs ck).1) := by
  have hold : (old.map (·.badge)).Nodup := hkeys ▸ hcs
  have hmirror := regionMaps_mirror hck hold hcs
  have hshape : (prepareRegionMaps old cs ck).1.map (fun u => (u.addr, u.badge)) =
      old.map fun u => (u.addr, u.badge) :=
    regionMapKind_keyed.reconcile_map (fun _ _ _ => rfl) ck
      (fun d hd => hkeys ▸ List.mem_map_of_mem hd)
      (fun u hu => hkeys ▸ List.mem_map_of_mem (f := fun v : StoredRegionMapInfo => v.badge) hu)
  unfold areaAfter
  split
  · rename_i t' hfind
    have haddr' : t'.addr = t.addr := by simpa using List.find?_some hfind
    have hmem := List.mem_of_find?_eq_some hfind
    -- the record at this address is the only one with this badge
    obtain ⟨u, hu, he⟩ := List.mem_map.mp
      (hshape ▸ List.mem_map_of_mem (f := fun v : StoredRegionMapInfo => (v.addr, v.badge)) hmem)
    simp only [Prod.mk.injEq] at he
    have hut : u = t := List.inj_on_of_nodup_map haddr hu ht (he.1.trans haddr')
    subst hut
    obtain ⟨d, hd, hdk, base, hbase, hupd⟩ := hmirror.each t' hmem
    have hfirst : (old.find? fun v => v.badge == u.badge) = some u := find?_key_of_mem hold hu
    rw [← he.2, hfirst] at hbase
    have hdc : d = c := List.inj_on_of_nodup_map hcs hd hc (by rw [hdk, ← he.2, htc])
    rw [hdc, hbase] at hupd
    exact hupd
  · rename_i hfind
    refine absurd hfind ?_
    obtain ⟨u, hu, he⟩ := List.mem_map.mp
      (hshape ▸ List.mem_map_of_mem (f := fun v : StoredRegionMapInfo => (v.addr, v.badge)) ht)
    simp only [Prod.mk.injEq] at he
    simp only [List.find?_eq_none, not_forall]
    exact ⟨u, hu, by simp [he.1]⟩

/-! ## PD sessions -/

/-- The record's region maps are those of the session. -/
def SameAreas (t : StoredPdSessionInfo) (c : PdSessionComponent) : Prop :=
  (storedAreas t).map (·.badge) = (areas c).map (·.cap.localName)

/-- A PD session record and what it holds after the phase. -/
structure UpdatedPdSession (capMap : List BadgeKcapInfo) (base : StoredPdSessionInfo)
    (c : PdSessionComponent) (new : StoredPdSessionInfo) : Prop where
  session : new.toStoredSessionInfo = base.toStoredSessionInfo
  areas : SameAreas base c
  nativeCaps : Mirror (·.badge) (·.cap.localName)
    (Step (Fresh (fun c => (StoredNativeCapabilityInfo.new · c ·)) (·.cap.localName) capMap)
      Untouched) base.storedNativeCapInfos new.storedNativeCapInfos c.parentState.nativeCaps
  sources : Mirror (·.badge) (·.cap.localName)
    (Step (Fresh (fun c => (StoredSignalSourceInfo.new · c ·)) (·.cap.localName) capMap)
      Untouched) base.storedSourceInfos new.storedSourceInfos c.parentState.signalSources
  contexts : Mirror (·.badge) (·.cap.localName)
    (Step (Fresh (fun c => (StoredSignalContextInfo.new · c ·)) (·.cap.localName) capMap)
      Untouched) base.storedContextInfos new.storedContextInfos c.parentState.signalContexts
  addressSpace : UpdatedRegionMap base.storedAddressSpace c.addressSpace new.storedAddressSpace
  stackArea : UpdatedRegionMap base.storedStackArea c.stackArea new.storedStackArea
  linkerArea : UpdatedRegionMap base.storedLinkerArea c.linkerArea new.storedLinkerArea

/-- A record that has just been made, with the kcaps of its region maps. -/
def FreshPdSession (capMap : List BadgeKcapInfo) (c : PdSessionComponent)
    (t : StoredPdSessionInfo) : Prop :=
  ∃ n, t = .new n c (findKcapByBadge c.cap.localName capMap)
    (findKcapByBadge c.addressSpace.cap.localName capMap)
    (findKcapByBadge c.stackArea.cap.localName capMap)
    (findKcapByBadge c.linkerArea.cap.localName capMap)

instance (t : StoredPdSessionInfo) (c : PdSessionComponent) : Decidable (SameAreas t c) :=
  inferInstanceAs (Decidable (_ = _))

theorem updatePdSession_updated {capMap : List BadgeKcapInfo} {ck : Checkpointer}
    (hck : ck.capabilityMapInfos = capMap) {t : StoredPdSessionInfo} {c : PdSessionComponent}
    (hcaps : (t.storedNativeCapInfos.map (·.badge)).Nodup)
    (hsources : (t.storedSourceInfos.map (·.badge)).Nodup)
    (hcontexts : (t.storedContextInfos.map (·.badge)).Nodup)
    (hcaps' : (c.parentState.nativeCaps.map (·.cap.localName)).Nodup)
    (hsources' : (c.parentState.signalSources.map (·.cap.localName)).Nodup)
    (hcontexts' : (c.parentState.signalContexts.map (·.cap.localName)).Nodup)
    (hareas' : ((areas c).map (·.cap.localName)).Nodup) (hsame : SameAreas t c) :
    UpdatedPdSession capMap t c (updatePdSession c t ck).1 := by
  have hstable := stable_capabilityMapInfos capMap
  have h1 := hstable.nativeCaps.reconcile t.storedNativeCapInfos c.parentState.nativeCaps hck
  have h2 := hstable.signalSources.reconcile t.storedSourceInfos c.parentState.signalSources h1
  have h3 := hstable.signalContexts.reconcile t.storedContextInfos c.parentState.signalContexts h2
  have haddr : ((storedAreas t).map (·.addr)).Nodup := by
    obtain ⟨ha, hs, hl⟩ := t.embedded
    simp [storedAreas, ha, hs, hl, RecordAddr.area_inj]
  have hbadges := hsame
  simp only [SameAreas, storedAreas, areas, List.map_cons, List.map_nil, List.cons.injEq,
    and_true] at hbadges
  obtain ⟨ha, hs, hl⟩ := hbadges
  exact
    { session := rfl
      areas := hsame
      nativeCaps := leaf_mirror (fun c => (StoredNativeCapabilityInfo.new · c ·)) (·.cap.localName)
        (fun _ t => t) (fun _ _ _ => rfl) (fun _ _ => rfl) hck hcaps hcaps'
      sources := leaf_mirror (fun c => (StoredSignalSourceInfo.new · c ·)) (·.cap.localName)
        (fun _ t => t) (fun _ _ _ => rfl) (fun _ _ => rfl) h1 hsources hsources'
      contexts := leaf_mirror (fun c => (StoredSignalContextInfo.new · c ·)) (·.cap.localName)
        (fun _ t => t) (fun _ _ _ => rfl) (fun _ _ => rfl) h2 hcontexts hcontexts'
      addressSpace := areaAfter_updated h3 hsame hareas' haddr (by simp [storedAreas])
        (by simp [areas]) ha
      stackArea := areaAfter_updated h3 hsame hareas' haddr (by simp [storedAreas])
        (by simp [areas]) hs
      linkerArea := areaAfter_updated h3 hsame hareas' haddr (by simp [storedAreas])
        (by simp [areas]) hl }

/-- Badges are distinct in every list of a PD session. -/
@[mk_iff] structure PdDistinct (c : PdSessionComponent) : Prop where
  nativeCaps : (c.parentState.nativeCaps.map (·.cap.localName)).Nodup
  sources : (c.parentState.signalSources.map (·.cap.localName)).Nodup
  contexts : (c.parentState.signalContexts.map (·.cap.localName)).Nodup
  areas : ((areas c).map (·.cap.localName)).Nodup

instance (c : PdSessionComponent) : Decidable (PdDistinct c) :=
  decidable_of_iff _ (pdDistinct_iff c).symm

/-- Badges are distinct in every list of a PD session record. -/
@[mk_iff] structure StoredPdDistinct (t : StoredPdSessionInfo) : Prop where
  nativeCaps : (t.storedNativeCapInfos.map (·.badge)).Nodup
  sources : (t.storedSourceInfos.map (·.badge)).Nodup
  contexts : (t.storedContextInfos.map (·.badge)).Nodup

instance (t : StoredPdSessionInfo) : Decidable (StoredPdDistinct t) :=
  decidable_of_iff _ (storedPdDistinct_iff t).symm

theorem pdSessions_mirror {capMap : List BadgeKcapInfo} {ck : Checkpointer}
    (hck : ck.capabilityMapInfos = capMap) {ts : List StoredPdSessionInfo}
    {cs : List PdSessionComponent} (hts : (ts.map (·.badge)).Nodup)
    (hcs : (cs.map (·.cap.localName)).Nodup) (htsub : ∀ t ∈ ts, StoredPdDistinct t)
    (hcsub : ∀ c ∈ cs, PdDistinct c)
    (hareas : ∀ t ∈ ts, ∀ c ∈ cs, t.badge = c.cap.localName → SameAreas t c) :
    Mirror (·.badge) (·.cap.localName) (Step (FreshPdSession capMap) (UpdatedPdSession capMap))
      ts (preparePdSessions ts cs ck).1 cs := by
  have hupdate : ∀ t c, StoredPdDistinct t → PdDistinct c → SameAreas t c → ∀ s : Checkpointer,
      s.capabilityMapInfos = capMap → UpdatedPdSession capMap t c (updatePdSession c t s).1 :=
    fun t c ht hc hsame s hs => updatePdSession_updated hs ht.nativeCaps ht.sources ht.contexts
      hc.nativeCaps hc.sources hc.contexts hc.areas hsame
  refine step_mirror pdSessionKind_keyed (stable_capabilityMapInfos capMap).pdSessions hck hts hcs
    (fun c _ s hs => ⟨s.newRecord.1, by rw [← hs]; rfl⟩)
    (fun t ht c hc hkey => hupdate t c (htsub t ht) (hcsub c hc) (hareas t ht c hc hkey))
    (fun c hc t ht => ?_)
  obtain ⟨n, rfl⟩ := ht
  exact hupdate _ c ⟨List.nodup_nil, List.nodup_nil, List.nodup_nil⟩ (hcsub c hc) rfl

/-! ## CPU, RM, LOG and Timer sessions -/

/-- What `_prepare_cpu_threads` takes over from the thread. -/
def refreshCpuThread (c : CpuThreadComponent) (t : StoredCpuThreadInfo) : StoredCpuThreadInfo :=
  { t with
    started := c.parentState.started
    paused := c.parentState.paused
    singleStep := c.parentState.singleStep
    affinity := c.parentState.affinity
    sighBadge := c.parentState.sigh.localName
    ts := c.parent.state }

/-- A record that has just been made. -/
def FreshCpuThread (capMap : List BadgeKcapInfo) :=
  Fresh (fun c : CpuThreadComponent => (StoredCpuThreadInfo.new · c ·)) (·.cap.localName) capMap

/-- A thread record after the phase. -/
def UpdatedCpuThread (base : StoredCpuThreadInfo) (c : CpuThreadComponent)
    (new : StoredCpuThreadInfo) : Prop := new = refreshCpuThread c base

/-- A CPU session record and its threads after the phase. -/
structure UpdatedCpuSession (capMap : List BadgeKcapInfo) (base : StoredCpuSessionInfo)
    (c : CpuSessionComponent) (new : StoredCpuSessionInfo) : Prop where
  session : new = { base with
    sighBadge := c.parentState.sigh.localName
    storedCpuThreadInfos := new.storedCpuThreadInfos }
  threads : Mirror (·.badge) (·.cap.localName) (Step (FreshCpuThread capMap) UpdatedCpuThread)
    base.storedCpuThreadInfos new.storedCpuThreadInfos c.parentState.cpuThreads

/-- A record that has just been made. -/
def FreshCpuSession (capMap : List BadgeKcapInfo) :=
  Fresh (fun c : CpuSessionComponent => (StoredCpuSessionInfo.new · c ·)) (·.cap.localName) capMap

theorem cpuThreads_mirror {capMap : List BadgeKcapInfo} {ck : Checkpointer}
    (hck : ck.capabilityMapInfos = capMap) {ts : List StoredCpuThreadInfo}
    {cs : List CpuThreadComponent} (hts : (ts.map (·.badge)).Nodup)
    (hcs : (cs.map (·.cap.localName)).Nodup) :
    Mirror (·.badge) (·.cap.localName) (Step (FreshCpuThread capMap) UpdatedCpuThread) ts
      (prepareCpuThreads ts cs ck).1 cs :=
  leaf_mirror (fun c => (StoredCpuThreadInfo.new · c ·)) (·.cap.localName) refreshCpuThread
    (fun _ _ _ => rfl) (fun _ _ => rfl) hck hts hcs

theorem cpuSessions_mirror {capMap : List BadgeKcapInfo} {ck : Checkpointer}
    (hck : ck.capabilityMapInfos = capMap) {ts : List StoredCpuSessionInfo}
    {cs : List CpuSessionComponent} (hts : (ts.map (·.badge)).Nodup)
    (hcs : (cs.map (·.cap.localName)).Nodup)
    (htsub : ∀ t ∈ ts, (t.storedCpuThreadInfos.map (·.badge)).Nodup)
    (hcsub : ∀ c ∈ cs, (c.parentState.cpuThreads.map (·.cap.localName)).Nodup) :
    Mirror (·.badge) (·.cap.localName) (Step (FreshCpuSession capMap) (UpdatedCpuSession capMap))
      ts (prepareCpuSessions ts cs ck).1 cs := by
  refine step_mirror cpuSessionKind_keyed (stable_capabilityMapInfos capMap).cpuSessions hck hts
    hcs (fun c _ s hs => ⟨s.newRecord.1, by rw [← hs]; rfl⟩)
    (fun t ht c hc _ s hs => ⟨rfl, cpuThreads_mirror hs (htsub t ht) (hcsub c hc)⟩)
    (fun c hc t ht s hs => ⟨rfl, cpuThreads_mirror hs ?_ (hcsub c hc)⟩)
  obtain ⟨n, rfl⟩ := ht
  exact List.nodup_nil

/-- An RM session record and its region maps after the phase. -/
structure UpdatedRmSession (capMap : List BadgeKcapInfo) (base : StoredRmSessionInfo)
    (c : RmSessionComponent) (new : StoredRmSessionInfo) : Prop where
  session : new = { base with storedRegionMapInfos := new.storedRegionMapInfos }
  regionMaps : Mirror (·.badge) (·.cap.localName) (Step (FreshRegionMap capMap) UpdatedRegionMap)
    base.storedRegionMapInfos new.storedRegionMapInfos c.parentState.regionMaps

/-- A record that has just been made. -/
def FreshRmSession (capMap : List BadgeKcapInfo) :=
  Fresh (fun c : RmSessionComponent => (StoredRmSessionInfo.new · c ·)) (·.cap.localName) capMap

theorem rmSessions_mirror {capMap : List BadgeKcapInfo} {ck : Checkpointer}
    (hck : ck.capabilityMapInfos = capMap) {ts : List StoredRmSessionInfo}
    {cs : List RmSessionComponent} (hts : (ts.map (·.badge)).Nodup)
    (hcs : (cs.map (·.cap.localName)).Nodup)
    (htsub : ∀ t ∈ ts, (t.storedRegionMapInfos.map (·.badge)).Nodup)
    (hcsub : ∀ c ∈ cs, (c.parentState.regionMaps.map (·.cap.localName)).Nodup) :
    Mirror (·.badge) (·.cap.localName) (Step (FreshRmSession capMap) (UpdatedRmSession capMap))
      ts (prepareRmSessions ts cs ck).1 cs := by
  refine step_mirror rmSessionKind_keyed (stable_capabilityMapInfos capMap).rmSessions hck hts
    hcs (fun c _ s hs => ⟨s.newRecord.1, by rw [← hs]; rfl⟩)
    (fun t ht c hc _ s hs => ⟨rfl, regionMaps_mirror hs (htsub t ht) (hcsub c hc)⟩)
    (fun c hc t ht s hs => ⟨rfl, regionMaps_mirror hs ?_ (hcsub c hc)⟩)
  obtain ⟨n, rfl⟩ := ht
  exact List.nodup_nil

/-- A record that has just been made. -/
def FreshLogSession (capMap : List BadgeKcapInfo) :=
  Fresh (fun c : LogSessionComponent => (StoredLogSessionInfo.new · c ·)) (·.cap.localName) capMap

theorem logSessions_mirror {capMap : List BadgeKcapInfo} {ck : Checkpointer}
    (hck : ck.capabilityMapInfos = capMap) {ts : List StoredLogSessionInfo}
    {cs : List LogSessionComponent} (hts : (ts.map (·.badge)).Nodup)
    (hcs : (cs.map (·.cap.localName)).Nodup) :
    Mirror (·.badge) (·.cap.localName) (Step (FreshLogSession capMap) Untouched) ts
      (prepareLogSessions ts cs ck).1 cs :=
  leaf_mirror (fun c => (StoredLogSessionInfo.new · c ·)) (·.cap.localName) (fun _ t => t)
    (fun _ _ _ => rfl) (fun _ _ => rfl) hck hts hcs

/-- What `_prepare_timer_sessions` takes over from the session. -/
def refreshTimerSession (c : TimerSessionComponent) (t : StoredTimerSessionInfo) :
    StoredTimerSessionInfo :=
  { t with
    sighBadge := c.parentState.sigh.localName
    timeout := c.parentState.timeout
    periodic := c.parentState.periodic }

/-- A record that has just been made. -/
def FreshTimerSession (capMap : List BadgeKcapInfo) :=
  Fresh (fun c : TimerSessionComponent => (StoredTimerSessionInfo.new · c ·)) (·.cap.localName)
    capMap

/-- A Timer session record after the phase. -/
def UpdatedTimerSession (base : StoredTimerSessionInfo) (c : TimerSessionComponent)
    (new : StoredTimerSessionInfo) : Prop := new = refreshTimerSession c base

theorem timerSessions_mirror {capMap : List BadgeKcapInfo} {ck : Checkpointer}
    (hck : ck.capabilityMapInfos = capMap) {ts : List StoredTimerSessionInfo}
    {cs : List TimerSessionComponent} (hts : (ts.map (·.badge)).Nodup)
    (hcs : (cs.map (·.cap.localName)).Nodup) :
    Mirror (·.badge) (·.cap.localName) (Step (FreshTimerSession capMap) UpdatedTimerSession) ts
      (prepareTimerSessions ts cs ck).1 cs :=
  leaf_mirror (fun c => (StoredTimerSessionInfo.new · c ·)) (·.cap.localName) refreshTimerSession
    (fun _ _ _ => rfl) (fun _ _ => rfl) hck hts hcs

/-! ## The phase as a whole -/

/-- Badges are distinct in every list of the child's objects. -/
@[mk_iff] structure DistinctObjects (s : CustomServices) : Prop where
  ram : (s.ramRoot.map (·.cap.localName)).Nodup
  ramDataspaces : ∀ c ∈ s.ramRoot, (c.parentState.ramDataspaces.map (·.cap.localName)).Nodup
  pd : (s.pdRoot.map (·.cap.localName)).Nodup
  pdLists : ∀ c ∈ s.pdRoot, PdDistinct c
  cpu : (s.cpuRoot.map (·.cap.localName)).Nodup
  threads : ∀ c ∈ s.cpuRoot, (c.parentState.cpuThreads.map (·.cap.localName)).Nodup
  rm : ((sessionInfos s.rmRoot).map (·.cap.localName)).Nodup
  regionMaps : ∀ c ∈ sessionInfos s.rmRoot, (c.parentState.regionMaps.map (·.cap.localName)).Nodup
  log : ((sessionInfos s.logRoot).map (·.cap.localName)).Nodup
  timer : ((sessionInfos s.timerRoot).map (·.cap.localName)).Nodup

instance (s : CustomServices) : Decidable (DistinctObjects s) :=
  decidable_of_iff _ (distinctObjects_iff s).symm

/-- Badges are distinct in every list of the checkpoint's records. -/
@[mk_iff] structure DistinctRecords (st : TargetState) : Prop where
  ram : (st.ramSessions.map (·.badge)).Nodup
  ramDataspaces : ∀ t ∈ st.ramSessions, (t.storedRamdsInfos.map (·.badge)).Nodup
  pd : (st.pdSessions.map (·.badge)).Nodup
  pdLists : ∀ t ∈ st.pdSessions, StoredPdDistinct t
  cpu : (st.cpuSessions.map (·.badge)).Nodup
  threads : ∀ t ∈ st.cpuSessions, (t.storedCpuThreadInfos.map (·.badge)).Nodup
  rm : (st.rmSessions.map (·.badge)).Nodup
  regionMaps : ∀ t ∈ st.rmSessions, (t.storedRegionMapInfos.map (·.badge)).Nodup
  log : (st.logSessions.map (·.badge)).Nodup
  timer : (st.timerSessions.map (·.badge)).Nodup

instance (st : TargetState) : Decidable (DistinctRecords st) :=
  decidable_of_iff _ (distinctRecords_iff st).symm

/-- What the phase takes over from one call to the next: a PD session
still has the region maps it was stored with, and the roots of stored
RM, LOG and Timer sessions are there. -/
@[mk_iff] structure Consistent (st : TargetState) (s : CustomServices) : Prop where
  areas : ∀ t ∈ st.pdSessions, ∀ c ∈ s.pdRoot, t.badge = c.cap.localName → SameAreas t c
  rm : s.rmRoot = none → st.rmSessions = []
  log : s.logRoot = none → st.logSessions = []
  timer : s.timerRoot = none → st.timerSessions = []

instance (st : TargetState) (s : CustomServices) : Decidable (Consistent st s) :=
  decidable_of_iff _ (consistent_iff st s).symm

/-- The records `new` are one prepare phase after the records `old`. -/
structure PrepareStep (capMap : List BadgeKcapInfo) (old new : TargetState) (s : CustomServices) :
    Prop where
  ram : Mirror (·.badge) (·.cap.localName)
    (Step (FreshRamSession capMap) (UpdatedRamSession capMap))
    old.ramSessions new.ramSessions s.ramRoot
  pd : Mirror (·.badge) (·.cap.localName)
    (Step (FreshPdSession capMap) (UpdatedPdSession capMap))
    old.pdSessions new.pdSessions s.pdRoot
  cpu : Mirror (·.badge) (·.cap.localName)
    (Step (FreshCpuSession capMap) (UpdatedCpuSession capMap))
    old.cpuSessions new.cpuSessions s.cpuRoot
  rm : Mirror (·.badge) (·.cap.localName)
    (Step (FreshRmSession capMap) (UpdatedRmSession capMap))
    old.rmSessions new.rmSessions (sessionInfos s.rmRoot)
  log : Mirror (·.badge) (·.cap.localName) (Step (FreshLogSession capMap) Untouched)
    old.logSessions new.logSessions (sessionInfos s.logRoot)
  timer : Mirror (·.badge) (·.cap.localName)
    (Step (FreshTimerSession capMap) UpdatedTimerSession)
    old.timerSessions new.timerSessions (sessionInfos s.timerRoot)

/-- A root that may be missing. -/
theorem prepareRoot_mirror {badge : τ → Nat} {childBadge : χ → Nat}
    {rel : Option τ → τ → χ → Prop}
    {prep : List τ → List χ → Checkpointer → List τ × Checkpointer} {ts : List τ}
    {root : Option (List χ)} {ck : Checkpointer} (hroot : root = none → ts = [])
    (h : ∀ cs, root = some cs → Mirror badge childBadge rel ts (prep ts cs ck).1 cs) :
    Mirror badge childBadge rel ts (prepareRoot prep ts root ck).1 (sessionInfos root) := by
  cases root with
  | none =>
      rw [hroot rfl]
      exact ⟨.refl _, List.nodup_nil, by simp [prepareRoot]⟩
  | some cs => exact h cs rfl

theorem prepareRoot_keeps {P : Checkpointer → Prop} {kind : Kind Checkpointer χ τ}
    (h : kind.Keeps P) (ts : List τ) (root : Option (List χ)) {ck : Checkpointer} (hck : P ck) :
    P (prepareRoot (reconcile kind) ts root ck).2 := by
  cases root with
  | none => exact hck
  | some cs => exact h.reconcile ts cs hck

/-- Whatever survives the primitive operations survives the phase. -/
theorem Stable.prepare {P : Checkpointer → Prop} (h : Stable P) (s : CustomServices)
    (st : TargetState) {ck : Checkpointer} (hck : P ck) : P (prepare s st ck).2 :=
  prepareRoot_keeps h.timerSessions _ _ <| prepareRoot_keeps h.logSessions _ _ <|
    prepareRoot_keeps h.rmSessions _ _ <| h.cpuSessions.reconcile _ _ <|
    h.pdSessions.reconcile _ _ <| h.ramSessions.reconcile _ _ hck

/-- **One prepare phase**, for records and objects with distinct
badges. -/
theorem prepare_step {capMap : List BadgeKcapInfo} (ck : Checkpointer)
    (hck : ck.capabilityMapInfos = capMap) {st : TargetState} {s : CustomServices}
    (hst : DistinctRecords st) (hs : DistinctObjects s) (hcons : Consistent st s) :
    PrepareStep capMap st (prepare s st ck).1 s := by
  have h := stable_capabilityMapInfos capMap
  have h1 := h.ramSessions.reconcile st.ramSessions s.ramRoot hck
  have h2 := h.pdSessions.reconcile st.pdSessions s.pdRoot h1
  have h3 := h.cpuSessions.reconcile st.cpuSessions s.cpuRoot h2
  have h4 := prepareRoot_keeps h.rmSessions st.rmSessions s.rmRoot h3
  have h5 := prepareRoot_keeps h.logSessions st.logSessions s.logRoot h4
  exact
    { ram := ramSessions_mirror ck hck hst.ram hs.ram hst.ramDataspaces hs.ramDataspaces
      pd := pdSessions_mirror h1 hst.pd hs.pd hst.pdLists hs.pdLists hcons.areas
      cpu := cpuSessions_mirror h2 hst.cpu hs.cpu hst.threads hs.threads
      rm := prepareRoot_mirror hcons.rm fun cs hroot =>
        rmSessions_mirror h3 hst.rm (by simpa [hroot, sessionInfos] using hs.rm) hst.regionMaps
          (by simpa [hroot, sessionInfos] using hs.regionMaps)
      log := prepareRoot_mirror hcons.log fun cs hroot =>
        logSessions_mirror h4 hst.log (by simpa [hroot, sessionInfos] using hs.log)
      timer := prepareRoot_mirror hcons.timer fun cs hroot =>
        timerSessions_mirror h5 hst.timer (by simpa [hroot, sessionInfos] using hs.timer) }

end Rtcr.Checkpointer
