import Rtcr.Checkpointer.Steps

/-!
# Checkpointer.Bookings — ledgers over the references to copy dataspaces

Stored RAM dataspaces and stored attached regions each refer to an
original and to its copy. An invariant of the prepare phase that weighs
these references (`Weighing`) only has to be checked for the few
operations on the copy dataspaces; the ledgers of all kinds of records
and the rule for the whole phase follow.
-/

namespace Rtcr.Checkpointer

open Reconcile

/-- A reference: the original's badge and the copy dataspace in the
record. -/
abbrev Ref := Nat × Cap

/-- A RAM dataspace record is one reference. -/
def ramDataspaceRefs (t : StoredRamDataspaceInfo) : Multiset Ref := {(t.badge, t.memoryContent)}

/-- So is the record of an attached region. -/
def attachedRegionRefs (t : StoredAttachedRegionInfo) : Multiset Ref :=
  {(t.attachedDsBadge, t.memoryContent)}

/-- Those of the dataspaces. -/
def ramSessionRefs (t : StoredRamSessionInfo) : Multiset Ref :=
  total ramDataspaceRefs t.storedRamdsInfos

/-- Those of the regions. -/
def regionMapRefs (t : StoredRegionMapInfo) : Multiset Ref :=
  total attachedRegionRefs t.storedAttachedRegionInfos

/-- Those of the three region maps. -/
def pdSessionRefs (t : StoredPdSessionInfo) : Multiset Ref := total regionMapRefs (storedAreas t)

/-- Those of the region maps. -/
def rmSessionRefs (t : StoredRmSessionInfo) : Multiset Ref :=
  total regionMapRefs t.storedRegionMapInfos

/-- An invariant that weighs references. `ram` and `attach` are what holds
of the child's RAM dataspaces and of its attached regions, `map` of the
badges of region-map dataspaces. -/
structure Weighing (I : Multiset Ref → Checkpointer → Prop) (ram : RamDataspaceInfo → Prop)
    (attach : AttachedRegionInfo → Prop) (map : Nat → Prop) : Prop where
  recording : ∀ m, Recording (I m)
  ram : ∀ m d ck, ram d → I m ck →
    I (m + {(d.cap.localName, (ck.useCopyDataspace false d.cap d.size).1)})
      (ck.useCopyDataspace false d.cap d.size).2
  attached : ∀ m info ck, attach info → I m ck →
    I (m + {(info.attachedDsCap.localName, (attachedCopy info ck).1)}) (attachedCopy info ck).2
  drop : ∀ m b v ck, I (m + {(b, v)}) ck → I m (ck.dropCopyDataspace b)
  regionMap : ∀ m b ck, map b → I m ck →
    I m { ck with regionMapDataspaces := b :: ck.regionMapDataspaces }

/-- A weighing for which badges are all that counts. `ram` and `attach`
are what holds of the badges of RAM dataspaces and of attached dataspaces,
`map` of those of region maps. -/
structure Booking (I : Multiset Ref → Checkpointer → Prop) (ram attach map : Nat → Prop) :
    Prop where
  recording : ∀ m, Recording (I m)
  ram : ∀ m cap size ck, ram cap.localName → I m ck →
    I (m + {(cap.localName, (ck.useCopyDataspace false cap size).1)})
      (ck.useCopyDataspace false cap size).2
  attached : ∀ m info ck, attach info.attachedDsCap.localName → I m ck →
    I (m + {(info.attachedDsCap.localName, (attachedCopy info ck).1)}) (attachedCopy info ck).2
  drop : ∀ m b v ck, I (m + {(b, v)}) ck → I m (ck.dropCopyDataspace b)
  regionMap : ∀ m b ck, map b → I m ck →
    I m { ck with regionMapDataspaces := b :: ck.regionMapDataspaces }

theorem Booking.weighing {I : Multiset Ref → Checkpointer → Prop} {ram attach map : Nat → Prop}
    (h : Booking I ram attach map) : Weighing I (fun d => ram d.cap.localName)
      (fun info => attach info.attachedDsCap.localName) map where
  recording := h.recording
  ram m d := h.ram m d.cap d.size
  attached := h.attached
  drop := h.drop
  regionMap := h.regionMap

/-! ## The embedded region maps -/

theorem storedAreas_nodup (t : StoredPdSessionInfo) : ((storedAreas t).map (·.addr)).Nodup := by
  obtain ⟨ha, hs, hl⟩ := t.embedded
  simp [storedAreas, ha, hs, hl, RecordAddr.area_inj]

/-- The embedded region maps after a temporary list that kept its
shape. -/
theorem storedAreas_after {t : StoredPdSessionInfo} {after : List StoredRegionMapInfo}
    (h : after.map (·.addr) = (storedAreas t).map (·.addr)) :
    (storedAreas t).map (areaAfter · after) = after := by
  have hnd := storedAreas_nodup t
  have hfind : ∀ u ∈ after, ∀ v : StoredRegionMapInfo, u.addr = v.addr → areaAfter v after = u := by
    intro u hu v hv
    unfold areaAfter
    have hafter : (after.map (·.addr)).Nodup := h ▸ hnd
    rw [← hv]
    rw [show (after.find? fun t => t.addr == u.addr) = some u from find?_key_of_mem hafter hu]
  obtain ⟨x, y, z, rfl⟩ : ∃ x y z, after = [x, y, z] :=
    List.length_eq_three.mp (by simpa [storedAreas] using congrArg List.length h)
  simp only [storedAreas, List.map_cons, List.map_nil, List.cons.injEq, and_true] at h ⊢
  exact ⟨hfind x (by simp) _ h.1, hfind y (by simp) _ h.2.1, hfind z (by simp) _ h.2.2⟩

theorem regionMapRefs_areaAfter_of_none {u : StoredRegionMapInfo}
    {after : List StoredRegionMapInfo} (h : (after.find? fun t => t.addr == u.addr) = none) :
    regionMapRefs (areaAfter u after) = 0 := by
  unfold areaAfter
  rw [h]
  rfl

/-- Whatever became of the temporary list, the embedded region maps have
no references that it does not have. -/
theorem exists_refs_areaAfter {us : List StoredRegionMapInfo} (hus : (us.map (·.addr)).Nodup)
    (after : List StoredRegionMapInfo) : ∃ rest, total regionMapRefs after =
      total regionMapRefs (us.map (areaAfter · after)) + rest := by
  induction us generalizing after with
  | nil => exact ⟨_, (zero_add _).symm⟩
  | cons u us ih =>
      rw [List.map_cons, List.nodup_cons] at hus
      cases hfind : after.find? fun t => t.addr == u.addr with
      | none =>
          obtain ⟨rest, hrest⟩ := ih hus.2 after
          refine ⟨rest, ?_⟩
          rw [List.map_cons, total_cons, regionMapRefs_areaAfter_of_none hfind, zero_add]
          exact hrest
      | some t =>
          obtain ⟨rest, hrest⟩ := ih hus.2 (after.eraseP fun t => t.addr == u.addr)
          -- the record found for `u` is none of the others'
          have hothers : us.map (areaAfter · (after.eraseP fun t => t.addr == u.addr)) =
              us.map (areaAfter · after) := by
            refine List.map_congr_left fun v hv => ?_
            have hne : v.addr ≠ u.addr := fun he => hus.1 (he ▸ List.mem_map_of_mem hv)
            have hsame := List.find?_eraseP_of_disjoint (p := fun t => t.addr == v.addr)
              (q := fun t => t.addr == u.addr) (fun t ht => by
                rw [beq_iff_eq.mp ht]
                simpa using hne) after
            unfold areaAfter
            rw [hsame]
          have hhead : areaAfter u after = t := by
            unfold areaAfter
            rw [hfind]
          have hperm := ((List.perm_cons_eraseP_of_find? hfind).map regionMapRefs).sum_eq
          refine ⟨rest, ?_⟩
          rw [List.map_cons, total_cons, hhead, add_assoc, ← hothers, ← hrest]
          exact hperm

/-- The temporary list keeps its shape. -/
theorem regionMaps_shape {t : StoredPdSessionInfo} {c : PdSessionComponent} (h : SameAreas t c)
    (s : Checkpointer) :
    (prepareRegionMaps (storedAreas t) (areas c) s).1.map (fun u => (u.addr, u.badge)) =
      (storedAreas t).map fun u => (u.addr, u.badge) :=
  regionMapKind_keyed.reconcile_map (fun _ _ _ => rfl) s
    (fun _ hd => h ▸ List.mem_map_of_mem hd)
    (fun _ hu => h ▸ List.mem_map_of_mem (f := fun v : StoredRegionMapInfo => v.badge) hu)

/-- The checkpointer when the region maps of a PD session have their
turn. -/
def afterPdLists (c : PdSessionComponent) (stored : StoredPdSessionInfo) (ck : Checkpointer) :
    Checkpointer :=
  let caps := prepareNativeCaps stored.storedNativeCapInfos c.parentState.nativeCaps ck
  let sources := prepareSignalSources stored.storedSourceInfos c.parentState.signalSources caps.2
  (prepareSignalContexts stored.storedContextInfos c.parentState.signalContexts sources.2).2

/-- The same at the destruction of its record. -/
def afterPdListsDestroyed (stored : StoredPdSessionInfo) (ck : Checkpointer) : Checkpointer :=
  let ck := destroyAll signalContextKind.destroy stored.storedContextInfos ck
  let ck := destroyAll signalSourceKind.destroy stored.storedSourceInfos ck
  destroyAll nativeCapKind.destroy stored.storedNativeCapInfos ck

theorem Recording.afterPdLists {P : Checkpointer → Prop} (hP : Recording P)
    (c : PdSessionComponent) (t : StoredPdSessionInfo) {s : Checkpointer} (hs : P s) :
    P (afterPdLists c t s) :=
  hP.signalContexts.reconcile _ _ (hP.signalSources.reconcile _ _
    (hP.nativeCaps.reconcile _ _ hs))

theorem Recording.afterPdListsDestroyed {P : Checkpointer → Prop} (hP : Recording P)
    (t : StoredPdSessionInfo) {s : Checkpointer} (hs : P s) : P (afterPdListsDestroyed t s) :=
  destroyAll_keeps hP.nativeCaps.destroy _ <| destroyAll_keeps hP.signalSources.destroy _ <|
    destroyAll_keeps hP.signalContexts.destroy _ hs

/-- The embedded region maps after the update are the temporary list. -/
theorem storedAreas_update {t : StoredPdSessionInfo} {c : PdSessionComponent} (h : SameAreas t c)
    (s : Checkpointer) : storedAreas (updatePdSession c t s).1 =
      (prepareRegionMaps (storedAreas t) (areas c) (afterPdLists c t s)).1 := by
  have hshape := congrArg (List.map Prod.fst) (regionMaps_shape h (afterPdLists c t s))
  simp only [List.map_map, Function.comp_def] at hshape
  exact storedAreas_after hshape

/-! ## The references of a target state -/

/-- All stored RAM dataspaces. -/
def ramDataspaceInfos (st : TargetState) : List StoredRamDataspaceInfo :=
  st.ramSessions.flatMap (·.storedRamdsInfos)

/-- All stored region maps, of PD areas and of RM sessions. -/
def regionMapInfos (st : TargetState) : List StoredRegionMapInfo :=
  st.pdSessions.flatMap storedAreas ++ st.rmSessions.flatMap (·.storedRegionMapInfos)

/-- All stored attached regions. -/
def attachedRegionInfos (st : TargetState) : List StoredAttachedRegionInfo :=
  (regionMapInfos st).flatMap (·.storedAttachedRegionInfos)

/-- All references in the target state. -/
def stateRefs (st : TargetState) : Multiset Ref :=
  total ramSessionRefs st.ramSessions + total pdSessionRefs st.pdSessions +
    total rmSessionRefs st.rmSessions

theorem stateRefs_eq (st : TargetState) : stateRefs st =
    total ramDataspaceRefs (ramDataspaceInfos st) +
      total attachedRegionRefs (attachedRegionInfos st) := by
  simp only [attachedRegionInfos, regionMapInfos, ramDataspaceInfos, total_flatMap, total_append,
    ← add_assoc]
  rfl

/-! ## The kinds -/

namespace Weighing

variable {I : Multiset Ref → Checkpointer → Prop} {ram : RamDataspaceInfo → Prop}
  {attach : AttachedRegionInfo → Prop} {map : Nat → Prop} (h : Weighing I ram attach map)

include h

theorem ramDataspaces {plain : Nat → Prop} {cs : List RamDataspaceInfo}
    (hcs : ∀ c ∈ cs, ram c ∧ plain c.cap.localName) :
    Ledger ramDataspaceKind ramDataspaceRefs I (fun t => plain t.badge) cs where
  create c hc m s hs := (h.recording _).newRecord _ (h.ram m c s (hcs c hc).1 hs)
  update _ _ _ _ _ _ _ hs := hs
  destroy _ _ _ hs := (h.recording _).destroyRecord _ _ (h.drop _ _ _ _ hs)
  stored_create _ _ _ := beq_self_eq_true _
  each_create c hc _ := (hcs c hc).2
  each_update _ _ _ _ _ ht := ht

theorem ramSessions {plain : Nat → Prop} {cs : List RamSessionComponent}
    (hcs : ∀ c ∈ cs, ∀ d ∈ c.parentState.ramDataspaces, ram d ∧ plain d.cap.localName) :
    Ledger ramSessionKind ramSessionRefs I (fun t => ∀ u ∈ t.storedRamdsInfos, plain u.badge)
      cs where
  create c _ m s hs := by
    change I (m + 0) _
    rw [add_zero]
    exact (h.recording _).newRecord _ hs
  update c hc t m s _ ht hs := (h.ramDataspaces (hcs c hc)).reconcile ht m hs
  destroy t m _ hs := by
    have hnil : ∀ c ∈ ([] : List RamDataspaceInfo), ram c ∧ plain c.cap.localName :=
      List.forall_mem_nil _
    exact (h.recording _).destroyRecord _ _
      (destroyAll_ledger (h.ramDataspaces hnil).destroy _ m hs)
  stored_create _ _ _ := beq_self_eq_true _
  each_create _ _ _ _ hu := by cases hu
  each_update c hc _ s _ ht := (h.ramDataspaces (hcs c hc)).each_reconcile ht s

theorem attachedRegions {cs : List AttachedRegionInfo} (hcs : ∀ c ∈ cs, attach c) :
    Ledger attachedRegionKind attachedRegionRefs I (fun _ => True) cs where
  create c hc m s hs := (h.recording _).newRecord _ (h.attached m c s (hcs c hc) hs)
  update _ _ _ _ _ _ _ hs := hs
  destroy _ _ _ hs := (h.recording _).destroyRecord _ _ (h.drop _ _ _ _ hs)
  stored_create c _ s := attachedRegionKind_stored_create c s
  each_create _ _ _ := trivial
  each_update _ _ _ _ _ _ := trivial

theorem destroyRegionMap (t : StoredRegionMapInfo) (m : Multiset Ref) (s : Checkpointer)
    (hs : I (m + regionMapRefs t) s) : I m (destroyStoredRegionMap t s) :=
  (h.recording _).destroyRecord _ _
    (destroyAll_ledger (h.attachedRegions (List.forall_mem_nil _)).destroy _ m hs)

omit h in
/-- What a region map must be like. -/
structure RegionMapOk (attach : AttachedRegionInfo → Prop) (map : Nat → Prop)
    (c : RegionMapComponent) : Prop where
  dataspace : map c.parentState.dsCap.localName
  attached : ∀ r ∈ c.parentState.attachedRegions, attach r

theorem regionMaps {cs : List RegionMapComponent} (hcs : ∀ c ∈ cs, RegionMapOk attach map c) :
    Ledger regionMapKind regionMapRefs I (fun _ => True) cs where
  create c _ m s hs := by
    change I (m + 0) _
    rw [add_zero]
    exact (h.recording _).newRecord _ hs
  update c hc t m s _ _ hs := h.regionMap _ _ _ (hcs c hc).dataspace
    ((h.attachedRegions (hcs c hc).attached).reconcile (fun _ _ => trivial) m hs)
  destroy := h.destroyRegionMap
  stored_create _ _ _ := beq_self_eq_true _
  each_create _ _ _ := trivial
  each_update _ _ _ _ _ _ := trivial

theorem rmSessions {cs : List RmSessionComponent}
    (hcs : ∀ c ∈ cs, ∀ d ∈ c.parentState.regionMaps, RegionMapOk attach map d) :
    Ledger rmSessionKind rmSessionRefs I (fun _ => True) cs where
  create c _ m s hs := by
    change I (m + 0) _
    rw [add_zero]
    exact (h.recording _).newRecord _ hs
  update c hc t m s _ _ hs := (h.regionMaps (hcs c hc)).reconcile (fun _ _ => trivial) m hs
  destroy t m _ hs := (h.recording _).destroyRecord _ _
    (destroyAll_ledger h.destroyRegionMap _ m hs)
  stored_create _ _ _ := beq_self_eq_true _
  each_create _ _ _ := trivial
  each_update _ _ _ _ _ _ := trivial

theorem rmRoot {root : Option (List RmSessionComponent)}
    (hroot : ∀ c ∈ sessionInfos root, ∀ d ∈ c.parentState.regionMaps, RegionMapOk attach map d)
    (m : Multiset Ref) {ts : List StoredRmSessionInfo} {ck : Checkpointer}
    (hck : I (m + total rmSessionRefs ts) ck) :
    I (m + total rmSessionRefs (prepareRoot prepareRmSessions ts root ck).1)
      (prepareRoot prepareRmSessions ts root ck).2 := by
  cases root with
  | none => exact hck
  | some cs => exact (h.rmSessions hroot).reconcile (fun _ _ => trivial) m hck

/-- A new PD session record has no references. -/
theorem createPdSession (c : PdSessionComponent) (m : Multiset Ref) (s : Checkpointer)
    (hs : I m s) : I (m + pdSessionRefs (createStoredPdSession c s).1)
      (createStoredPdSession c s).2 := by
  change I (m + (0 + (0 + (0 + 0)))) _
  simp only [add_zero]
  exact (h.recording _).newRecord _ hs

theorem destroyPdSession (t : StoredPdSessionInfo) (m : Multiset Ref) (s : Checkpointer)
    (hs : I (m + pdSessionRefs t) s) : I m (destroyStoredPdSession t s) := by
  have hlists := (h.recording _).afterPdListsDestroyed t hs
  have hrefs : m + pdSessionRefs t = m + regionMapRefs t.storedAddressSpace +
      regionMapRefs t.storedStackArea + regionMapRefs t.storedLinkerArea := by
    simp [pdSessionRefs, storedAreas, add_assoc]
  rw [hrefs] at hlists
  exact (h.recording _).destroyRecord _ _ <| h.destroyRegionMap _ _ _ <|
    h.destroyRegionMap _ _ _ <| h.destroyRegionMap _ _ _ hlists

/-- The references of the temporary list, after a PD session's turn. -/
theorem updatePdSession {c : PdSessionComponent}
    (hc : ∀ a ∈ areas c, RegionMapOk attach map a) (t : StoredPdSessionInfo) (m : Multiset Ref)
    (s : Checkpointer) (hs : I (m + pdSessionRefs t) s) :
    I (m + total regionMapRefs
        (prepareRegionMaps (storedAreas t) (areas c) (afterPdLists c t s)).1)
      (updatePdSession c t s).2 :=
  (h.regionMaps hc).reconcile (fun _ _ => trivial) m ((h.recording _).afterPdLists c t hs)

/-- An invariant that holds of fewer references, too, needs no agreement
about the region maps of a PD session. -/
theorem pdSessions_of_forget (hforget : ∀ m m' ck, I (m + m') ck → I m ck)
    {cs : List PdSessionComponent} (hcs : ∀ c ∈ cs, ∀ a ∈ areas c, RegionMapOk attach map a) :
    Ledger pdSessionKind pdSessionRefs I (fun _ => True) cs where
  create c _ := h.createPdSession c
  update c hc t m s _ _ hs := by
    have hmaps := h.updatePdSession (hcs c hc) t m s hs
    obtain ⟨rest, hrest⟩ := exists_refs_areaAfter (storedAreas_nodup t)
      (prepareRegionMaps (storedAreas t) (areas c) (afterPdLists c t s)).1
    rw [hrest, ← add_assoc] at hmaps
    exact hforget _ _ _ hmaps
  destroy := h.destroyPdSession
  stored_create _ _ _ := beq_self_eq_true _
  each_create _ _ _ := trivial
  each_update _ _ _ _ _ _ := trivial

end Weighing

/-! ## The phase as a whole -/

namespace Booking

/-- What a region map must be like. -/
structure RegionMapOk (attach map : Nat → Prop) (c : RegionMapComponent) : Prop where
  dataspace : map c.parentState.dsCap.localName
  attached : ∀ r ∈ c.parentState.attachedRegions, attach r.attachedDsCap.localName

theorem RegionMapOk.weighing {attach map : Nat → Prop} {c : RegionMapComponent}
    (h : RegionMapOk attach map c) :
    Weighing.RegionMapOk (fun info => attach info.attachedDsCap.localName) map c :=
  ⟨h.dataspace, h.attached⟩

/-- What the PD sessions of a run must be like: one badge, one set of
region maps. -/
structure PdSessionOk (attach map : Nat → Prop) (pds : PdSessionComponent → Prop)
    (c : PdSessionComponent) : Prop where
  listed : pds c
  areas : ∀ d, pds d → d.cap.localName = c.cap.localName →
    (areas d).map (·.cap.localName) = (areas c).map (·.cap.localName)
  regionMaps : ∀ a ∈ Checkpointer.areas c, RegionMapOk attach map a

/-- What the child's objects must be like. -/
structure ServicesOk (ram plain attach map : Nat → Prop) (pds : PdSessionComponent → Prop)
    (s : CustomServices) : Prop where
  ram : ∀ c ∈ s.ramRoot, ∀ d ∈ c.parentState.ramDataspaces,
    ram d.cap.localName ∧ plain d.cap.localName
  pd : ∀ c ∈ s.pdRoot, PdSessionOk attach map pds c
  rm : ∀ c ∈ sessionInfos s.rmRoot, ∀ d ∈ c.parentState.regionMaps, RegionMapOk attach map d

/-- What records made from such objects are like. -/
structure RecordsOk (plain : Nat → Prop) (pds : PdSessionComponent → Prop) (st : TargetState) :
    Prop where
  ram : ∀ t ∈ st.ramSessions, ∀ u ∈ t.storedRamdsInfos, plain u.badge
  pd : ∀ t ∈ st.pdSessions, ∀ d, pds d → t.badge = d.cap.localName → SameAreas t d

variable {I : Multiset Ref → Checkpointer → Prop} {ram attach map : Nat → Prop}
  (h : Booking I ram attach map)

include h

theorem pdSessions {pds : PdSessionComponent → Prop} {cs : List PdSessionComponent}
    (hcs : ∀ c ∈ cs, PdSessionOk attach map pds c) :
    Ledger pdSessionKind pdSessionRefs I
      (fun t => ∀ d, pds d → t.badge = d.cap.localName → SameAreas t d) cs where
  create c _ := h.weighing.createPdSession c
  update c hc t m s hkey ht hs := by
    have hsame := ht c (hcs c hc).listed (beq_iff_eq.mp hkey)
    change I (m + total regionMapRefs (storedAreas (updatePdSession c t s).1))
      (updatePdSession c t s).2
    rw [storedAreas_update hsame]
    exact h.weighing.updatePdSession (fun a ha => ((hcs c hc).regionMaps a ha).weighing) t m s hs
  destroy := h.weighing.destroyPdSession
  stored_create _ _ _ := beq_self_eq_true _
  each_create c hc s d hd hkey := ((hcs c hc).areas d hd hkey.symm).symm
  each_update c hc t s hkey ht d hd hbadge := by
    have hsame := ht c (hcs c hc).listed (beq_iff_eq.mp hkey)
    have hareas := storedAreas_update hsame s
    have hshape := congrArg (List.map Prod.snd) (regionMaps_shape hsame (afterPdLists c t s))
    simp only [List.map_map, Function.comp_def] at hshape
    exact (congrArg (List.map (·.badge)) hareas).trans (hshape.trans (ht d hd hbadge))

/-- **The prepare phase** keeps the invariant for the references of all
records. -/
theorem prepare {plain : Nat → Prop} {pds : PdSessionComponent → Prop} {s : CustomServices}
    (hs : ServicesOk ram plain attach map pds s) {st : TargetState} (hst : RecordsOk plain pds st)
    {ck : Checkpointer} (hck : I (stateRefs st) ck) :
    I (stateRefs (prepare s st ck).1) (prepare s st ck).2 ∧
      RecordsOk plain pds (prepare s st ck).1 := by
  have hram := h.weighing.ramSessions hs.ram
  have hpd := h.pdSessions hs.pd
  refine ⟨?_, hram.each_reconcile hst.ram _, hpd.each_reconcile hst.pd _⟩
  -- the weight of the records of the other kinds stays in front
  let ram := prepareRamSessions st.ramSessions s.ramRoot ck
  let pd := preparePdSessions st.pdSessions s.pdRoot ram.2
  let cpu := prepareCpuSessions st.cpuSessions s.cpuRoot pd.2
  let rm := prepareRoot prepareRmSessions st.rmSessions s.rmRoot cpu.2
  have h1 : I (total pdSessionRefs st.pdSessions + total rmSessionRefs st.rmSessions +
      total ramSessionRefs ram.1) ram.2 :=
    hram.reconcile hst.ram _ (by rwa [stateRefs, add_assoc, add_comm] at hck)
  have h2 : I (total rmSessionRefs st.rmSessions + total ramSessionRefs ram.1 +
      total pdSessionRefs pd.1) pd.2 :=
    hpd.reconcile hst.pd _ (by rwa [add_assoc, add_comm] at h1)
  have h3 : I (total ramSessionRefs ram.1 + total pdSessionRefs pd.1 +
      total rmSessionRefs st.rmSessions) cpu.2 := by
    rw [add_comm, ← add_assoc]
    exact (h.recording _).cpuSessions.reconcile _ _ h2
  have h4 : I (total ramSessionRefs ram.1 + total pdSessionRefs pd.1 +
      total rmSessionRefs rm.1) rm.2 := h.weighing.rmRoot (fun c hc d hd => (hs.rm c hc d hd).weighing) _ h3
  exact prepareRoot_keeps (h.recording _).timerSessions _ _ <|
    prepareRoot_keeps (h.recording _).logSessions _ _ h4

end Booking

end Rtcr.Checkpointer
