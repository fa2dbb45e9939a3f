import Rtcr.Checkpointer.History
import Rtcr.Checkpointer.RefCounts

/-!
# Checkpointer.Counts — reference counts over many calls

`copyDataspaces_exact`: after any calls of one checkpointer, over child
states in which badges are not recycled and attachments are live, the
copy dataspaces are exactly those of the records.
-/

namespace Rtcr

namespace Checkpointer

open Reconcile

/-! ## The references of a target state -/

theorem uses_stateRefs (st : TargetState) (b : Nat) : RefCount.uses (stateRefs st) b =
    (ramDataspaceInfos st).countP (·.badge == b) +
      (attachedRegionInfos st).countP (·.attachedDsBadge == b) := by
  rw [stateRefs_eq, RefCount.uses_add]
  congr 1
  · exact RefCount.uses_sum_map ..
  · exact RefCount.uses_sum_map ..

theorem mem_stateRefs_ram {st : TargetState} {t : StoredRamDataspaceInfo}
    (ht : t ∈ ramDataspaceInfos st) : (t.badge, t.memoryContent) ∈ stateRefs st := by
  rw [stateRefs_eq]
  exact Multiset.mem_add.mpr (.inl (RefCount.mem_sum_map _ _ ht))

theorem mem_stateRefs_attached {st : TargetState} {t : StoredAttachedRegionInfo}
    (ht : t ∈ attachedRegionInfos st) : (t.attachedDsBadge, t.memoryContent) ∈ stateRefs st := by
  rw [stateRefs_eq]
  exact Multiset.mem_add.mpr (.inr (RefCount.mem_sum_map _ _ ht))

/-! ## One prepare phase -/

section Phase

variable (plain own : Nat → Prop) (live : List Nat) (pds : PdSessionComponent → Prop)

/-- What the child's objects must be like. -/
structure PlainServices (s : CustomServices) : Prop where
  ram : ∀ c ∈ s.ramRoot, ∀ d ∈ c.parentState.ramDataspaces,
    plain d.cap.localName ∧ own d.cap.localName
  pd : ∀ c ∈ s.pdRoot, PlainPdSession plain own live pds c
  rm : ∀ c ∈ sessionInfos s.rmRoot, ∀ d ∈ c.parentState.regionMaps,
    PlainRegionMap plain own live d

/-- What records made from such objects are like. -/
structure PlainRecords (st : TargetState) : Prop where
  ram : ∀ t ∈ st.ramSessions, ∀ u ∈ t.storedRamdsInfos, plain u.badge
  pd : ∀ t ∈ st.pdSessions, ∀ d, pds d → t.badge = d.cap.localName → SameAreas t d

variable {plain own live pds}

theorem PlainServices.ok {s : CustomServices} (h : PlainServices plain own live pds s) :
    Booking.ServicesOk (fun b => plain b ∧ own b) plain (AttachedOk plain own live)
      (fun b => ¬plain b) pds s where
  ram c hc d hd := ⟨h.ram c hc d hd, (h.ram c hc d hd).1⟩
  pd c hc := (h.pd c hc).ok
  rm c hc d hd := (h.rm c hc d hd).ok

theorem prepare_counted {s : CustomServices}
    (hs : Booking.ServicesOk (fun b => plain b ∧ own b) plain (AttachedOk plain own live)
      (fun b => ¬plain b) pds s) {st : TargetState} (hst : PlainRecords plain pds st) {ck : Checkpointer}
    (hck : Counted plain own live (stateRefs st) ck) :
    Counted plain own live (stateRefs (prepare s st ck).1) (prepare s st ck).2 ∧
      PlainRecords plain pds (prepare s st ck).1 := by
  obtain ⟨hcounted, hrecords⟩ := counted_booking.prepare hs ⟨hst.ram, hst.pd⟩ hck
  exact ⟨hcounted, hrecords.ram, hrecords.pd⟩

end Phase

/-! ## One call -/

end Checkpointer

/-- The region maps of the child. -/
def TargetChild.regionMaps (child : TargetChild) : List RegionMapComponent :=
  child.services.pdRoot.flatMap Checkpointer.areas ++
    (sessionInfos child.services.rmRoot).flatMap (·.parentState.regionMaps)

/-- The badges of their dataspaces. -/
def TargetChild.regionMapDataspaces (child : TargetChild) : List Nat :=
  child.regionMaps.map (·.parentState.dsCap.localName)

namespace Checkpointer

theorem mem_createRegionMapDataspaces (child : TargetChild) (b : Nat) :
    b ∈ createRegionMapDataspaces child.services.pdRoot child.services.rmRoot ↔
      b ∈ child.regionMapDataspaces := by
  simp only [createRegionMapDataspaces, TargetChild.regionMapDataspaces, TargetChild.regionMaps,
    List.mem_reverse, List.map_append, List.map_flatMap, areas]

section Call

variable {plain own : Nat → Prop} {pds : PdSessionComponent → Prop}

theorem SameObjects.servicesOk {ram plain attach map : Nat → Prop} {s s' : CustomServices}
    (h : SameObjects s s') (hs : Booking.ServicesOk ram plain attach map pds s) :
    Booking.ServicesOk ram plain attach map pds s' where
  ram c' hc' d' hd' := by
    obtain ⟨c, hc, he⟩ := List.exists_of_map_eq h.ram hc'
    obtain ⟨d, hd, hde⟩ := List.exists_of_map_eq (RamSessionComponent.dataspaces_of_outline he) hd'
    rw [RamDataspaceInfo.cap_of_outline hde]
    exact hs.ram c hc d hd
  pd := h.pd ▸ hs.pd
  rm := h.rm ▸ hs.rm

variable (plain own pds) in
/-- What holds between two calls: the copy dataspaces are exact for the
records. -/
structure CountedState (ck : Checkpointer) (st : TargetState) : Prop where
  exact : RefCount.Exact copyTable plain (stateRefs st) ck.copyDataspaces
  own : ∀ r ∈ stateRefs st, own r.1
  records : PlainRecords plain pds st

variable {ck : Checkpointer} {st : TargetState} {child : TargetChild}

/-- The region-map dataspaces of the child are known from the start of a
call; the phase keeps the copy dataspaces exact. -/
theorem CountedState.prepared (h : CountedState plain own pds ck st)
    (hmaps : ∀ b ∈ child.regionMapDataspaces, ¬plain b)
    (hs : PlainServices plain own child.regionMapDataspaces pds child.services) :
    CountedState plain own pds (ck.prepared st child).2 (ck.prepared st child).1 := by
  have hsame := ck.prepareChild_sameObjects child
  have hknown : (ck.setUp (ck.prepareChild child) (child.capabilityMap ck.core)).regionMapDataspaces =
      createRegionMapDataspaces child.services.pdRoot child.services.rmRoot := by
    unfold setUp
    rw [hsame.pd, hsame.rm]
  have hck : Counted plain own child.regionMapDataspaces (stateRefs st)
      (ck.setUp (ck.prepareChild child) (child.capabilityMap ck.core)) := by
    refine ⟨h.exact, h.own, fun b hb => ?_, fun b hb => hmaps b ?_⟩
    · rw [hknown]
      exact (mem_createRegionMapDataspaces child b).mpr hb
    · rw [hknown] at hb
      exact (mem_createRegionMapDataspaces child b).mp hb
  have hst : PlainRecords plain pds { st with capIdxAllocAddr := child.capMapInfo } :=
    ⟨h.records.ram, h.records.pd⟩
  obtain ⟨hcounted, hrecords⟩ := prepare_counted (hsame.servicesOk hs.ok) hst hck
  exact ⟨hcounted.exact, hcounted.own, hrecords⟩

/-- **One call** keeps the copy dataspaces exact. -/
theorem CountedState.checkpoint (h : CountedState plain own pds ck st)
    (hmaps : ∀ b ∈ child.regionMapDataspaces, ¬plain b)
    (hs : PlainServices plain own child.regionMapDataspaces pds child.services) :
    CountedState plain own pds (ck.checkpoint st child).checkpointer
      (ck.checkpoint st child).state := by
  have hprep := h.prepared hmaps hs
  rcases checkpoint_cases ck st child with ⟨hstate, hck⟩ | ⟨hstate, _, _, _, hck⟩
  · rw [hstate, hck]
    exact ⟨h.exact, h.own, ⟨h.records.ram, h.records.pd⟩⟩
  · rw [hstate, hck]
    exact ⟨hprep.exact, hprep.own, hprep.records⟩

end Call

/-! ## Many calls -/

/-- At some call the badge is that of a region map's dataspace. -/
def EverRegionMap (calls : List Call) (b : Nat) : Prop :=
  ∃ call ∈ calls, b ∈ call.child.regionMapDataspaces

instance (calls : List Call) (b : Nat) : Decidable (EverRegionMap calls b) :=
  inferInstanceAs (Decidable (∃ call ∈ calls, b ∈ call.child.regionMapDataspaces))

/-- A badge denotes one object throughout the calls: not a RAM dataspace
here and a region map's dataspace there, nor two PD sessions with
different region maps. What an attachment names is there. -/
@[mk_iff] structure Unrecycled (calls : List Call) : Prop where
  ram : ∀ call ∈ calls, ∀ c ∈ call.child.services.ramRoot, ∀ d ∈ c.parentState.ramDataspaces,
    ¬EverRegionMap calls d.cap.localName
  pd : ∀ call ∈ calls, ∀ c ∈ call.child.services.pdRoot,
    ∀ call' ∈ calls, ∀ d ∈ call'.child.services.pdRoot, d.cap.localName = c.cap.localName →
      (areas d).map (·.cap.localName) = (areas c).map (·.cap.localName)
  live : ∀ call ∈ calls, ∀ a ∈ call.child.regionMaps, ∀ r ∈ a.parentState.attachedRegions,
    EverRegionMap calls r.attachedDsCap.localName →
      r.attachedDsCap.localName ∈ call.child.regionMapDataspaces

instance (calls : List Call) : Decidable (Unrecycled calls) :=
  decidable_of_iff _ (unrecycled_iff calls).symm

/-- One checkpointer after all these calls. -/
def History.after (core : Core) (calls : List Call) : History :=
  calls.foldl History.next (.start core)

/-- **The copy dataspaces are exact** for the records of a target state;
`maps` tells the region-map dataspaces. -/
structure CopyDataspacesExact (maps : Nat → Prop) (ck : Checkpointer) (st : TargetState) :
    Prop where
  nodup : (ck.copyDataspaces.map (·.badge)).Nodup
  refCount : ∀ info ∈ ck.copyDataspaces, info.refCount =
    (ramDataspaceInfos st).countP (·.badge == info.badge) +
      (attachedRegionInfos st).countP (·.attachedDsBadge == info.badge)
  used : ∀ info ∈ ck.copyDataspaces, 1 ≤ info.refCount
  ram : ∀ t ∈ ramDataspaceInfos st, ∃ info ∈ ck.copyDataspaces,
    info.badge = t.badge ∧ t.memoryContent = info.copyDsCap
  attached : ∀ t ∈ attachedRegionInfos st, ¬maps t.attachedDsBadge →
    ∃ info ∈ ck.copyDataspaces, info.badge = t.attachedDsBadge ∧ t.memoryContent = info.copyDsCap
  regionMaps : ∀ info ∈ ck.copyDataspaces, ¬maps info.badge

theorem CountedState.copyDataspacesExact {maps own : Nat → Prop} {pds : PdSessionComponent → Prop}
    {ck : Checkpointer} {st : TargetState} (h : CountedState (fun b => ¬maps b) own pds ck st) :
    CopyDataspacesExact maps ck st where
  nodup := h.exact.nodup
  refCount info hinfo := (h.exact.each info hinfo).2.1.trans (uses_stateRefs ..)
  used info hinfo := (h.exact.each info hinfo).2.2
  ram t ht := by
    obtain ⟨u, hu, htu⟩ := List.mem_flatMap.mp ht
    obtain ⟨info, hinfo, hb, hc⟩ := h.exact.entry _ (mem_stateRefs_ram ht) (h.records.ram u hu t htu)
    exact ⟨info, hinfo, hb, hc.symm⟩
  attached t ht hplain := by
    obtain ⟨info, hinfo, hb, hc⟩ := h.exact.entry _ (mem_stateRefs_attached ht) hplain
    exact ⟨info, hinfo, hb, hc.symm⟩
  regionMaps info hinfo := (h.exact.each info hinfo).1

theorem Unrecycled.plainServices {calls : List Call} (h : Unrecycled calls) {call : Call}
    (hcall : call ∈ calls) :
    PlainServices (fun b => ¬EverRegionMap calls b) (fun _ => True)
      call.child.regionMapDataspaces (fun c => ∃ call ∈ calls, c ∈ call.child.services.pdRoot)
      call.child.services := by
  have hmap : ∀ a ∈ call.child.regionMaps, PlainRegionMap (fun b => ¬EverRegionMap calls b)
      (fun _ => True) call.child.regionMapDataspaces a := fun a ha =>
    ⟨not_not.mpr ⟨call, hcall, List.mem_map_of_mem ha⟩,
      fun r hr => ⟨trivial, fun hplain => h.live call hcall a ha r hr (not_not.mp hplain)⟩⟩
  refine ⟨fun c hc d hd => ⟨h.ram call hcall c hc d hd, trivial⟩,
    fun c hc => ⟨⟨call, hcall, hc⟩, ?_, fun a ha => hmap a ?_⟩, fun c hc d hd => hmap d ?_⟩
  · rintro d ⟨call', hcall', hd⟩ hkey
    exact h.pd call hcall c hc call' hcall' d hd hkey
  · exact List.mem_append_left _ (List.mem_flatMap.mpr ⟨c, hc, ha⟩)
  · exact List.mem_append_right _ (List.mem_flatMap.mpr ⟨c, hc, hd⟩)

/-- No RAM dataspace has the badge of a region map's dataspace. -/
def Apart (child : TargetChild) : Prop :=
  ∀ c ∈ child.services.ramRoot, ∀ d ∈ c.parentState.ramDataspaces,
    d.cap.localName ∉ child.regionMapDataspaces

instance (child : TargetChild) : Decidable (Apart child) :=
  inferInstanceAs (Decidable (∀ c ∈ child.services.ramRoot, ∀ d ∈ c.parentState.ramDataspaces,
    d.cap.localName ∉ child.regionMapDataspaces))

/-- At a single call badges are not recycled. -/
theorem Apart.unrecycled {call : Call} (h : Apart call.child)
    (hs : DistinctObjects call.child.services) : Unrecycled [call] where
  ram c hc s hcs d hd := by
    obtain rfl := List.mem_singleton.mp hc
    simpa [EverRegionMap] using h s hcs d hd
  pd c hc x hx c' hc' y hy hkey := by
    obtain rfl := List.mem_singleton.mp hc
    obtain rfl := List.mem_singleton.mp hc'
    rw [List.inj_on_of_nodup_map hs.pd hy hx hkey]
  live c hc a ha r hr hever := by
    obtain rfl := List.mem_singleton.mp hc
    simpa [EverRegionMap] using hever

theorem countedState_empty {plain own : Nat → Prop} {pds : PdSessionComponent → Prop}
    (core : Core) : CountedState plain own pds (.new core) .empty where
  exact := RefCount.Exact.empty
  own r hr := by simp [stateRefs, TargetState.empty] at hr
  records := ⟨by simp [TargetState.empty], by simp [TargetState.empty]⟩

/-- **Reference counts are exact** after any calls over child states in
which badges are not recycled and attachments are live. -/
theorem copyDataspaces_exact (core : Core) (calls : List Call) (h : Unrecycled calls) :
    CopyDataspacesExact (EverRegionMap calls) (History.after core calls).checkpointer
      (History.after core calls).state := by
  let Good (s : History) := CountedState (fun b => ¬EverRegionMap calls b) (fun _ => True)
    (fun c => ∃ call ∈ calls, c ∈ call.child.services.pdRoot) s.checkpointer s.state
  have hrun : ∀ cs : List Call, (∀ call ∈ cs, call ∈ calls) → ∀ s, Good s →
      Good (cs.foldl History.next s) := by
    intro cs
    induction cs with
    | nil => exact fun _ _ hs => hs
    | cons call cs ih =>
        intro hsub s hs
        have hcall : call ∈ calls := hsub call (by simp)
        have hs' : CountedState (fun b => ¬EverRegionMap calls b) (fun _ => True)
            (fun c => ∃ call ∈ calls, c ∈ call.child.services.pdRoot)
            { s.checkpointer with core := call.core } s.state := ⟨hs.exact, hs.own, hs.records⟩
        exact ih (fun c hc => hsub c (by simp [hc])) _
          (hs'.checkpoint (fun b hb => not_not.mpr ⟨call, hcall, hb⟩) (h.plainServices hcall))
  exact (hrun calls (fun _ hc => hc) (.start core)
    (countedState_empty core)).copyDataspacesExact

/-- The small child with its stack area attached, too. -/
def stackCall : Call :=
  ⟨{ TargetChild.small with
      services :=
        { TargetChild.small.services with
          pdRoot := TargetChild.small.services.pdRoot.map fun c =>
            { c with
              addressSpace := c.addressSpace.setRegions
                ({ attachedDsCap := ⟨14⟩, size := 0x1000, offset := 0, relAddr := 0xb000
                   executable := false, bootstrapped := true } ::
                  c.addressSpace.parentState.attachedRegions) } } },
    .small⟩

theorem copyDataspaces_exact_stack :
    CopyDataspacesExact (EverRegionMap [firstCall, stackCall, upgradeCall])
      (History.after .small [firstCall, stackCall, upgradeCall]).checkpointer
      (History.after .small [firstCall, stackCall, upgradeCall]).state :=
  copyDataspaces_exact _ _ (by decide +kernel)

end Checkpointer

end Rtcr
