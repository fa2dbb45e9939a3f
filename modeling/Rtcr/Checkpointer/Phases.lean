import Rtcr.Checkpointer.Checkpoint
import Rtcr.Checkpointer.Steps

/-!
# Checkpointer.Phases — a call of `checkpoint` that returns

The effect of a returning call in terms of its phases, and what none of
them changes: seen from outside (`outline`) the RAM sessions of the child
stay as they are, only designated dataspaces are attached and detached.
-/

namespace Rtcr

open ByteStore Reconcile

/-! ## The outline of a RAM session -/

/-- The dataspace without what is inside a managed one. -/
def RamDataspaceInfo.outline (info : RamDataspaceInfo) : RamDataspaceInfo :=
  { info with mrmInfo := info.mrmInfo.map fun _ => ⟨Cap.invalid, [], []⟩ }

def RamSessionComponent.outline (s : RamSessionComponent) : RamSessionComponent :=
  s.setRamDataspaces (s.parentState.ramDataspaces.map RamDataspaceInfo.outline)

/-- The same sessions with the same dataspaces. -/
def SameOutline (r r' : List RamSessionComponent) : Prop :=
  r'.map RamSessionComponent.outline = r.map RamSessionComponent.outline

theorem RamDataspaceInfo.outline_map (f : ManagedRegionMapInfo → ManagedRegionMapInfo)
    (info : RamDataspaceInfo) :
    RamDataspaceInfo.outline { info with mrmInfo := info.mrmInfo.map f } = info.outline := by
  cases h : info.mrmInfo <;> simp [outline, h]

theorem RamSessionComponent.outline_modify (p : RamDataspaceInfo → Bool)
    (f : ManagedRegionMapInfo → ManagedRegionMapInfo) (s : RamSessionComponent) :
    (s.setRamDataspaces (List.modifyFirst p
      (fun info => { info with mrmInfo := info.mrmInfo.map f })
      s.parentState.ramDataspaces)).outline = s.outline := by
  unfold outline
  simp only [setRamDataspaces]
  rw [List.map_modifyFirst fun info _ => info.outline_map f]

theorem sameOutline_modifyManaged (ram : Cap) (badge : Nat)
    (f : ManagedRegionMapInfo → ManagedRegionMapInfo) (child : TargetChild) :
    SameOutline child.services.ramRoot (child.modifyManaged ram badge f).services.ramRoot := by
  unfold SameOutline TargetChild.modifyManaged TargetChild.mapRamSessions modifyCap
  rw [List.map_map]
  refine List.map_congr_left fun s _ => ?_
  simp only [Function.comp_apply]
  split
  · exact s.outline_modify _ f
  · rfl

theorem createCapMapInfos_outline (child : TargetChild) (core : Core) :
    SameOutline child.services.ramRoot (createCapMapInfos child core).2.services.ramRoot := by
  refine createCapMapInfos_keeps
    (P := fun c => SameOutline child.services.ramRoot c.services.ramRoot) core rfl ?_ ?_
  · exact fun badge => sameOutline_modifyManaged _ _ _ child
  · exact fun c badge badges h => (sameOutline_modifyManaged ..).trans h

/-- Everything but the RAM sessions is as before. -/
theorem createCapMapInfos_services (child : TargetChild) (core : Core) :
    (createCapMapInfos child core).2.services =
      { child.services with
        ramRoot := (createCapMapInfos child core).2.services.ramRoot } := by
  refine createCapMapInfos_keeps
    (P := fun c => c.services = { child.services with ramRoot := c.services.ramRoot }) core rfl
    (fun _ => rfl) ?_
  intro c badge badges h
  unfold TargetChild.modifyManaged TargetChild.mapRamSessions
  rw [h]

theorem createCapMapInfos_eq_ok {child : TargetChild} {core : Core}
    {capMap : List BadgeKcapInfo} (h : (createCapMapInfos child core).1 = .ok capMap) :
    capMap = child.capabilityMap core := by
  unfold createCapMapInfos at h
  split at h
  · cases h
  · dsimp only at h
    split at h
    · exact (Except.ok.inj h).symm
    · cases h

namespace Checkpointer

/-- The child when the records are prepared. -/
def prepareChild (ck : Checkpointer) (child : TargetChild) : TargetChild :=
  (createCapMapInfos child.pause ck.core).2

/-- The records and the checkpointer after the prepare phase. -/
def prepared (ck : Checkpointer) (st : TargetState) (child : TargetChild) :
    TargetState × Checkpointer :=
  prepare (ck.prepareChild child).services { st with capIdxAllocAddr := child.capMapInfo }
    (ck.setUp (ck.prepareChild child) (child.capabilityMap ck.core))

/-- The work list of the memory phase of a call. -/
def workList (ck : Checkpointer) (st : TargetState) (child : TargetChild) : List OrigCopyInfo :=
  (ck.prepared st child).2.memoryToCheckpoint (ck.prepareChild child)

/-- **A returning call**, phase by phase. -/
theorem checkpoint_returns {ck : Checkpointer} {st : TargetState} {child : TargetChild}
    (h : (ck.checkpoint st child).thrown = none) :
    (ck.checkpoint st child).state = (ck.prepared st child).1 ∧
    (ck.checkpoint st child).child =
      (ck.prepareChild child).mapRamSessions detachDesignatedDataspaces ∧
    (ck.checkpoint st child).checkpointer =
      { (ck.prepared st child).2 with
        core := { (ck.prepared st child).2.core with
          bytes := blitAll (pendingCopies (ck.workList st child))
            (ck.prepared st child).2.core.bytes }
        capabilityMapInfos := []
        regionMapDataspaces := [] } := by
  unfold checkpoint at h ⊢
  unfold workList prepared prepareChild
  dsimp only at h ⊢
  rcases hmap : createCapMapInfos child.pause ck.core with ⟨e | capMap, child'⟩
  · rw [hmap] at h
    cases h
  · have hcap : capMap = child.pause.capabilityMap ck.core :=
      createCapMapInfos_eq_ok (by rw [hmap])
    rw [hmap] at h
    subst hcap
    refine ⟨rfl, rfl, ?_⟩
    have hnone : (checkpointDataspaces _ _).1 = none := h
    have hcore := copyMemory_eq hnone
    simp only [takeSnapshot]
    rw [hnone]
    simp only [Option.isNone_none, if_true, destroyLists, checkpointDataspaces, hcore]
    rfl

/-- **Any call**: it has ended before the prepare phase or it has gone
through it; what follows changes nothing but core and the lists of the
call. -/
theorem checkpoint_cases (ck : Checkpointer) (st : TargetState) (child : TargetChild) :
    ((ck.checkpoint st child).state = { st with capIdxAllocAddr := child.capMapInfo } ∧
      (ck.checkpoint st child).checkpointer = ck) ∨
    ((ck.checkpoint st child).state = (ck.prepared st child).1 ∧
      ∃ core capMap maps, (ck.checkpoint st child).checkpointer =
        { (ck.prepared st child).2 with
          core := core, capabilityMapInfos := capMap, regionMapDataspaces := maps }) := by
  unfold checkpoint prepared prepareChild
  dsimp only
  rcases hmap : createCapMapInfos child.pause ck.core with ⟨e | capMap, child'⟩
  · exact .inl ⟨rfl, rfl⟩
  · have hcap : capMap = child.pause.capabilityMap ck.core :=
      createCapMapInfos_eq_ok (by rw [hmap])
    subst hcap
    refine .inr ⟨rfl, ?_⟩
    simp only [takeSnapshot]
    split
    · exact ⟨_, _, _, rfl⟩
    · exact ⟨_, _, _, rfl⟩

end Checkpointer

end Rtcr
