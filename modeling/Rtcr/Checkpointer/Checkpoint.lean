import Rtcr.Checkpointer.Prepare
import Rtcr.Intercept.CpuSession
import Rtcr.Intercept.RamSession

/-!
# Checkpointer.Checkpoint — `Checkpointer::checkpoint`

The phases in order: pause the child, read its capability map, prepare
the record lists, build the work list of memory copies, replace managed
dataspaces in it by their designated ones, detach those, copy.

The threads of the child that are not paused run between any two of
these phases; here the child only changes by what `checkpoint` does.
-/

namespace Rtcr

open ByteStore Reconcile

/-! ## The capability map -/

/-- Slots of a `Cap_index_allocator_tpl<Cap_index, 4096>`. -/
def capSlots : Nat := 4096

/-- `sizeof(Cap_index)`. -/
def capIndexSize : Nat := 8

/-- The two bytes at `badge_offset` of a slot; `array` is the address of
slot 0. -/
def slotBadge (byte : Nat → UInt8) (array slot : Nat) : Nat :=
  (byte (array + capIndexSize * slot + 6)).toNat +
    256 * (byte (array + capIndexSize * slot + 7)).toNat

/-- The scan over the array: a slot in use gives a badge with its kcap.
The newest element is at the head. -/
def readCapMap (byte : Nat → UInt8) (array : Nat) : List BadgeKcapInfo :=
  ((List.range capSlots).filterMap fun slot =>
    let badge := slotBadge byte array slot
    if badge ≠ 0 ∧ badge ≠ 0xffff then some ⟨slot * pageSize, badge⟩ else none).reverse

/-- `Attached_region_info::managed_dataspace`. -/
def AttachedRegionInfo.managedDataspace (info : AttachedRegionInfo)
    (rdsInfos : List RamDataspaceInfo) : Option ManagedRegionMapInfo :=
  (findByBadge (·.cap.localName) info.attachedDsCap.localName rdsInfos).bind (·.mrmInfo)

/-- Attach what is detached; core resolves the faults there. -/
def ManagedRegionMapInfo.attachAll (mrm : ManagedRegionMapInfo) : ManagedRegionMapInfo :=
  { mrm with ddInfos := mrm.ddInfos.map DesignatedDataspaceInfo.attach }.resumeFaulters

/-- The badges `_mark_attach_designated_dataspaces` notes. -/
def ManagedRegionMapInfo.marked (mrm : ManagedRegionMapInfo) : List Nat :=
  ((mrm.ddInfos.filter fun dd => !dd.attached).map (·.cap.localName)).reverse

/-- Detach the designated dataspaces whose badge is in the list. -/
def ManagedRegionMapInfo.detachBadges (badges : List Nat) (mrm : ManagedRegionMapInfo) :
    ManagedRegionMapInfo :=
  { mrm with
    ddInfos := mrm.ddInfos.map fun dd =>
      if badges.contains dd.cap.localName then dd.detach else dd }

/-- Apply `f` to the managed dataspace with this badge, if the RAM
session `ram` has it. -/
def TargetChild.modifyManaged (ram : Cap) (badge : Nat)
    (f : ManagedRegionMapInfo → ManagedRegionMapInfo) (child : TargetChild) : TargetChild :=
  child.mapRamSessions <| modifyCap (·.cap) ram fun s =>
    s.setRamDataspaces <| List.modifyFirst (fun info => info.cap.localName == badge)
      (fun info => { info with mrmInfo := info.mrmInfo.map f }) s.parentState.ramDataspaces

/-- `Target_child::ram().parent_state().ram_dataspaces`. -/
def TargetChild.ramDataspaces (child : TargetChild) : List RamDataspaceInfo :=
  match child.services.ramRoot.find? (·.cap == child.ram) with
  | some s => s.parentState.ramDataspaces
  | none => []

/-- `Target_child::pd()`. -/
def TargetChild.pdSession (child : TargetChild) : Option PdSessionComponent :=
  child.services.pdRoot.find? (·.cap == child.pd)

/-- All dataspaces of all RAM sessions. -/
def TargetChild.allRamDataspaces (child : TargetChild) : List RamDataspaceInfo :=
  child.services.ramRoot.flatMap (·.parentState.ramDataspaces)

/-- A byte of a dataspace. A managed one shows its designated
dataspaces; reading where one is detached faults, and the handler of the
session attaches it. -/
def TargetChild.dataspaceByte (child : TargetChild) (core : Core) (cap : Cap) (a : Nat) : UInt8 :=
  match (findByBadge (·.cap.localName) cap.localName child.allRamDataspaces).bind (·.mrmInfo) with
  | some mrm =>
      match mrm.ddInfos.find? (·.contains a) with
      | some dd => core.bytes dd.cap.localName (a - dd.relAddr)
      | none => 0
  | none => core.bytes cap.localName a

/-- `_mark_attach_designated_dataspaces`. -/
def markAttachDesignatedDataspaces (info : AttachedRegionInfo) (child : TargetChild) :
    List Nat × TargetChild :=
  match info.managedDataspace child.ramDataspaces with
  | some mrm =>
      (mrm.marked, child.modifyManaged child.ram info.attachedDsCap.localName (·.attachAll))
  | none => ([], child)

/-- `_detach_unmark_designated_dataspaces`. -/
def detachUnmarkDesignatedDataspaces (badges : List Nat) (info : AttachedRegionInfo)
    (child : TargetChild) : TargetChild :=
  child.modifyManaged child.ram info.attachedDsCap.localName (·.detachBadges badges)

/-- The attached region of the child that holds its `cap_idx_alloc`. -/
def TargetChild.capRegion (child : TargetChild) : Option AttachedRegionInfo :=
  child.pdSession.bind fun pd =>
    findAttachedByAddr child.capMapInfo pd.addressSpace.parentState.attachedRegions

/-- The badges and kcaps in the child's capability array. -/
def TargetChild.capabilityMap (child : TargetChild) (core : Core) : List BadgeKcapInfo :=
  match child.capRegion with
  | some info =>
      readCapMap (child.dataspaceByte core info.attachedDsCap)
        (info.offset + (child.capMapInfo - info.relAddr) + 8)
  | none => []

/-- `_create_cap_map_infos`, with the child as the call leaves it. What
is read does not depend on which designated dataspaces are attached. -/
def createCapMapInfos (child : TargetChild) (core : Core) :
    Except Err (List BadgeKcapInfo) × TargetChild :=
  match child.capRegion with
  | none => (.error (.exception "No dataspace found for cap_idx_alloc's datastructure"), child)
  | some info =>
      let marks := markAttachDesignatedDataspaces info child
      if attachable info.attachedDsCap then
        (.ok (child.capabilityMap core), detachUnmarkDesignatedDataspaces marks.1 info marks.2)
      else (.error (.exception "Region_map::Invalid_dataspace"), marks.2)

/-- What attaching and detaching designated dataspaces preserves, reading
the capability array preserves. -/
theorem createCapMapInfos_keeps {P : TargetChild → Prop} {child : TargetChild} (core : Core)
    (h : P child) (hattach : ∀ badge, P (child.modifyManaged child.ram badge (·.attachAll)))
    (hdetach : ∀ c badge badges, P c →
      P (c.modifyManaged c.ram badge (·.detachBadges badges))) :
    P (createCapMapInfos child core).2 := by
  have hmark : ∀ info, P (markAttachDesignatedDataspaces info child).2 := by
    intro info
    unfold markAttachDesignatedDataspaces
    split
    · exact hattach _
    · exact h
  unfold createCapMapInfos
  split
  · exact h
  · rename_i info _
    dsimp only
    split
    · exact hdetach _ _ _ (hmark info)
    · exact hmark info

/-! ## Memory -/

/-- `_create_memory_to_checkpoint`. -/
def createMemoryToCheckpoint (copyDataspaces : List OrigCopyCountInfo) : List OrigCopyInfo :=
  (copyDataspaces.map fun info =>
    { origDsCap := info.origDsCap, copyDsCap := info.copyDsCap, copyRelAddr := 0
      copySize := info.size, done := false }).reverse

/-- The replacement of one managed dataspace's work item, in
`_resolve_inc_checkpoint_dataspaces` of checkpointer and restorer. -/
def resolveManaged (cap : Cap) (mrm : ManagedRegionMapInfo) (memoryInfos : List OrigCopyInfo) :
    List OrigCopyInfo :=
  match memoryInfos.find? (·.origDsCap.localName == cap.localName) with
  | none => memoryInfos
  | some memoryInfo =>
      let rest := memoryInfos.eraseP (·.origDsCap.localName == cap.localName)
      -- the step to the next designated dataspace is there, but no loop
      match mrm.ddInfos with
      | dd :: _ =>
          if dd.attached then
            { origDsCap := dd.cap, copyDsCap := memoryInfo.copyDsCap, copyRelAddr := dd.relAddr
              copySize := dd.size, done := false } :: rest
          else rest
      | [] => rest

/-- `_resolve_inc_checkpoint_dataspaces`, the same in checkpointer and
restorer. -/
def resolveIncCheckpointDataspaces (ramSessions : List RamSessionComponent)
    (memoryInfos : List OrigCopyInfo) : List OrigCopyInfo :=
  (ramSessions.flatMap (·.parentState.ramDataspaces)).foldl
    (fun memoryInfos ramds =>
      match ramds.mrmInfo with
      | some mrm => resolveManaged ramds.cap mrm memoryInfos
      | none => memoryInfos)
    memoryInfos

/-- `_detach_designated_dataspaces`. -/
def detachDesignatedDataspaces (ramSessions : List RamSessionComponent) :
    List RamSessionComponent :=
  ramSessions.map <| RamSessionComponent.mapManaged fun mrm =>
    { mrm with ddInfos := mrm.ddInfos.map DesignatedDataspaceInfo.detach }

/-- `_checkpoint_dataspaces`. -/
def checkpointDataspaces (memoryInfos : List OrigCopyInfo) (core : Core) : Option Err × Core :=
  copyMemory memoryInfos core

/-! ## The call -/

/-- What a call of `checkpoint()` leaves behind. `observed` is the child
as it was when the register states were read and when the memory was
copied. -/
structure CheckpointResult where
  thrown : Option Err
  checkpointer : Checkpointer
  state : TargetState
  child : TargetChild
  observed : List TargetChild

namespace Checkpointer

/-- The work list of the memory phase. -/
def memoryToCheckpoint (ck : Checkpointer) (child : TargetChild) : List OrigCopyInfo :=
  resolveIncCheckpointDataspaces child.services.ramRoot (createMemoryToCheckpoint ck.copyDataspaces)

/-- The lists that are set up before the prepare phase. -/
def setUp (ck : Checkpointer) (child : TargetChild) (capMap : List BadgeKcapInfo) : Checkpointer :=
  { ck with
    capabilityMapInfos := capMap
    regionMapDataspaces := createRegionMapDataspaces child.services.pdRoot child.services.rmRoot }

/-- The lists of one call are destroyed at its end. -/
def destroyLists (ck : Checkpointer) : Checkpointer :=
  { ck with capabilityMapInfos := [], regionMapDataspaces := [] }

/-- `checkpoint()` from the capability map on. The call that would
resume the child is commented out. -/
def takeSnapshot (ck : Checkpointer) (state : TargetState) (child : TargetChild)
    (capMap : List BadgeKcapInfo) : CheckpointResult :=
  let prepared := prepare child.services state (ck.setUp child capMap)
  let stopped := child.mapRamSessions detachDesignatedDataspaces
  let memory := checkpointDataspaces (prepared.2.memoryToCheckpoint child) prepared.2.core
  let after : Checkpointer := { prepared.2 with core := memory.2 }
  { thrown := memory.1
    checkpointer := if memory.1.isNone then after.destroyLists else after
    state := prepared.1
    child := stopped
    observed := [child, stopped] }

/-- `checkpoint()`. -/
def checkpoint (ck : Checkpointer) (state : TargetState) (child : TargetChild) :
    CheckpointResult :=
  let state := { state with capIdxAllocAddr := child.capMapInfo }
  match createCapMapInfos child.pause ck.core with
  | (.error e, child) =>
      { thrown := some e, checkpointer := ck, state := state, child := child, observed := [] }
  | (.ok capMap, child) => ck.takeSnapshot state child capMap

end Checkpointer

end Rtcr
