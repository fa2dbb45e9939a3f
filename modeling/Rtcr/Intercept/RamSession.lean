import Rtcr.OnlineStorage

/-!
# RamSession — managed dataspaces and their page faults

With a granularity, `Ram_session_component::alloc` hands out a managed
dataspace: a region map tiled with designated dataspaces. A designated
dataspace that is detached makes the child's next access fault, and the
session's fault handler attaches it again.
-/

namespace Rtcr

/-! ## Designated dataspaces -/

namespace DesignatedDataspaceInfo

/-- `Designated_dataspace_info::attach`; an attached one only warns. -/
def attach (dd : DesignatedDataspaceInfo) : DesignatedDataspaceInfo :=
  if dd.attached then dd else { dd with mapped := true, attached := true }

/-- `Designated_dataspace_info::detach`; a detached one only warns. -/
def detach (dd : DesignatedDataspaceInfo) : DesignatedDataspaceInfo :=
  if dd.attached then { dd with mapped := false, attached := false } else dd

/-- The constructor, which attaches. -/
def new (cap : Cap) (relAddr size : Nat) : DesignatedDataspaceInfo :=
  attach { cap := cap, relAddr := relAddr, size := size, attached := false, mapped := false }

/-- The range test of `Designated_dataspace_info::find_by_addr`; the
upper end is included. -/
def covers (dd : DesignatedDataspaceInfo) (addr : Nat) : Bool :=
  decide (addr ≥ dd.relAddr) && decide (addr ≤ dd.relAddr + dd.size)

/-- The address lies in the dataspace. -/
def contains (dd : DesignatedDataspaceInfo) (addr : Nat) : Bool :=
  decide (dd.relAddr ≤ addr) && decide (addr < dd.relAddr + dd.size)

end DesignatedDataspaceInfo

/-! ## Page faults -/

namespace ManagedRegionMapInfo

/-- Core's side of an attachment: threads that wait for a page which is
there now go on. -/
def resumeFaulters (mrm : ManagedRegionMapInfo) : ManagedRegionMapInfo :=
  { mrm with
    faults := mrm.faults.filter fun addr =>
      !mrm.ddInfos.any fun dd => dd.mapped && dd.contains addr }

/-- The page of `addr` is there. -/
def present (mrm : ManagedRegionMapInfo) (addr : Nat) : Bool :=
  mrm.ddInfos.any fun dd => dd.mapped && dd.contains addr

/-- Attach the first designated dataspace whose range test succeeds. -/
def attachByAddr (addr : Nat) (mrm : ManagedRegionMapInfo) : ManagedRegionMapInfo :=
  { mrm with
    ddInfos := List.modifyFirst (·.covers addr) DesignatedDataspaceInfo.attach
      mrm.ddInfos }.resumeFaulters

end ManagedRegionMapInfo

/-- Ways a fault handler run can go wrong. -/
inductive FaultErr
  | nullPointer
  | endlessLoop
deriving DecidableEq, Repr

/-- `Fault_handler::_handle_fault` on the session's dataspace list: the
search of `_find_faulting_mrm_info` stops at the first region map that is
not `READY`; it never gets past an entry without a region map. -/
def handleFault : List RamDataspaceInfo → Except FaultErr (List RamDataspaceInfo)
  | [] => .error .nullPointer
  | info :: infos =>
      match info.mrmInfo with
      | none => .error .endlessLoop
      | some mrm =>
          match mrm.faults with
          | [] => (handleFault infos).map (info :: ·)
          | addr :: _ => .ok ({ info with mrmInfo := some (mrm.attachByAddr addr) } :: infos)

/-! ## Allocation -/

namespace RamSessionComponent

def setRamDataspaces (infos : List RamDataspaceInfo) (s : RamSessionComponent) :
    RamSessionComponent :=
  { s with parentState := { s.parentState with ramDataspaces := infos } }

/-- `_parent_ram.alloc`: `none` stands for `Quota_exceeded`. -/
def parentAlloc (size : Nat) (s : RamSessionComponent) (core : Core) :
    Option (Cap × RamSessionComponent × Core) :=
  if s.parentRam.quota < alignAddr size then none
  else
    some (core.newDataspace.1,
      { s with
        parentRam :=
          { s.parentRam with
            quota := s.parentRam.quota - alignAddr size
            dataspaces := (core.newDataspace.1, size) :: s.parentRam.dataspaces } },
      core.newDataspace.2)

/-- `_parent_ram.free`. -/
def parentFree (cap : Cap) (s : RamSessionComponent) : RamSessionComponent :=
  match s.parentRam.dataspaces.find? (·.1 == cap) with
  | some ds =>
      { s with
        parentRam :=
          { s.parentRam with
            quota := s.parentRam.quota + alignAddr ds.2
            dataspaces := s.parentRam.dataspaces.erase ds } }
  | none =>
      { s with
        parentRam := { s.parentRam with wildFrees := cap :: s.parentRam.wildFrees } }

/-- `new (_md_alloc)`. -/
def newMd (r : MdRecord) (s : RamSessionComponent) : RamSessionComponent :=
  { s with mdAlloc := r :: s.mdAlloc }

/-- `Genode::destroy(_md_alloc, ...)`. -/
def destroyMd (r : MdRecord) (s : RamSessionComponent) : RamSessionComponent :=
  { s with mdAlloc := s.mdAlloc.erase r }

/-- Address and size of the designated dataspaces, in the order `alloc`
creates them: whole ones of `dsSize`, then the page-rounded rest. -/
def designatedRanges (dsSize size : Nat) : List (Nat × Nat) :=
  let num := size / dsSize
  let remaining := alignAddr (size % dsSize)
  (List.range num).map (fun i => (dsSize * i, dsSize)) ++
    if remaining ≠ 0 then [(num * dsSize, remaining)] else []

/-- Size of the region map `alloc` creates. -/
def regionMapSize (dsSize size : Nat) : Nat :=
  size / dsSize * dsSize + alignAddr (size % dsSize)

/-- The allocation loop of `alloc`: one designated dataspace for every
range, each inserted at the head. `false`: the quota did not suffice. -/
def allocDesignated : List (Nat × Nat) → ManagedRegionMapInfo → RamSessionComponent → Core →
    Bool × ManagedRegionMapInfo × RamSessionComponent × Core
  | [], mrm, s, core => (true, mrm, s, core)
  | (relAddr, size) :: ranges, mrm, s, core =>
      match s.parentAlloc size core with
      | none => (false, mrm, s, core)
      | some (cap, s, core) =>
          allocDesignated ranges
            { mrm with ddInfos := .new cap relAddr size :: mrm.ddInfos }
            (s.newMd (.designatedDataspaceInfo cap)) core

/-- `Ram_session_component::alloc` with a granularity: the region map,
the records, the fault handler, then the designated dataspaces. Where
one of these cannot be allocated the call returns an invalid capability
and leaves the rest behind. -/
def allocManaged (size : Nat) (cacheAttr : CacheAttribute) (bootstrapPhase : Bool)
    (s : RamSessionComponent) (core : Core) : Cap × RamSessionComponent × Core :=
  let dsSize := pageSize * s.granularity
  let rmCap := core.newCap.1
  let dsCap := core.newCap.2.newCap.1
  let core := core.newCap.2.newCap.2
  let info : RamDataspaceInfo :=
    { cap := dsCap, size := size, cached := cacheAttr, bootstrapped := bootstrapPhase
      timestamp := core.ramDataspaceCount, mrmInfo := none }
  let s := { s with
    parentRm := (rmCap, regionMapSize dsSize size) :: s.parentRm
    receiver := rmCap :: s.receiver }
  let s := (s.newMd (.managedRegionMapInfo rmCap)).newMd (.ramDataspaceInfo dsCap)
  let core := { core with ramDataspaceCount := core.ramDataspaceCount + 1 }
  match allocDesignated (designatedRanges dsSize size) ⟨rmCap, [], []⟩ s core with
  | (false, _, s, core) => (Cap.invalid, s, core)
  | (true, mrm, s, core) =>
      (dsCap,
        s.setRamDataspaces ({ info with mrmInfo := some mrm } :: s.parentState.ramDataspaces),
        core)

/-- `Ram_session_component::alloc`. Without a granularity a failing
parent allocation is passed on to the caller. -/
def alloc (size : Nat) (cacheAttr : CacheAttribute) (bootstrapPhase : Bool)
    (s : RamSessionComponent) (core : Core) : Option (Cap × RamSessionComponent × Core) :=
  if s.granularity > 0 then some (s.allocManaged size cacheAttr bootstrapPhase core)
  else
    match s.parentAlloc size core with
    | none => none
    | some (cap, s, core) =>
        let info : RamDataspaceInfo :=
          { cap := cap, size := size, cached := cacheAttr, bootstrapped := bootstrapPhase
            timestamp := core.ramDataspaceCount, mrmInfo := none }
        some (cap,
          (s.newMd (.ramDataspaceInfo cap)).setRamDataspaces
            (info :: s.parentState.ramDataspaces),
          { core with ramDataspaceCount := core.ramDataspaceCount + 1 })

/-- The loop of `_destroy_ramds_info` over the designated dataspaces. -/
def destroyDesignated (dds : List DesignatedDataspaceInfo) (s : RamSessionComponent) :
    RamSessionComponent :=
  dds.foldl (fun s dd => (s.destroyMd (.designatedDataspaceInfo dd.cap)).parentFree dd.cap) s

/-- The part of `_destroy_ramds_info` for a managed dataspace. -/
def destroyManaged (mrm : ManagedRegionMapInfo) (s : RamSessionComponent) :
    RamSessionComponent :=
  let s := { s with receiver := s.receiver.erase mrm.regionMapCap }
  (s.destroyDesignated mrm.ddInfos).destroyMd (.managedRegionMapInfo mrm.regionMapCap)

/-- `_destroy_ramds_info`, for the entry `free` has found. -/
def destroyRamdsInfo (info : RamDataspaceInfo) (s : RamSessionComponent) :
    RamSessionComponent :=
  let s := s.setRamDataspaces
    (s.parentState.ramDataspaces.eraseP fun r => r.cap.localName == info.cap.localName)
  let s := match info.mrmInfo with
    | some mrm => s.destroyManaged mrm
    | none => s
  (s.destroyMd (.ramDataspaceInfo info.cap)).parentFree info.cap

/-- `Ram_session_component::free`. -/
def free (dsCap : Cap) (s : RamSessionComponent) : RamSessionComponent :=
  match findByBadge (·.cap.localName) dsCap.localName s.parentState.ramDataspaces with
  | some info => s.destroyRamdsInfo info
  | none => s

/-- Apply `f` to every managed dataspace of the session. -/
def mapManaged (f : ManagedRegionMapInfo → ManagedRegionMapInfo) (s : RamSessionComponent) :
    RamSessionComponent :=
  s.setRamDataspaces
    (s.parentState.ramDataspaces.map fun info => { info with mrmInfo := info.mrmInfo.map f })

end RamSessionComponent

/-- Apply `f` to the list of RAM sessions. -/
def TargetChild.mapRamSessions (f : List RamSessionComponent → List RamSessionComponent)
    (child : TargetChild) : TargetChild :=
  { child with services := { child.services with ramRoot := f child.services.ramRoot } }

end Rtcr
