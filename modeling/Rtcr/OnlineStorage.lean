import Rtcr.Genode

/-!
# OnlineStorage — the monitoring records of the intercepted sessions

One structure for every record of `online_storage/` and for the session
and RPC objects of `intercept/` that carry them. `Genode::List` inserts
at the head, so the newest element of a list comes first.
-/

namespace Rtcr

/-! ## RAM session -/

/-- A designated dataspace occupies `[relAddr, relAddr + size)` of its
managed dataspace. -/
structure DesignatedDataspaceInfo where
  cap : Cap
  relAddr : Nat
  size : Nat
  attached : Bool
  /-- core's side of `attached`: the dataspace is in the region map -/
  mapped : Bool
deriving DecidableEq, Repr

/-- A managed dataspace: a region map with its designated dataspaces.
`faults` is core's side, the addresses of the page faults the region map
is blocked on (none: its state is `READY`). -/
structure ManagedRegionMapInfo where
  regionMapCap : Cap
  ddInfos : List DesignatedDataspaceInfo
  faults : List Nat
deriving DecidableEq, Repr

/-- `Ram_dataspace_info`. -/
structure RamDataspaceInfo where
  cap : Cap
  size : Nat
  cached : CacheAttribute
  bootstrapped : Bool
  /-- `Simple_counter` id -/
  timestamp : Nat
  /-- `none`: an ordinary RAM dataspace -/
  mrmInfo : Option ManagedRegionMapInfo
deriving DecidableEq, Repr

/-- `Ram_session_info`. -/
structure RamSessionInfo where
  creationArgs : String
  upgradeArgs : String
  bootstrapped : Bool
  refAccountCap : Cap
  ramDataspaces : List RamDataspaceInfo
deriving DecidableEq, Repr

/-- The session's connection to core's RAM service. -/
structure ParentRam where
  /-- bytes left -/
  quota : Nat
  /-- allocated and not yet freed, with the sizes -/
  dataspaces : List (Cap × Nat)
  /-- calls of `free` with a capability that is not among `dataspaces` -/
  wildFrees : List Cap
deriving DecidableEq, Repr

/-- Blocks the session takes from `_md_alloc`, named by the capability
they are about. -/
inductive MdRecord
  | ramDataspaceInfo (cap : Cap)
  | managedRegionMapInfo (regionMapCap : Cap)
  | designatedDataspaceInfo (cap : Cap)
deriving DecidableEq, Repr

/-- `Ram_session_component`. -/
structure RamSessionComponent where
  cap : Cap
  parentState : RamSessionInfo
  /-- pages of a designated dataspace; 0: no managed dataspaces -/
  granularity : Nat
  parentRam : ParentRam
  /-- region maps created at the parent's RM session, with their sizes -/
  parentRm : List (Cap × Nat)
  /-- region maps whose fault context `_receiver` manages -/
  receiver : List Cap
  mdAlloc : List MdRecord
  /-- what the session at the parent has been upgraded by -/
  parentUpgraded : Nat
deriving DecidableEq, Repr

/-! ## Region maps, RM session -/

/-- `Attached_region_info`. -/
structure AttachedRegionInfo where
  attachedDsCap : Cap
  size : Nat
  offset : Nat
  relAddr : Nat
  executable : Bool
  bootstrapped : Bool
deriving DecidableEq, Repr

/-- The range test of `Attached_region_info::find_by_addr`; the upper
end is included. -/
def AttachedRegionInfo.covers (info : AttachedRegionInfo) (addr : Nat) : Bool :=
  decide (addr ≥ info.relAddr) && decide (addr ≤ info.relAddr + info.size)

/-- A region covers its own start. -/
@[simp] theorem AttachedRegionInfo.covers_self (info : AttachedRegionInfo) :
    info.covers info.relAddr = true := by simp [covers]

/-- `Attached_region_info::find_by_addr`, from the head of the list. -/
def findAttachedByAddr (addr : Nat) (infos : List AttachedRegionInfo) :
    Option AttachedRegionInfo :=
  infos.find? fun info => info.covers addr

/-- `Region_map_info`. -/
structure RegionMapInfo where
  size : Nat
  dsCap : Cap
  sigh : Cap
  bootstrapped : Bool
  attachedRegions : List AttachedRegionInfo
deriving DecidableEq, Repr

/-- `Region_map_component`. -/
structure RegionMapComponent where
  cap : Cap
  parentState : RegionMapInfo
deriving DecidableEq, Repr

/-- `Rm_session_info`. -/
structure RmSessionInfo where
  creationArgs : String
  upgradeArgs : String
  bootstrapped : Bool
  regionMaps : List RegionMapComponent
deriving DecidableEq, Repr

/-- `Rm_session_component`. -/
structure RmSessionComponent where
  cap : Cap
  parentState : RmSessionInfo
  /-- what the session at the parent has been upgraded by -/
  parentUpgraded : Nat
deriving DecidableEq, Repr

/-! ## PD session -/

/-- `Native_capability_info`: a capability that an entrypoint of the child
has been given. -/
structure NativeCapabilityInfo where
  cap : Cap
  epCap : Cap
  bootstrapped : Bool
  timestamp : Nat
deriving DecidableEq, Repr

/-- `Signal_source_info`. -/
structure SignalSourceInfo where
  cap : Cap
  bootstrapped : Bool
deriving DecidableEq, Repr

/-- `Signal_context_info`. -/
structure SignalContextInfo where
  cap : Cap
  ssCap : Cap
  imprint : Nat
  bootstrapped : Bool
deriving DecidableEq, Repr

/-- `Pd_session_info`. -/
structure PdSessionInfo where
  creationArgs : String
  upgradeArgs : String
  bootstrapped : Bool
  signalSources : List SignalSourceInfo
  signalContexts : List SignalContextInfo
  nativeCaps : List NativeCapabilityInfo
deriving DecidableEq, Repr

/-- `Pd_session_component`, with its three region maps. -/
structure PdSessionComponent where
  cap : Cap
  parentState : PdSessionInfo
  addressSpace : RegionMapComponent
  stackArea : RegionMapComponent
  linkerArea : RegionMapComponent
  /-- what the session at the parent has been upgraded by -/
  parentUpgraded : Nat
deriving DecidableEq, Repr

/-! ## CPU session -/

/-- The register file of a thread; it is only copied as a whole. -/
structure ThreadState where
  registers : List Nat
deriving DecidableEq, Repr

/-- `Affinity::Location`. -/
structure Location where
  xpos : Int
  ypos : Int
  width : Nat
  height : Nat
deriving DecidableEq, Repr

/-- `Cpu_thread_info`. -/
structure CpuThreadInfo where
  pdSessionCap : Cap
  name : String
  weight : Nat
  utcb : Nat
  bootstrapped : Bool
  started : Bool
  paused : Bool
  singleStep : Bool
  affinity : Location
  sigh : Cap
deriving DecidableEq, Repr

/-- The thread behind `parent_cap()`, at core. -/
structure ParentThread where
  paused : Bool
  state : ThreadState
deriving DecidableEq, Repr

/-- `Cpu_thread_component`. -/
structure CpuThreadComponent where
  cap : Cap
  parentState : CpuThreadInfo
  parent : ParentThread
deriving DecidableEq, Repr

/-- `Cpu_session_info`. -/
structure CpuSessionInfo where
  creationArgs : String
  upgradeArgs : String
  bootstrapped : Bool
  sigh : Cap
  cpuThreads : List CpuThreadComponent
deriving DecidableEq, Repr

/-- `Cpu_session_component`. -/
structure CpuSessionComponent where
  cap : Cap
  parentState : CpuSessionInfo
  /-- what the session at the parent has been upgraded by -/
  parentUpgraded : Nat
deriving DecidableEq, Repr

/-! ## LOG and Timer session -/

/-- `Log_session_info`. -/
structure LogSessionInfo where
  creationArgs : String
  upgradeArgs : String
  bootstrapped : Bool
deriving DecidableEq, Repr

/-- `Log_session_component`. -/
structure LogSessionComponent where
  cap : Cap
  parentState : LogSessionInfo
  /-- what the session at the parent has been upgraded by -/
  parentUpgraded : Nat
deriving DecidableEq, Repr

/-- `Timer_session_info`. -/
structure TimerSessionInfo where
  creationArgs : String
  upgradeArgs : String
  bootstrapped : Bool
  sigh : Cap
  timeout : Nat
  periodic : Bool
deriving DecidableEq, Repr

/-- `Timer_session_component`. -/
structure TimerSessionComponent where
  cap : Cap
  parentState : TimerSessionInfo
  /-- what the session at the parent has been upgraded by -/
  parentUpgraded : Nat
deriving DecidableEq, Repr

/-! ## The child -/

/-- `Target_child::Custom_services`. The first three roots always exist,
the others from the first session request on. -/
structure CustomServices where
  pdRoot : List PdSessionComponent
  cpuRoot : List CpuSessionComponent
  ramRoot : List RamSessionComponent
  rmRoot : Option (List RmSessionComponent)
  logRoot : Option (List LogSessionComponent)
  timerRoot : Option (List TimerSessionComponent)
deriving DecidableEq, Repr

/-- `pd`, `cpu` and `ram` name the session objects that `_resources`
refers to; `capMapInfo` is what the native PD answers to
`cap_map_info()`, the address of the child's `cap_idx_alloc`. -/
structure TargetChild where
  services : CustomServices
  pd : Cap
  cpu : Cap
  ram : Cap
  granularity : Nat
  capMapInfo : Nat
  inBootstrap : Bool
deriving DecidableEq, Repr

/-- The list of a root that may be missing. -/
def sessionInfos {α : Type} (root : Option (List α)) : List α := root.getD []

/-! ## A small child

One session of each bootstrapped kind, one RAM dataspace, attached at
page 1 of the address space, with the capability array in it. -/

/-- A region map component without regions; its dataspace has the next
badge. -/
def RegionMapComponent.bare (badge : Nat) : RegionMapComponent where
  cap := ⟨badge⟩
  parentState :=
    { size := 0x10000, dsCap := ⟨badge + 1⟩, sigh := Cap.invalid, bootstrapped := true
      attachedRegions := [] }

/-- The region map with other attached regions. -/
def RegionMapComponent.setRegions (regions : List AttachedRegionInfo) (rm : RegionMapComponent) :
    RegionMapComponent :=
  { rm with parentState := { rm.parentState with attachedRegions := regions } }

/-- A thread that runs. -/
def CpuThreadComponent.running (badge : Nat) (name : String) (bootstrapped : Bool) :
    CpuThreadComponent where
  cap := ⟨badge⟩
  parentState :=
    { pdSessionCap := ⟨10⟩, name := name, weight := 10, utcb := 0, bootstrapped := bootstrapped
      started := true, paused := false, singleStep := false, affinity := ⟨0, 0, 1, 1⟩
      sigh := Cap.invalid }
  parent := { paused := false, state := ⟨[badge]⟩ }

/-- A CPU session with the given threads. -/
def CpuSessionComponent.bare (badge : Nat) (bootstrapped : Bool)
    (threads : List CpuThreadComponent) : CpuSessionComponent where
  cap := ⟨badge⟩
  parentState :=
    { creationArgs := "ram_quota=64K", upgradeArgs := "", bootstrapped := bootstrapped
      sigh := Cap.invalid, cpuThreads := threads }
  parentUpgraded := 0

/-- A PD session with the given signal sources, and regions in its address
space. -/
def PdSessionComponent.bare (badge : Nat) (bootstrapped : Bool)
    (sources : List SignalSourceInfo) (regions : List AttachedRegionInfo) :
    PdSessionComponent where
  cap := ⟨badge⟩
  parentState :=
    { creationArgs := "ram_quota=64K", upgradeArgs := "", bootstrapped := bootstrapped
      signalSources := sources, signalContexts := [], nativeCaps := [] }
  addressSpace := (RegionMapComponent.bare (badge + 1)).setRegions regions
  stackArea := .bare (badge + 3)
  linkerArea := .bare (badge + 5)
  parentUpgraded := 0

/-- A RAM session with the given dataspaces. -/
def RamSessionComponent.bare (badge : Nat) (bootstrapped : Bool) (granularity : Nat)
    (dataspaces : List RamDataspaceInfo) : RamSessionComponent where
  cap := ⟨badge⟩
  parentState :=
    { creationArgs := "ram_quota=1M", upgradeArgs := "", bootstrapped := bootstrapped
      refAccountCap := Cap.invalid, ramDataspaces := dataspaces }
  granularity := granularity
  parentRam := { quota := 0x100000, dataspaces := [], wildFrees := [] }
  parentRm := []
  receiver := []
  mdAlloc := []
  parentUpgraded := 0

/-- Core beside the small child: all memory is zero. -/
def Core.small : Core where
  nextBadge := 100
  bytes _ _ := 0
  ramDataspaceCount := 1
  nativeCapabilityCount := 0

/-- A child with a PD, a CPU and a RAM session, and one dataspace, which is
attached. -/
def TargetChild.small : TargetChild where
  services :=
    { pdRoot :=
        [.bare 10 true [⟨⟨40⟩, true⟩]
          [{ attachedDsCap := ⟨31⟩, size := 0xa000, offset := 0, relAddr := 0x1000
             executable := false, bootstrapped := true }]]
      cpuRoot := [.bare 20 true [.running 21 "main" true]]
      ramRoot :=
        [.bare 30 true 0
          [{ cap := ⟨31⟩, size := 0xa000, cached := .cached, bootstrapped := true
             timestamp := 0, mrmInfo := none }]]
      rmRoot := none
      logRoot := none
      timerRoot := none }
  pd := ⟨10⟩
  cpu := ⟨20⟩
  ram := ⟨30⟩
  granularity := 0
  capMapInfo := 0x1000
  inBootstrap := false

end Rtcr
