import Rtcr.OnlineStorage

/-!
# OfflineStorage — the records of a checkpoint

One structure for every record of `offline_storage/`, with the
constructor that fills it from the child's object. A record carries the
address it lives at (`addr`), so that "the same record" can be said of
two points in time; `RecordHeap` is the allocator `Target_state::_alloc`
the addresses come from.
-/

namespace Rtcr

/-! ## Record addresses -/

/-- The three region maps embedded in a PD session record. -/
inductive Area
  | addressSpace
  | stackArea
  | linkerArea
deriving DecidableEq, Repr

/-- The address of a record: a block of its own, or a member of one. -/
inductive RecordAddr
  | block (n : Nat)
  | member (n : Nat) (area : Area)
deriving DecidableEq, Repr

/-- The address of a region map embedded in the record at `p`. -/
def RecordAddr.area (p : RecordAddr) (area : Area) : RecordAddr :=
  match p with
  | .block n => .member n area
  | .member n _ => .member n area

theorem RecordAddr.area_inj {p : RecordAddr} {a b : Area} : p.area a = p.area b ↔ a = b := by
  cases p <;> simp [area]

/-- `Target_state::_alloc`: the live blocks, and the calls of `destroy`
with an address that was not a live block. -/
structure RecordHeap where
  next : Nat
  live : List Nat
  wildFrees : List RecordAddr
deriving DecidableEq, Repr

/-- An allocator that has handed out nothing. -/
def RecordHeap.empty : RecordHeap := ⟨0, [], []⟩

/-- `new (_state._alloc)`. -/
def RecordHeap.new (heap : RecordHeap) : Nat × RecordHeap :=
  (heap.next, { heap with next := heap.next + 1, live := heap.next :: heap.live })

/-- `Genode::destroy(_state._alloc, p)`. -/
def RecordHeap.destroy (p : RecordAddr) (heap : RecordHeap) : RecordHeap :=
  match p with
  | .block n =>
      if n ∈ heap.live then { heap with live := heap.live.erase n }
      else { heap with wildFrees := p :: heap.wildFrees }
  | .member .. => { heap with wildFrees := p :: heap.wildFrees }

/-! ## Records -/

/-- `Stored_general_info`: what every record has. -/
structure StoredGeneralInfo where
  addr : RecordAddr
  kcap : Nat
  badge : Nat
  bootstrapped : Bool
deriving DecidableEq, Repr

/-- `Stored_session_info`: the record of a session. -/
structure StoredSessionInfo extends StoredGeneralInfo where
  creationArgs : String
  upgradeArgs : String
deriving DecidableEq, Repr

/-- `Stored_normal_info`: the record of anything but a session. -/
structure StoredNormalInfo extends StoredGeneralInfo
deriving DecidableEq, Repr

/-- `Stored_attached_region_info`. Its badge is that of the attached
dataspace. -/
structure StoredAttachedRegionInfo extends StoredNormalInfo where
  attachedDsBadge : Nat
  memoryContent : Cap
  size : Nat
  offset : Nat
  relAddr : Nat
  executable : Bool
deriving DecidableEq, Repr

/-- The record of an attached region whose memory is kept in `copyDsCap`. -/
def StoredAttachedRegionInfo.new (addr : RecordAddr) (info : AttachedRegionInfo) (kcap : Nat)
    (copyDsCap : Cap) : StoredAttachedRegionInfo where
  addr := addr
  kcap := kcap
  badge := info.attachedDsCap.localName
  bootstrapped := info.bootstrapped
  attachedDsBadge := info.attachedDsCap.localName
  memoryContent := copyDsCap
  size := info.size
  offset := info.offset
  relAddr := info.relAddr
  executable := info.executable

/-- The range test of `Stored_attached_region_info::find_by_addr`. -/
def StoredAttachedRegionInfo.covers (info : StoredAttachedRegionInfo) (addr : Nat) : Bool :=
  decide (addr ≥ info.relAddr) && decide (addr ≤ info.relAddr + info.size)

/-- `Stored_region_map_info`. -/
structure StoredRegionMapInfo extends StoredNormalInfo where
  size : Nat
  dsBadge : Nat
  sighBadge : Nat
  storedAttachedRegionInfos : List StoredAttachedRegionInfo
deriving DecidableEq, Repr

/-- The record of a region map, with no region yet. -/
def StoredRegionMapInfo.new (addr : RecordAddr) (regionMap : RegionMapComponent)
    (targetsKcap : Nat) : StoredRegionMapInfo where
  addr := addr
  kcap := targetsKcap
  badge := regionMap.cap.localName
  bootstrapped := regionMap.parentState.bootstrapped
  size := regionMap.parentState.size
  dsBadge := regionMap.parentState.dsCap.localName
  sighBadge := regionMap.parentState.sigh.localName
  storedAttachedRegionInfos := []

/-- `Stored_rm_session_info`. -/
structure StoredRmSessionInfo extends StoredSessionInfo where
  storedRegionMapInfos : List StoredRegionMapInfo
deriving DecidableEq, Repr

/-- The record of an RM session, with no region map yet. -/
def StoredRmSessionInfo.new (addr : RecordAddr) (rmSession : RmSessionComponent)
    (targetsKcap : Nat) : StoredRmSessionInfo where
  addr := addr
  kcap := targetsKcap
  badge := rmSession.cap.localName
  bootstrapped := rmSession.parentState.bootstrapped
  creationArgs := rmSession.parentState.creationArgs
  upgradeArgs := rmSession.parentState.upgradeArgs
  storedRegionMapInfos := []

/-- `Stored_ram_dataspace_info`. -/
structure StoredRamDataspaceInfo extends StoredNormalInfo where
  memoryContent : Cap
  size : Nat
  cached : CacheAttribute
  managed : Bool
  timestamp : Nat
deriving DecidableEq, Repr

/-- The record of a RAM dataspace whose memory is kept in `copyDsCap`. -/
def StoredRamDataspaceInfo.new (addr : RecordAddr) (info : RamDataspaceInfo)
    (targetsKcap : Nat) (copyDsCap : Cap) : StoredRamDataspaceInfo where
  addr := addr
  kcap := targetsKcap
  badge := info.cap.localName
  bootstrapped := info.bootstrapped
  memoryContent := copyDsCap
  size := info.size
  cached := info.cached
  managed := info.mrmInfo.isSome
  timestamp := info.timestamp

/-- `Stored_ram_session_info`. -/
structure StoredRamSessionInfo extends StoredSessionInfo where
  storedRamdsInfos : List StoredRamDataspaceInfo
deriving DecidableEq, Repr

/-- The record of a RAM session, with no dataspace yet. -/
def StoredRamSessionInfo.new (addr : RecordAddr) (ramSession : RamSessionComponent)
    (targetsKcap : Nat) : StoredRamSessionInfo where
  addr := addr
  kcap := targetsKcap
  badge := ramSession.cap.localName
  bootstrapped := ramSession.parentState.bootstrapped
  creationArgs := ramSession.parentState.creationArgs
  upgradeArgs := ramSession.parentState.upgradeArgs
  storedRamdsInfos := []

/-- `Stored_native_capability_info`. -/
structure StoredNativeCapabilityInfo extends StoredNormalInfo where
  epBadge : Nat
deriving DecidableEq, Repr

/-- The record of a native capability. Its entrypoint is kept by badge. -/
def StoredNativeCapabilityInfo.new (addr : RecordAddr) (info : NativeCapabilityInfo)
    (targetsKcap : Nat) : StoredNativeCapabilityInfo where
  addr := addr
  kcap := targetsKcap
  badge := info.cap.localName
  bootstrapped := info.bootstrapped
  epBadge := info.epCap.localName

/-- `Stored_signal_source_info`. -/
structure StoredSignalSourceInfo extends StoredNormalInfo
deriving DecidableEq, Repr

/-- The record of a signal source. -/
def StoredSignalSourceInfo.new (addr : RecordAddr) (info : SignalSourceInfo)
    (targetsKcap : Nat) : StoredSignalSourceInfo where
  addr := addr
  kcap := targetsKcap
  badge := info.cap.localName
  bootstrapped := info.bootstrapped

/-- `Stored_signal_context_info`. -/
structure StoredSignalContextInfo extends StoredNormalInfo where
  signalSourceBadge : Nat
  imprint : Nat
deriving DecidableEq, Repr

/-- The record of a signal context. Its signal source is kept by badge. -/
def StoredSignalContextInfo.new (addr : RecordAddr) (info : SignalContextInfo)
    (targetsKcap : Nat) : StoredSignalContextInfo where
  addr := addr
  kcap := targetsKcap
  badge := info.cap.localName
  bootstrapped := info.bootstrapped
  signalSourceBadge := info.ssCap.localName
  imprint := info.imprint

/-- `Stored_pd_session_info`. -/
structure StoredPdSessionInfo extends StoredSessionInfo where
  storedContextInfos : List StoredSignalContextInfo
  storedSourceInfos : List StoredSignalSourceInfo
  storedNativeCapInfos : List StoredNativeCapabilityInfo
  storedAddressSpace : StoredRegionMapInfo
  storedStackArea : StoredRegionMapInfo
  storedLinkerArea : StoredRegionMapInfo
  /-- the region maps are members of the record -/
  embedded : storedAddressSpace.addr = addr.area .addressSpace ∧
    storedStackArea.addr = addr.area .stackArea ∧ storedLinkerArea.addr = addr.area .linkerArea
deriving DecidableEq, Repr

/-- The record lives in block `n`; its three region maps are members. -/
def StoredPdSessionInfo.new (n : Nat) (pdSession : PdSessionComponent)
    (targetsPdKcap targetsAddKcap targetsStaKcap targetsLinKcap : Nat) :
    StoredPdSessionInfo where
  addr := .block n
  kcap := targetsPdKcap
  badge := pdSession.cap.localName
  bootstrapped := pdSession.parentState.bootstrapped
  creationArgs := pdSession.parentState.creationArgs
  upgradeArgs := pdSession.parentState.upgradeArgs
  storedContextInfos := []
  storedSourceInfos := []
  storedNativeCapInfos := []
  storedAddressSpace := .new (.member n .addressSpace) pdSession.addressSpace targetsAddKcap
  storedStackArea := .new (.member n .stackArea) pdSession.stackArea targetsStaKcap
  storedLinkerArea := .new (.member n .linkerArea) pdSession.linkerArea targetsLinKcap
  embedded := ⟨rfl, rfl, rfl⟩

/-- `Stored_cpu_thread_info`; `ts` are the registers. -/
structure StoredCpuThreadInfo extends StoredNormalInfo where
  pdSessionBadge : Nat
  name : String
  weight : Nat
  utcb : Nat
  started : Bool
  paused : Bool
  singleStep : Bool
  affinity : Location
  sighBadge : Nat
  ts : ThreadState
deriving DecidableEq, Repr

/-- The record of a CPU thread, without its registers. -/
def StoredCpuThreadInfo.new (addr : RecordAddr) (cpuThread : CpuThreadComponent)
    (targetsKcap : Nat) : StoredCpuThreadInfo where
  addr := addr
  kcap := targetsKcap
  badge := cpuThread.cap.localName
  bootstrapped := cpuThread.parentState.bootstrapped
  pdSessionBadge := cpuThread.parentState.pdSessionCap.localName
  name := cpuThread.parentState.name
  weight := cpuThread.parentState.weight
  utcb := cpuThread.parentState.utcb
  started := cpuThread.parentState.started
  paused := cpuThread.parentState.paused
  singleStep := cpuThread.parentState.singleStep
  affinity := cpuThread.parentState.affinity
  sighBadge := cpuThread.parentState.sigh.localName
  ts := ⟨[]⟩

/-- `Stored_cpu_session_info`. -/
structure StoredCpuSessionInfo extends StoredSessionInfo where
  sighBadge : Nat
  storedCpuThreadInfos : List StoredCpuThreadInfo
deriving DecidableEq, Repr

/-- The record of a CPU session, with no thread yet. -/
def StoredCpuSessionInfo.new (addr : RecordAddr) (cpuSession : CpuSessionComponent)
    (targetsKcap : Nat) : StoredCpuSessionInfo where
  addr := addr
  kcap := targetsKcap
  badge := cpuSession.cap.localName
  bootstrapped := cpuSession.parentState.bootstrapped
  creationArgs := cpuSession.parentState.creationArgs
  upgradeArgs := cpuSession.parentState.upgradeArgs
  sighBadge := cpuSession.parentState.sigh.localName
  storedCpuThreadInfos := []

/-- `Stored_log_session_info`. -/
structure StoredLogSessionInfo extends StoredSessionInfo
deriving DecidableEq, Repr

/-- The record of a LOG session. -/
def StoredLogSessionInfo.new (addr : RecordAddr) (logSession : LogSessionComponent)
    (targetsKcap : Nat) : StoredLogSessionInfo where
  addr := addr
  kcap := targetsKcap
  badge := logSession.cap.localName
  bootstrapped := logSession.parentState.bootstrapped
  creationArgs := logSession.parentState.creationArgs
  upgradeArgs := logSession.parentState.upgradeArgs

/-- `Stored_timer_session_info`. -/
structure StoredTimerSessionInfo extends StoredSessionInfo where
  sighBadge : Nat
  timeout : Nat
  periodic : Bool
deriving DecidableEq, Repr

/-- The record of a Timer session. -/
def StoredTimerSessionInfo.new (addr : RecordAddr) (timerSession : TimerSessionComponent)
    (targetsKcap : Nat) : StoredTimerSessionInfo where
  addr := addr
  kcap := targetsKcap
  badge := timerSession.cap.localName
  bootstrapped := timerSession.parentState.bootstrapped
  creationArgs := timerSession.parentState.creationArgs
  upgradeArgs := timerSession.parentState.upgradeArgs
  sighBadge := timerSession.parentState.sigh.localName
  timeout := timerSession.parentState.timeout
  periodic := timerSession.parentState.periodic

/-- `Target_state`, without the ROM sessions, which no function fills. -/
structure TargetState where
  pdSessions : List StoredPdSessionInfo
  cpuSessions : List StoredCpuSessionInfo
  ramSessions : List StoredRamSessionInfo
  rmSessions : List StoredRmSessionInfo
  logSessions : List StoredLogSessionInfo
  timerSessions : List StoredTimerSessionInfo
  capIdxAllocAddr : Nat
deriving DecidableEq, Repr

/-- A target state in which nothing is stored. -/
def TargetState.empty : TargetState := ⟨[], [], [], [], [], [], 0⟩

end Rtcr
