import Rtcr.Checkpointer.State

/-!
# Checkpointer.Prepare — the prepare phase

Each `_prepare_*` function is `Reconcile.reconcile` with the kind of its
records: the lookups, the creation, the update of a found or created
record, and the `_destroy_stored_*` function. A nested list is
reconciled by the update of the record that holds it.
-/

namespace Rtcr.Checkpointer

open Reconcile

/-! ## RAM sessions -/

/-- `_create_stored_ram_dataspace`: the record shares the copy dataspace that
is known for the dataspace, or gets a new one. -/
def createStoredRamDataspace (info : RamDataspaceInfo) (ck : Checkpointer) :
    StoredRamDataspaceInfo × Checkpointer :=
  let ramds := ck.useCopyDataspace false info.cap info.size
  createStored (StoredRamDataspaceInfo.new · info · ramds.1) info.cap.localName ramds.2

/-- `_destroy_stored_ram_dataspace`: the copy dataspace loses a user. -/
def destroyStoredRamDataspace (stored : StoredRamDataspaceInfo) (ck : Checkpointer) :
    Checkpointer :=
  (ck.dropCopyDataspace stored.badge).destroyRecord stored.addr

/-- RAM dataspaces, looked up by badge. A record that is found is left as
it is. -/
def ramDataspaceKind : Kind Checkpointer RamDataspaceInfo StoredRamDataspaceInfo :=
  badgeKind (·.badge) (·.cap.localName) createStoredRamDataspace
    (fun _ stored ck => (stored, ck)) destroyStoredRamDataspace

/-- `_prepare_ram_dataspaces`. -/
def prepareRamDataspaces (stored : List StoredRamDataspaceInfo) (child : List RamDataspaceInfo) :
    Checkpointer → List StoredRamDataspaceInfo × Checkpointer :=
  reconcile ramDataspaceKind stored child

/-- `_destroy_stored_ram_session`: the dataspaces go first. -/
def destroyStoredRamSession (stored : StoredRamSessionInfo) (ck : Checkpointer) : Checkpointer :=
  (destroyAll destroyStoredRamDataspace stored.storedRamdsInfos ck).destroyRecord stored.addr

/-- Of a RAM session record only the dataspaces are updated. -/
def updateRamSession (c : RamSessionComponent) (stored : StoredRamSessionInfo)
    (ck : Checkpointer) : StoredRamSessionInfo × Checkpointer :=
  let ramds := prepareRamDataspaces stored.storedRamdsInfos c.parentState.ramDataspaces ck
  ({ stored with storedRamdsInfos := ramds.1 }, ramds.2)

/-- RAM sessions, looked up by badge. -/
def ramSessionKind : Kind Checkpointer RamSessionComponent StoredRamSessionInfo :=
  badgeKind (·.badge) (·.cap.localName)
    (fun c => createStored (StoredRamSessionInfo.new · c ·) c.cap.localName)
    updateRamSession destroyStoredRamSession

/-- `_prepare_ram_sessions`. -/
def prepareRamSessions (stored : List StoredRamSessionInfo) (child : List RamSessionComponent) :
    Checkpointer → List StoredRamSessionInfo × Checkpointer :=
  reconcile ramSessionKind stored child

/-! ## Region maps -/

/-- The copy dataspace of an attached dataspace: none for a dataspace
that is a known region map. -/
def attachedCopy (info : AttachedRegionInfo) (ck : Checkpointer) : Cap × Checkpointer :=
  ck.useCopyDataspace (ck.regionMapDataspaces.contains info.attachedDsCap.localName)
    info.attachedDsCap info.size

/-- `_create_stored_attached_region`: the kcap is that of the attached
dataspace. -/
def createStoredAttachedRegion (info : AttachedRegionInfo) (ck : Checkpointer) :
    StoredAttachedRegionInfo × Checkpointer :=
  let ramds := attachedCopy info ck
  createStored (StoredAttachedRegionInfo.new · info · ramds.1) info.attachedDsCap.localName ramds.2

/-- `_destroy_stored_attached_region`: the copy dataspace of the attached
dataspace loses a user. -/
def destroyStoredAttachedRegion (stored : StoredAttachedRegionInfo) (ck : Checkpointer) :
    Checkpointer :=
  (ck.dropCopyDataspace stored.attachedDsBadge).destroyRecord stored.addr

/-- Attached regions are the one kind whose lookups are range tests. -/
def attachedRegionKind : Kind Checkpointer AttachedRegionInfo StoredAttachedRegionInfo where
  stored c t := t.covers c.relAddr
  present t c := c.covers t.relAddr
  create := createStoredAttachedRegion
  update _ stored ck := (stored, ck)
  destroy := destroyStoredAttachedRegion

/-- `_prepare_attached_regions`. -/
def prepareAttachedRegions (stored : List StoredAttachedRegionInfo)
    (child : List AttachedRegionInfo) :
    Checkpointer → List StoredAttachedRegionInfo × Checkpointer :=
  reconcile attachedRegionKind stored child

/-- `_destroy_stored_region_map`: the attached regions, then the record
itself, whether it is a block of its own or not. -/
def destroyStoredRegionMap (stored : StoredRegionMapInfo) (ck : Checkpointer) : Checkpointer :=
  (destroyAll destroyStoredAttachedRegion stored.storedAttachedRegionInfos ck).destroyRecord
    stored.addr

/-- The signal handler and the attached regions are updated, and from now
on the dataspace of the region map is a known one. -/
def updateRegionMap (c : RegionMapComponent) (stored : StoredRegionMapInfo) (ck : Checkpointer) :
    StoredRegionMapInfo × Checkpointer :=
  let regions := prepareAttachedRegions stored.storedAttachedRegionInfos
    c.parentState.attachedRegions ck
  ({ stored with
      sighBadge := c.parentState.sigh.localName
      storedAttachedRegionInfos := regions.1 },
    { regions.2 with
      regionMapDataspaces := c.parentState.dsCap.localName :: regions.2.regionMapDataspaces })

/-- Region maps, looked up by badge. -/
def regionMapKind : Kind Checkpointer RegionMapComponent StoredRegionMapInfo :=
  badgeKind (·.badge) (·.cap.localName)
    (fun c => createStored (StoredRegionMapInfo.new · c ·) c.cap.localName)
    updateRegionMap destroyStoredRegionMap

/-- `_prepare_region_maps`. -/
def prepareRegionMaps (stored : List StoredRegionMapInfo) (child : List RegionMapComponent) :
    Checkpointer → List StoredRegionMapInfo × Checkpointer :=
  reconcile regionMapKind stored child

/-! ## PD sessions -/

/-- Native capabilities, which are recorded once and for all. -/
def nativeCapKind : Kind Checkpointer NativeCapabilityInfo StoredNativeCapabilityInfo :=
  badgeKind (·.badge) (·.cap.localName)
    (fun c => createStored (StoredNativeCapabilityInfo.new · c ·) c.cap.localName)
    (fun _ stored ck => (stored, ck)) (fun stored ck => ck.destroyRecord stored.addr)

/-- `_prepare_native_caps`. -/
def prepareNativeCaps (stored : List StoredNativeCapabilityInfo)
    (child : List NativeCapabilityInfo) :
    Checkpointer → List StoredNativeCapabilityInfo × Checkpointer :=
  reconcile nativeCapKind stored child

/-- Signal sources, which are recorded once and for all. -/
def signalSourceKind : Kind Checkpointer SignalSourceInfo StoredSignalSourceInfo :=
  badgeKind (·.badge) (·.cap.localName)
    (fun c => createStored (StoredSignalSourceInfo.new · c ·) c.cap.localName)
    (fun _ stored ck => (stored, ck)) (fun stored ck => ck.destroyRecord stored.addr)

/-- `_prepare_signal_sources`. -/
def prepareSignalSources (stored : List StoredSignalSourceInfo) (child : List SignalSourceInfo) :
    Checkpointer → List StoredSignalSourceInfo × Checkpointer :=
  reconcile signalSourceKind stored child

/-- Signal contexts, which are recorded once and for all. -/
def signalContextKind : Kind Checkpointer SignalContextInfo StoredSignalContextInfo :=
  badgeKind (·.badge) (·.cap.localName)
    (fun c => createStored (StoredSignalContextInfo.new · c ·) c.cap.localName)
    (fun _ stored ck => (stored, ck)) (fun stored ck => ck.destroyRecord stored.addr)

/-- `_prepare_signal_contexts`. -/
def prepareSignalContexts (stored : List StoredSignalContextInfo)
    (child : List SignalContextInfo) :
    Checkpointer → List StoredSignalContextInfo × Checkpointer :=
  reconcile signalContextKind stored child

/-- The temporary list of a PD session record's own region maps. -/
def storedAreas (stored : StoredPdSessionInfo) : List StoredRegionMapInfo :=
  [stored.storedAddressSpace, stored.storedStackArea, stored.storedLinkerArea]

/-- The temporary list of a PD session's own region maps. -/
def areas (c : PdSessionComponent) : List RegionMapComponent :=
  [c.addressSpace, c.stackArea, c.linkerArea]

/-- What has become of an embedded region map record after the temporary
list was reconciled: a destroyed one stays in place, without regions. -/
def areaAfter (before : StoredRegionMapInfo) (after : List StoredRegionMapInfo) :
    StoredRegionMapInfo :=
  match after.find? fun t => t.addr == before.addr with
  | some t => t
  | none => { before with storedAttachedRegionInfos := [] }

theorem areaAfter_addr (before : StoredRegionMapInfo) (after : List StoredRegionMapInfo) :
    (areaAfter before after).addr = before.addr := by
  unfold areaAfter
  split
  · rename_i t h
    simpa using List.find?_some h
  · rfl

/-- A new PD session record. Its region maps are recorded with it, each
with its own kcap. -/
def createStoredPdSession (c : PdSessionComponent) (ck : Checkpointer) :
    StoredPdSessionInfo × Checkpointer :=
  (StoredPdSessionInfo.new ck.newRecord.1 c
      (findKcapByBadge c.cap.localName ck.capabilityMapInfos)
      (findKcapByBadge c.addressSpace.cap.localName ck.capabilityMapInfos)
      (findKcapByBadge c.stackArea.cap.localName ck.capabilityMapInfos)
      (findKcapByBadge c.linkerArea.cap.localName ck.capabilityMapInfos),
    ck.newRecord.2)

/-- The lists of a PD session record, one after the other; the region maps
go through a temporary list. -/
def updatePdSession (c : PdSessionComponent) (stored : StoredPdSessionInfo) (ck : Checkpointer) :
    StoredPdSessionInfo × Checkpointer :=
  let caps := prepareNativeCaps stored.storedNativeCapInfos c.parentState.nativeCaps ck
  let sources := prepareSignalSources stored.storedSourceInfos c.parentState.signalSources caps.2
  let contexts := prepareSignalContexts stored.storedContextInfos c.parentState.signalContexts
    sources.2
  let maps := prepareRegionMaps (storedAreas stored) (areas c) contexts.2
  ({ stored with
      storedNativeCapInfos := caps.1
      storedSourceInfos := sources.1
      storedContextInfos := contexts.1
      storedAddressSpace := areaAfter stored.storedAddressSpace maps.1
      storedStackArea := areaAfter stored.storedStackArea maps.1
      storedLinkerArea := areaAfter stored.storedLinkerArea maps.1
      embedded := by simpa only [areaAfter_addr] using stored.embedded },
    maps.2)

/-- `_destroy_stored_pd_session`: the lists, the three region maps, the
block. -/
def destroyStoredPdSession (stored : StoredPdSessionInfo) (ck : Checkpointer) : Checkpointer :=
  let ck := destroyAll signalContextKind.destroy stored.storedContextInfos ck
  let ck := destroyAll signalSourceKind.destroy stored.storedSourceInfos ck
  let ck := destroyAll nativeCapKind.destroy stored.storedNativeCapInfos ck
  let ck := destroyStoredRegionMap stored.storedLinkerArea ck
  let ck := destroyStoredRegionMap stored.storedStackArea ck
  let ck := destroyStoredRegionMap stored.storedAddressSpace ck
  ck.destroyRecord stored.addr

/-- PD sessions, looked up by badge. -/
def pdSessionKind : Kind Checkpointer PdSessionComponent StoredPdSessionInfo :=
  badgeKind (·.badge) (·.cap.localName) createStoredPdSession updatePdSession
    destroyStoredPdSession

/-- `_prepare_pd_sessions`. -/
def preparePdSessions (stored : List StoredPdSessionInfo) (child : List PdSessionComponent) :
    Checkpointer → List StoredPdSessionInfo × Checkpointer :=
  reconcile pdSessionKind stored child

/-! ## CPU sessions -/

/-- Flags, affinity and handler are copied from the record of the
thread, the registers are read from core. -/
def updateCpuThread (c : CpuThreadComponent) (stored : StoredCpuThreadInfo) (ck : Checkpointer) :
    StoredCpuThreadInfo × Checkpointer :=
  ({ stored with
      started := c.parentState.started
      paused := c.parentState.paused
      singleStep := c.parentState.singleStep
      affinity := c.parentState.affinity
      sighBadge := c.parentState.sigh.localName
      ts := c.parent.state },
    ck)

/-- CPU threads, looked up by badge. -/
def cpuThreadKind : Kind Checkpointer CpuThreadComponent StoredCpuThreadInfo :=
  badgeKind (·.badge) (·.cap.localName)
    (fun c => createStored (StoredCpuThreadInfo.new · c ·) c.cap.localName)
    updateCpuThread (fun stored ck => ck.destroyRecord stored.addr)

/-- `_prepare_cpu_threads`. -/
def prepareCpuThreads (stored : List StoredCpuThreadInfo) (child : List CpuThreadComponent) :
    Checkpointer → List StoredCpuThreadInfo × Checkpointer :=
  reconcile cpuThreadKind stored child

/-- `_destroy_stored_cpu_session`: the threads go first. -/
def destroyStoredCpuSession (stored : StoredCpuSessionInfo) (ck : Checkpointer) : Checkpointer :=
  (destroyAll cpuThreadKind.destroy stored.storedCpuThreadInfos ck).destroyRecord stored.addr

/-- Of a CPU session record the signal handler and the threads are updated. -/
def updateCpuSession (c : CpuSessionComponent) (stored : StoredCpuSessionInfo)
    (ck : Checkpointer) : StoredCpuSessionInfo × Checkpointer :=
  let threads := prepareCpuThreads stored.storedCpuThreadInfos c.parentState.cpuThreads ck
  ({ stored with
      sighBadge := c.parentState.sigh.localName
      storedCpuThreadInfos := threads.1 },
    threads.2)

/-- CPU sessions, looked up by badge. -/
def cpuSessionKind : Kind Checkpointer CpuSessionComponent StoredCpuSessionInfo :=
  badgeKind (·.badge) (·.cap.localName)
    (fun c => createStored (StoredCpuSessionInfo.new · c ·) c.cap.localName)
    updateCpuSession destroyStoredCpuSession

/-- `_prepare_cpu_sessions`. -/
def prepareCpuSessions (stored : List StoredCpuSessionInfo) (child : List CpuSessionComponent) :
    Checkpointer → List StoredCpuSessionInfo × Checkpointer :=
  reconcile cpuSessionKind stored child

/-! ## RM, LOG and Timer sessions -/

/-- `_destroy_stored_rm_session`: the region maps go first. -/
def destroyStoredRmSession (stored : StoredRmSessionInfo) (ck : Checkpointer) : Checkpointer :=
  (destroyAll destroyStoredRegionMap stored.storedRegionMapInfos ck).destroyRecord stored.addr

/-- Of an RM session record only the region maps are updated. -/
def updateRmSession (c : RmSessionComponent) (stored : StoredRmSessionInfo) (ck : Checkpointer) :
    StoredRmSessionInfo × Checkpointer :=
  let maps := prepareRegionMaps stored.storedRegionMapInfos c.parentState.regionMaps ck
  ({ stored with storedRegionMapInfos := maps.1 }, maps.2)

/-- RM sessions, looked up by badge. -/
def rmSessionKind : Kind Checkpointer RmSessionComponent StoredRmSessionInfo :=
  badgeKind (·.badge) (·.cap.localName)
    (fun c => createStored (StoredRmSessionInfo.new · c ·) c.cap.localName)
    updateRmSession destroyStoredRmSession

/-- `_prepare_rm_sessions`. -/
def prepareRmSessions (stored : List StoredRmSessionInfo) (child : List RmSessionComponent) :
    Checkpointer → List StoredRmSessionInfo × Checkpointer :=
  reconcile rmSessionKind stored child

/-- LOG sessions, of which nothing is updated. -/
def logSessionKind : Kind Checkpointer LogSessionComponent StoredLogSessionInfo :=
  badgeKind (·.badge) (·.cap.localName)
    (fun c => createStored (StoredLogSessionInfo.new · c ·) c.cap.localName)
    (fun _ stored ck => (stored, ck)) (fun stored ck => ck.destroyRecord stored.addr)

/-- `_prepare_log_sessions`. -/
def prepareLogSessions (stored : List StoredLogSessionInfo) (child : List LogSessionComponent) :
    Checkpointer → List StoredLogSessionInfo × Checkpointer :=
  reconcile logSessionKind stored child

/-- Of a Timer session record the signal handler and the timeout are
updated. -/
def updateTimerSession (c : TimerSessionComponent) (stored : StoredTimerSessionInfo)
    (ck : Checkpointer) : StoredTimerSessionInfo × Checkpointer :=
  ({ stored with
      sighBadge := c.parentState.sigh.localName
      timeout := c.parentState.timeout
      periodic := c.parentState.periodic },
    ck)

/-- Timer sessions, looked up by badge. -/
def timerSessionKind : Kind Checkpointer TimerSessionComponent StoredTimerSessionInfo :=
  badgeKind (·.badge) (·.cap.localName)
    (fun c => createStored (StoredTimerSessionInfo.new · c ·) c.cap.localName)
    updateTimerSession (fun stored ck => ck.destroyRecord stored.addr)

/-- `_prepare_timer_sessions`. -/
def prepareTimerSessions (stored : List StoredTimerSessionInfo)
    (child : List TimerSessionComponent) :
    Checkpointer → List StoredTimerSessionInfo × Checkpointer :=
  reconcile timerSessionKind stored child

/-! ## The phase as a whole -/

/-- A list that is prepared only if the child has the root. -/
def prepareRoot {χ τ : Type}
    (prepare : List τ → List χ → Checkpointer → List τ × Checkpointer) (stored : List τ)
    (root : Option (List χ)) (ck : Checkpointer) : List τ × Checkpointer :=
  match root with
  | some infos => prepare stored infos ck
  | none => (stored, ck)

/-- `_create_region_map_dataspaces`: the dataspaces of all region maps
the child can attach, newest first. -/
def createRegionMapDataspaces (pdSessions : List PdSessionComponent)
    (rmSessions : Option (List RmSessionComponent)) : List Nat :=
  let pds := pdSessions.flatMap fun pd =>
    [pd.addressSpace, pd.stackArea, pd.linkerArea].map (·.parentState.dsCap.localName)
  let rms := (sessionInfos rmSessions).flatMap fun rm =>
    rm.parentState.regionMaps.map (·.parentState.dsCap.localName)
  (pds ++ rms).reverse

/-- The prepare phase of `checkpoint()`. -/
def prepare (services : CustomServices) (state : TargetState) (ck : Checkpointer) :
    TargetState × Checkpointer :=
  let ram := prepareRamSessions state.ramSessions services.ramRoot ck
  let pd := preparePdSessions state.pdSessions services.pdRoot ram.2
  let cpu := prepareCpuSessions state.cpuSessions services.cpuRoot pd.2
  let rm := prepareRoot prepareRmSessions state.rmSessions services.rmRoot cpu.2
  let log := prepareRoot prepareLogSessions state.logSessions services.logRoot rm.2
  let timer := prepareRoot prepareTimerSessions state.timerSessions services.timerRoot log.2
  ({ state with
      ramSessions := ram.1
      pdSessions := pd.1
      cpuSessions := cpu.1
      rmSessions := rm.1
      logSessions := log.1
      timerSessions := timer.1 },
    timer.2)

end Rtcr.Checkpointer
