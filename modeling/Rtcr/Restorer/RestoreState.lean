import Rtcr.Intercept.RegionMap
import Rtcr.Restorer.State

/-!
# Restorer.RestoreState — restore the state of all objects

The second half of `restore()`: every stored object is found again
through its translation and gets back what was stored. Memory is only
scheduled here.
-/

namespace Rtcr

open Fallible

/-- Upgrade the session if necessary. -/
def upgradeIfNecessary {χ : Type} (g : Genode) (upgrade : Genode → String → χ → χ) (args : String)
    (c : χ) : χ :=
  if g.ramQuota args ≠ 0 then upgrade g args c else c

/-! ## Signal handlers -/

/-- The search over all PD sessions for the context of a stored badge. -/
def findSignalContext (badge : Nat) :
    List PdSessionComponent → Restorer → Except Err SignalContextInfo
  | [], _ => .error (notFound "Could not find child signal context for ckpt badge " badge)
  | pd :: pds, r => do
      match ← r.findChildObject (·.cap) badge pd.parentState.signalContexts with
      | some context => .ok context
      | none => findSignalContext badge pds r

/-- Restore sigh. -/
def restoreSigh {χ : Type} (setSigh : Cap → χ → χ) (badge : Nat) (c : χ)
    (pdSessions : List PdSessionComponent) (r : Restorer) : Except Err χ :=
  if badge ≠ 0 then (findSignalContext badge pdSessions r).map fun context => setSigh context.cap c
  else .ok c

/-! ## RAM sessions -/

/-- Postpone the copy of one dataspace; `_memory_to_restore`. -/
def Restorer.schedule (orig copy : Cap) (size : Nat) (r : Restorer) : Restorer :=
  { r with
    memoryToRestore :=
      { origDsCap := orig, copyDsCap := copy, copyRelAddr := 0, copySize := size, done := false } ::
        r.memoryToRestore }

def restoreStateRamDataspace (infos : List RamDataspaceInfo) (t : StoredRamDataspaceInfo)
    (r : Restorer) : Except Err Restorer := do
  match ← r.findChildObject (·.cap) t.badge infos with
  | some ramds => .ok (r.schedule ramds.cap t.memoryContent t.size)
  | none => .error (notFound "Could not find child RAM dataspace for ckpt badge " t.badge)

/-- `_restore_state_ram_dataspaces`. -/
def restoreStateRamDataspaces (stored : List StoredRamDataspaceInfo)
    (infos : List RamDataspaceInfo) (r : Restorer) : Except Err Restorer :=
  loop (restoreStateRamDataspace infos) stored r

/-- `_restore_state_ram_sessions`. -/
def ramSessionState (g : Genode) : StateKind StoredRamSessionInfo RamSessionComponent where
  badge := (·.badge)
  cap := (·.cap)
  restore := ifPresent
    (fun t => notFound "Could not find child RAM session for ckpt badge " t.badge)
    fun t s r => do
      let s := upgradeIfNecessary g RamSessionComponent.upgrade t.upgradeArgs s
      let r ← restoreStateRamDataspaces t.storedRamdsInfos s.parentState.ramDataspaces r
      .ok (s, r)

/-! ## Region maps -/

/-- Schedule the memory of an attached region, unless it is a region map
or its copy is scheduled already. -/
def Restorer.scheduleRegion (t : StoredAttachedRegionInfo) (info : AttachedRegionInfo)
    (r : Restorer) : Restorer :=
  if r.regionMapDataspacesFromStored.contains t.attachedDsBadge then r
  else if r.memoryToRestore.any fun i => i.copyDsCap.localName == t.memoryContent.localName then r
  else r.schedule info.attachedDsCap t.memoryContent t.size

/-- Restore the mapping. A dataspace of unknown origin is allocated; its
kcap is then noted for an attached region that is not there yet. -/
def reattach (g : Genode) (inBootstrap : Bool) (t : StoredAttachedRegionInfo)
    (rm : RegionMapComponent) (r : Restorer) : Except Err RegionMapComponent :=
  match r.translate t.attachedDsBadge with
  | some dsCap =>
      .ok (rm.attach dsCap t.size (g.dataspaceSize dsCap) t.offset t.relAddr t.executable
        inBootstrap)
  | none => .error .nullPointer

/-- One stored attached region. -/
def restoreStateAttachedRegion (g : Genode) (inBootstrap : Bool) (t : StoredAttachedRegionInfo)
    (x : RegionMapComponent × Restorer) : Except Err (RegionMapComponent × Restorer) := do
  let rm ← if t.bootstrapped then .ok x.1 else reattach g inBootstrap t x.1 x.2
  match findAttachedByAddr t.relAddr rm.parentState.attachedRegions with
  | some info => .ok (rm, x.2.scheduleRegion t info)
  | none =>
      .error (notFound
        (if t.bootstrapped then "Could not find bootstrapped attached region for attached region "
          else "Could not find recreated attached region for attached region ") t.badge)

/-- `_restore_state_region_maps`; `_restore_state_attached_regions` is its
loop. -/
def regionMapState (g : Genode) (inBootstrap : Bool) (pdSessions : List PdSessionComponent) :
    StateKind StoredRegionMapInfo RegionMapComponent where
  badge := (·.badge)
  cap := (·.cap)
  restore := ifPresent
    (fun t => notFound "Could not find child region map for ckpt badge " t.badge)
    fun t rm r => do
      let rm ← restoreSigh RegionMapComponent.faultHandler t.sighBadge rm pdSessions r
      loop (restoreStateAttachedRegion g inBootstrap) t.storedAttachedRegionInfos (rm, r)

/-! ## PD sessions -/

/-- The three region maps of a PD session, as a list. -/
def PdSessionComponent.areas (pd : PdSessionComponent) : List RegionMapComponent :=
  [pd.addressSpace, pd.stackArea, pd.linkerArea]

def StoredPdSessionInfo.areas (t : StoredPdSessionInfo) : List StoredRegionMapInfo :=
  [t.storedAddressSpace, t.storedStackArea, t.storedLinkerArea]

/-- The list holds the region maps of the PD session themselves. -/
def PdSessionComponent.setAreas (areas : List RegionMapComponent) (pd : PdSessionComponent) :
    PdSessionComponent :=
  match areas with
  | [addressSpace, stackArea, linkerArea] =>
      { pd with addressSpace := addressSpace, stackArea := stackArea, linkerArea := linkerArea }
  | _ => pd

/-- `_restore_state_pd_sessions`. The signal contexts of `pdSessions` do
not change in this phase. -/
def pdSessionState (g : Genode) (inBootstrap : Bool) (pdSessions : List PdSessionComponent) :
    StateKind StoredPdSessionInfo PdSessionComponent where
  badge := (·.badge)
  cap := (·.cap)
  restore := ifPresent
    (fun t => notFound "Could not find child RAM session for ckpt badge " t.badge)
    fun t pd r => do
      let pd := upgradeIfNecessary g PdSessionComponent.upgrade t.upgradeArgs pd
      let areas ← (regionMapState g inBootstrap pdSessions).run t.areas pd.areas r
      .ok (pd.setAreas areas.1, areas.2)

/-! ## CPU sessions -/

/-- `_restore_state_cpu_threads`; the calls of `start` and `pause` are
commented out. -/
def cpuThreadState (pdSessions : List PdSessionComponent) :
    StateKind StoredCpuThreadInfo CpuThreadComponent where
  badge := (·.badge)
  cap := (·.cap)
  restore := ifPresent
    (fun t => notFound "Could not find child CPU thread for ckpt badge " t.badge)
    fun t c r => do
      let c ← restoreSigh CpuThreadComponent.exceptionSigh t.sighBadge c pdSessions r
      let c := if t.singleStep && !c.parentState.singleStep then c.setSingleStep true else c
      .ok (c.setState t.ts, r)

/-- `_restore_state_cpu_sessions`. -/
def cpuSessionState (g : Genode) (pdSessions : List PdSessionComponent) :
    StateKind StoredCpuSessionInfo CpuSessionComponent where
  badge := (·.badge)
  cap := (·.cap)
  restore := ifPresent
    (fun t => notFound "Could not find child RAM session for ckpt badge " t.badge)
    fun t s r => do
      let s ← restoreSigh CpuSessionComponent.exceptionSigh t.sighBadge s pdSessions r
      let s := upgradeIfNecessary g CpuSessionComponent.upgrade t.upgradeArgs s
      let threads ← (cpuThreadState pdSessions).run t.storedCpuThreadInfos s.parentState.cpuThreads
        r
      .ok (s.setThreads threads.1, threads.2)

/-! ## RM, LOG and Timer sessions -/

/-- `_restore_state_rm_sessions`. -/
def rmSessionState (g : Genode) (inBootstrap : Bool) (pdSessions : List PdSessionComponent) :
    StateKind StoredRmSessionInfo RmSessionComponent where
  badge := (·.badge)
  cap := (·.cap)
  restore := ifPresent
    (fun t => notFound "Could not find child RM session for ckpt badge " t.badge)
    fun t s r => do
      let s := upgradeIfNecessary g RmSessionComponent.upgrade t.upgradeArgs s
      let rms ← (regionMapState g inBootstrap pdSessions).run t.storedRegionMapInfos
        s.parentState.regionMaps r
      .ok (s.setRegionMaps rms.1, rms.2)

/-- `_restore_state_log_sessions`, which does not check that the object
is there. -/
def logSessionState (g : Genode) : StateKind StoredLogSessionInfo LogSessionComponent where
  badge := (·.badge)
  cap := (·.cap)
  restore t object r :=
    match object with
    | some s => .ok (some (upgradeIfNecessary g LogSessionComponent.upgrade t.upgradeArgs s), r)
    | none => if g.ramQuota t.upgradeArgs ≠ 0 then .error .nullPointer else .ok (none, r)

/-- `_restore_state_timer_sessions`, which does not check either. -/
def timerSessionState (g : Genode) (pdSessions : List PdSessionComponent) :
    StateKind StoredTimerSessionInfo TimerSessionComponent where
  badge := (·.badge)
  cap := (·.cap)
  restore t object r :=
    match object with
    | some s => do
        let s ← restoreSigh TimerSessionComponent.setSigh t.sighBadge s pdSessions r
        let s := if t.timeout ≠ 0 then s.trigger t.timeout t.periodic else s
        .ok (some (upgradeIfNecessary g TimerSessionComponent.upgrade t.upgradeArgs s), r)
    | none =>
        if t.sighBadge ≠ 0 then do
          let _ ← findSignalContext t.sighBadge pdSessions r
          .error .nullPointer
        else if t.timeout ≠ 0 ∨ g.ramQuota t.upgradeArgs ≠ 0 then .error .nullPointer
        else .ok (none, r)

/-! ## The phase -/

/-- A service whose root may be missing. -/
def restoreStateSessions {τ χ : Type} (k : StateKind τ χ) (stored : List τ)
    (root : Option (List χ)) (r : Restorer) : Except Err (Option (List χ) × Restorer) :=
  match root with
  | some sessions => (k.run stored sessions r).map fun x => (some x.1, x.2)
  | none => .ok (none, r)

/-- All objects (caution: RAM <- Region map, incl. PD session). -/
def restoreState (g : Genode) (inBootstrap : Bool) (st : TargetState) (s : CustomServices)
    (r : Restorer) : Except Err (CustomServices × Restorer) := do
  let ram ← (ramSessionState g).run st.ramSessions s.ramRoot r
  let pd ← (pdSessionState g inBootstrap s.pdRoot).run st.pdSessions s.pdRoot ram.2
  let cpu ← (cpuSessionState g pd.1).run st.cpuSessions s.cpuRoot pd.2
  let rm ← restoreStateSessions (rmSessionState g inBootstrap pd.1) st.rmSessions s.rmRoot cpu.2
  let log ← restoreStateSessions (logSessionState g) st.logSessions s.logRoot rm.2
  let timer ← restoreStateSessions (timerSessionState g pd.1) st.timerSessions s.timerRoot log.2
  .ok ({ ramRoot := ram.1, pdRoot := pd.1, cpuRoot := cpu.1, rmRoot := rm.1, logRoot := log.1
         timerRoot := timer.1 }, timer.2)

end Rtcr
