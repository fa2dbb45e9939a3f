import Rtcr.Restorer.Sort
import Rtcr.Restorer.State

/-!
# Restorer.Identify — identify or recreate

The first half of `restore()`: every stored object is translated to an
object of the child, one that bootstrap has made or a new one. New
objects go to the head of their lists.
-/

namespace Rtcr

open Fallible

/-! ## RAM dataspaces -/

/-- The loops that fill `stored_array` and `array`: `i` counts all
elements of the list, the array only has room for bootstrapped ones. -/
def fillArray {α : Type} (bootstrapped : α → Bool) (timestamp : α → Nat) :
    List α → Nat → List Nat → Except Err (List Nat)
  | [], _, array => .ok array
  | x :: xs, i, array =>
      if bootstrapped x then
        if i < array.length then
          fillArray bootstrapped timestamp xs (i + 1) (array.set i (timestamp x))
        else .error .outOfBounds
      else fillArray bootstrapped timestamp xs (i + 1) array

/-- The array of the bootstrapped elements' timestamps, filled. -/
def timestampArray {α : Type} (bootstrapped : α → Bool) (timestamp : α → Nat) (l : List α) :
    Except Err (List Nat) :=
  fillArray bootstrapped timestamp l 0 (List.replicate (l.countP bootstrapped) 0)

/-- One turn of the loop that fills the result. -/
def pairDataspace (infos : List RamDataspaceInfo) (stored : List StoredRamDataspaceInfo)
    (storedArray array : List Nat) (i : Nat) (result : List CkptRestoBadgeInfo) :
    Except Err (List CkptRestoBadgeInfo) :=
  match storedArray[i]?, array[i]? with
  | some a, some b =>
      match findByBadge (·.timestamp) a stored, findByBadge (·.timestamp) b infos with
      | some storedRamds, some ramds => .ok (⟨storedRamds.badge, ramds.cap⟩ :: result)
      | _, _ => .error .nullPointer
  | _, _ => .error .outOfBounds

/-- `_identify_ram_dataspaces`: the n-th oldest bootstrapped dataspace of
the checkpoint is the n-th oldest of the child. -/
def identifyRamDataspaces (infos : List RamDataspaceInfo)
    (stored : List StoredRamDataspaceInfo) : Except Err (List CkptRestoBadgeInfo) := do
  let storedArray ← timestampArray (·.bootstrapped) (·.timestamp) stored
  let array ← timestampArray (·.bootstrapped) (·.timestamp) infos
  let storedArray ← mergeSort storedArray
  let array ← mergeSort array
  loop (pairDataspace infos stored storedArray array) (List.range storedArray.length) []

/-- One stored RAM dataspace; `pairs` is `bootstrapped_ram_dataspaces`. -/
def identifyRecreateRamDataspace (inBootstrap : Bool) (pairs : List CkptRestoBadgeInfo)
    (t : StoredRamDataspaceInfo) (x : RamSessionComponent × Restorer) :
    Except Err (RamSessionComponent × Restorer) :=
  if t.bootstrapped then
    match findByBadge (·.ckptBadge) t.badge pairs with
    | none => .error .nullPointer
    | some crInfo =>
        match findByBadge (·.cap.localName) crInfo.restoCap.localName
            x.1.parentState.ramDataspaces with
        | some ramds => .ok (x.1, x.2.addTranslation t.badge ramds.cap)
        | none => .error (notFound "Could not find bootstrapped RAM dataspace for badge " t.badge)
  else
    match x.1.alloc t.size t.cached inBootstrap x.2.core with
    | none => .error (.exception "Ram_session::Quota_exceeded")
    | some (cap, s, core) =>
        match findByBadge (·.cap.localName) cap.localName s.parentState.ramDataspaces with
        | some ramds =>
            .ok (s, ((x.2.setCore core).addKcap t.kcap ramds.cap).addTranslation t.badge ramds.cap)
        | none =>
            .error (notFound "Could not find newly created RAM dataspace for " cap.localName)

/-- `_identify_recreate_ram_dataspaces`. -/
def identifyRecreateRamDataspaces (inBootstrap : Bool) (stored : List StoredRamDataspaceInfo)
    (s : RamSessionComponent) (r : Restorer) : Except Err (RamSessionComponent × Restorer) := do
  let pairs ← identifyRamDataspaces s.parentState.ramDataspaces stored
  if pairs.isEmpty then .error (.exception "There is no bootstrapped RAM dataspace")
  else loop (identifyRecreateRamDataspace inBootstrap pairs) stored (s, r)

/-- RAM sessions; `bootstrapped` is the first session of the root when
the phase starts. -/
def ramSessionKind (g : Genode) (granularity : Nat) (inBootstrap : Bool)
    (bootstrapped : RamSessionComponent) :
    RestoKind StoredRamSessionInfo RamSessionComponent where
  badge := (·.badge)
  kcap := (·.kcap)
  cap := (·.cap)
  identify t _ := .ok (if t.bootstrapped then some bootstrapped.cap else none)
  recreate t r :=
    let s := RamSessionComponent.create g granularity inBootstrap t.creationArgs r.core
    .ok (s.1, r.setCore s.2)
  parts t s r := identifyRecreateRamDataspaces inBootstrap t.storedRamdsInfos s r

/-- `_identify_recreate_ram_sessions`. -/
def identifyRecreateRamSessions (g : Genode) (granularity : Nat) (inBootstrap : Bool)
    (stored : List StoredRamSessionInfo) (ramRoot : List RamSessionComponent) (r : Restorer) :
    Except Err (List RamSessionComponent × Restorer) :=
  match ramRoot with
  | [] => .error (.exception "There is no bootstrapped RAM session")
  | bootstrapped :: _ =>
      (ramSessionKind g granularity inBootstrap bootstrapped).run stored ramRoot r

/-! ## PD sessions -/

/-- Nothing follows the translation of the object. -/
def noParts {τ χ : Type} (_ : τ) (c : χ) (r : Restorer) : Except Err (χ × Restorer) := .ok (c, r)

/-- Signal sources; `bootstrapped` is the first one of the session. -/
def signalSourceKind (inBootstrap : Bool) (bootstrapped : SignalSourceInfo) :
    RestoKind StoredSignalSourceInfo SignalSourceInfo where
  badge := (·.badge)
  kcap := (·.kcap)
  cap := (·.cap)
  identify t _ := .ok (if t.bootstrapped then some bootstrapped.cap else none)
  recreate _ r :=
    let s := SignalSourceInfo.create inBootstrap r.core
    .ok (s.1, r.setCore s.2)
  parts := noParts

/-- `_identify_recreate_signal_sources`. -/
def identifyRecreateSignalSources (inBootstrap : Bool) (stored : List StoredSignalSourceInfo)
    (sources : List SignalSourceInfo) (r : Restorer) :
    Except Err (List SignalSourceInfo × Restorer) :=
  match sources with
  | [] => .error (.exception "There is no bootstrapped Signal source info")
  | bootstrapped :: _ => (signalSourceKind inBootstrap bootstrapped).run stored sources r

/-- The signal source of a stored context; its translation is not
checked. -/
def contextSource (t : StoredSignalContextInfo) (r : Restorer) : Except Err Cap :=
  if t.signalSourceBadge ≠ 0 then
    match r.translate t.signalSourceBadge with
    | some restoCap => .ok restoCap
    | none => .error .nullPointer
  else .ok Cap.invalid

/-- Signal contexts, of which none is there yet. -/
def signalContextKind (inBootstrap : Bool) :
    RestoKind StoredSignalContextInfo SignalContextInfo where
  badge := (·.badge)
  kcap := (·.kcap)
  cap := (·.cap)
  identify _ _ := .ok none
  recreate t r := do
    let ssCap ← contextSource t r
    let c := SignalContextInfo.create ssCap t.imprint inBootstrap r.core
    .ok (c.1, r.setCore c.2)
  parts := noParts

/-- `_identify_recreate_signal_contexts`. -/
def identifyRecreateSignalContexts (inBootstrap : Bool) (stored : List StoredSignalContextInfo)
    (contexts : List SignalContextInfo) (r : Restorer) :
    Except Err (List SignalContextInfo × Restorer) :=
  (signalContextKind inBootstrap).run stored contexts r

/-- A region map of a PD session, and its dataspace. -/
def addRegionMap (t : StoredRegionMapInfo) (rm : RegionMapComponent) (r : Restorer) : Restorer :=
  (r.addTranslation t.badge rm.cap).addTranslation t.dsBadge rm.parentState.dsCap

/-- What follows the translation of a PD session. -/
def pdSessionParts (inBootstrap : Bool) (t : StoredPdSessionInfo) (pd : PdSessionComponent)
    (r : Restorer) : Except Err (PdSessionComponent × Restorer) := do
  let sources ← identifyRecreateSignalSources inBootstrap t.storedSourceInfos
    pd.parentState.signalSources r
  let contexts ← identifyRecreateSignalContexts inBootstrap t.storedContextInfos
    pd.parentState.signalContexts sources.2
  .ok (pd.setSignals sources.1 contexts.1,
    addRegionMap t.storedLinkerArea pd.linkerArea <|
      addRegionMap t.storedStackArea pd.stackArea <|
        addRegionMap t.storedAddressSpace pd.addressSpace contexts.2)

/-- PD sessions; `bootstrapped` is the first session of the root. -/
def pdSessionKind (g : Genode) (inBootstrap : Bool) (bootstrapped : PdSessionComponent) :
    RestoKind StoredPdSessionInfo PdSessionComponent where
  badge := (·.badge)
  kcap := (·.kcap)
  cap := (·.cap)
  identify t _ := .ok (if t.bootstrapped then some bootstrapped.cap else none)
  recreate t r :=
    let s := PdSessionComponent.create g inBootstrap t.creationArgs r.core
    .ok (s.1, r.setCore s.2)
  parts := pdSessionParts inBootstrap

/-- `_identify_recreate_pd_sessions`. -/
def identifyRecreatePdSessions (g : Genode) (inBootstrap : Bool)
    (stored : List StoredPdSessionInfo) (pdRoot : List PdSessionComponent) (r : Restorer) :
    Except Err (List PdSessionComponent × Restorer) :=
  match pdRoot with
  | [] => .error (.exception "There is no bootstrapped PD session")
  | bootstrapped :: _ => (pdSessionKind g inBootstrap bootstrapped).run stored pdRoot r

/-! ## CPU sessions -/

/-- The PD session a thread is created in. -/
def threadPdSession (t : StoredCpuThreadInfo) (pdSessions : List PdSessionComponent)
    (r : Restorer) : Except Err PdSessionComponent :=
  match r.translate t.pdSessionBadge with
  | none =>
      .error (notFound "Could not find translation for stored PD session badge=" t.pdSessionBadge)
  | some restoCap =>
      match findByBadge (·.cap.localName) restoCap.localName pdSessions with
      | some pdSession => .ok pdSession
      | none => .error (notFound "Could not find PD session for " restoCap.localName)

/-- Threads. A bootstrapped one is looked up by its name, in the list as
it is when its turn comes. -/
def cpuThreadKind (inBootstrap : Bool) (pdSessions : List PdSessionComponent) :
    RestoKind StoredCpuThreadInfo CpuThreadComponent where
  badge := (·.badge)
  kcap := (·.kcap)
  cap := (·.cap)
  identify t threads :=
    if t.bootstrapped then
      match threads.find? fun c => c.parentState.name == t.name with
      | some c => .ok (some c.cap)
      | none =>
          .error (.exception ("Could not find bootstrapped CPU thread for name=" ++ t.name))
    else .ok none
  recreate t r := do
    let pdSession ← threadPdSession t pdSessions r
    let c := CpuThreadComponent.create pdSession.cap t.name t.affinity t.weight t.utcb inBootstrap
      r.core
    .ok (c.1, r.setCore c.2)
  parts := noParts

/-- `_identify_recreate_cpu_threads`. -/
def identifyRecreateCpuThreads (inBootstrap : Bool) (pdSessions : List PdSessionComponent)
    (stored : List StoredCpuThreadInfo) (s : CpuSessionComponent) (r : Restorer) :
    Except Err (CpuSessionComponent × Restorer) := do
  let threads ← (cpuThreadKind inBootstrap pdSessions).run stored s.parentState.cpuThreads r
  .ok (s.setThreads threads.1, threads.2)

/-- CPU sessions; `bootstrapped` is the first session of the root. -/
def cpuSessionKind (g : Genode) (inBootstrap : Bool) (pdSessions : List PdSessionComponent)
    (bootstrapped : CpuSessionComponent) :
    RestoKind StoredCpuSessionInfo CpuSessionComponent where
  badge := (·.badge)
  kcap := (·.kcap)
  cap := (·.cap)
  identify t _ := .ok (if t.bootstrapped then some bootstrapped.cap else none)
  recreate t r :=
    let s := CpuSessionComponent.create g inBootstrap t.creationArgs r.core
    .ok (s.1, r.setCore s.2)
  parts t := identifyRecreateCpuThreads inBootstrap pdSessions t.storedCpuThreadInfos

/-- `_identify_recreate_cpu_sessions`. -/
def identifyRecreateCpuSessions (g : Genode) (inBootstrap : Bool)
    (stored : List StoredCpuSessionInfo) (pdSessions : List PdSessionComponent)
    (cpuRoot : List CpuSessionComponent) (r : Restorer) :
    Except Err (List CpuSessionComponent × Restorer) :=
  match cpuRoot with
  | [] => .error (.exception "There is no bootstrapped CPU session")
  | bootstrapped :: _ =>
      (cpuSessionKind g inBootstrap pdSessions bootstrapped).run stored cpuRoot r

/-! ## RM, LOG and Timer sessions -/

/-- Region maps of an RM session, of which none is there yet. -/
def regionMapKind (inBootstrap : Bool) : RestoKind StoredRegionMapInfo RegionMapComponent where
  badge := (·.badge)
  kcap := (·.kcap)
  cap := (·.cap)
  identify _ _ := .ok none
  recreate t r :=
    let rm := RegionMapComponent.create t.size inBootstrap r.core
    .ok (rm.1, r.setCore rm.2)
  parts t rm r := .ok (rm, r.addTranslation t.dsBadge rm.parentState.dsCap)

/-- `_identify_recreate_region_maps`. -/
def identifyRecreateRegionMaps (inBootstrap : Bool) (stored : List StoredRegionMapInfo)
    (s : RmSessionComponent) (r : Restorer) : Except Err (RmSessionComponent × Restorer) := do
  let regionMaps ← (regionMapKind inBootstrap).run stored s.parentState.regionMaps r
  .ok (s.setRegionMaps regionMaps.1, regionMaps.2)

def rmSessionKind (g : Genode) (inBootstrap : Bool) :
    RestoKind StoredRmSessionInfo RmSessionComponent where
  badge := (·.badge)
  kcap := (·.kcap)
  cap := (·.cap)
  identify _ _ := .ok none
  recreate t r :=
    let s := RmSessionComponent.create g inBootstrap t.creationArgs r.core
    .ok (s.1, r.setCore s.2)
  parts t := identifyRecreateRegionMaps inBootstrap t.storedRegionMapInfos

def logSessionKind (g : Genode) (inBootstrap : Bool) :
    RestoKind StoredLogSessionInfo LogSessionComponent where
  badge := (·.badge)
  kcap := (·.kcap)
  cap := (·.cap)
  identify _ _ := .ok none
  recreate t r :=
    let s := LogSessionComponent.create g inBootstrap t.creationArgs r.core
    .ok (s.1, r.setCore s.2)
  parts := noParts

def timerSessionKind (g : Genode) (inBootstrap : Bool) :
    RestoKind StoredTimerSessionInfo TimerSessionComponent where
  badge := (·.badge)
  kcap := (·.kcap)
  cap := (·.cap)
  identify _ _ := .ok none
  recreate t r :=
    let s := TimerSessionComponent.create g inBootstrap t.creationArgs r.core
    .ok (s.1, r.setCore s.2)
  parts := noParts

/-- A service bootstrap does not use: its root is created if there are
stored sessions. -/
def identifyRecreateSessions {τ χ : Type} (k : RestoKind τ χ) (stored : List τ)
    (root : Option (List χ)) (r : Restorer) : Except Err (Option (List χ) × Restorer) :=
  if stored.isEmpty then .ok (root, r)
  else (k.run stored (sessionInfos root) r).map fun x => (some x.1, x.2)

/-- `_identify_recreate_rm_sessions`. -/
def identifyRecreateRmSessions (g : Genode) (inBootstrap : Bool) :=
  identifyRecreateSessions (rmSessionKind g inBootstrap)

/-- `_identify_recreate_log_sessions`. -/
def identifyRecreateLogSessions (g : Genode) (inBootstrap : Bool) :=
  identifyRecreateSessions (logSessionKind g inBootstrap)

/-- `_identify_recreate_timer_sessions`. -/
def identifyRecreateTimerSessions (g : Genode) (inBootstrap : Bool) :=
  identifyRecreateSessions (timerSessionKind g inBootstrap)

/-! ## The phase -/

/-- `_create_region_map_dataspaces`. -/
def createStoredRegionMapDataspaces (pdSessions : List StoredPdSessionInfo)
    (rmSessions : List StoredRmSessionInfo) : List Nat :=
  (pdSessions.flatMap (fun pd =>
      [pd.storedAddressSpace.dsBadge, pd.storedStackArea.dsBadge, pd.storedLinkerArea.dsBadge]) ++
    rmSessions.flatMap fun rm => rm.storedRegionMapInfos.map (·.dsBadge)).reverse

/-- All objects, kind by kind (caution: PD <- CPU thread). -/
def identifyRecreate (g : Genode) (st : TargetState) (child : TargetChild) (r : Restorer) :
    Except Err (CustomServices × Restorer) := do
  let ram ← identifyRecreateRamSessions g child.granularity child.inBootstrap st.ramSessions
    child.services.ramRoot r
  let pd ← identifyRecreatePdSessions g child.inBootstrap st.pdSessions child.services.pdRoot ram.2
  let cpu ← identifyRecreateCpuSessions g child.inBootstrap st.cpuSessions pd.1
    child.services.cpuRoot pd.2
  let rm ← identifyRecreateRmSessions g child.inBootstrap st.rmSessions child.services.rmRoot cpu.2
  let log ← identifyRecreateLogSessions g child.inBootstrap st.logSessions child.services.logRoot
    rm.2
  let timer ← identifyRecreateTimerSessions g child.inBootstrap st.timerSessions
    child.services.timerRoot log.2
  .ok ({ ramRoot := ram.1, pdRoot := pd.1, cpuRoot := cpu.1, rmRoot := rm.1, logRoot := log.1
         timerRoot := timer.1 }, timer.2)

end Rtcr
