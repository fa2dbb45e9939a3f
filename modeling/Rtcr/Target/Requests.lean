import Rtcr.Incremental.World
import Rtcr.Intercept.PdSession
import Rtcr.Target.Services

/-!
# Target.Requests — what a child asks of the intercepted sessions

The RPC interfaces of the session objects, and the requests of a child
over all of them. An object answers under its capability; a request to a
capability that no object has goes nowhere.

Functions that only forward to the parent leave no trace here.
`kill_thread` and `Rm_session::destroy` are no requests either: of an
object that the session knows they do not return, of any other one they
only log an error.
-/

namespace Rtcr

open Fallible Reconcile

/-! ## Region maps and threads -/

/-- In `attach`, `addr` is the address that the parent chose and `dsSize`
the size of the dataspace. -/
inductive RegionMapRequest
  | attach (dsCap : Cap) (size dsSize offset addr : Nat) (executable : Bool)
  | detach (localAddr : Nat)
  | faultHandler (handler : Cap)
deriving DecidableEq, Repr

def RegionMapComponent.serve (bootstrapPhase : Bool) (rm : RegionMapComponent) :
    RegionMapRequest → RegionMapComponent
  | .attach dsCap size dsSize offset addr executable =>
      rm.attach dsCap size dsSize offset addr executable bootstrapPhase
  | .detach localAddr => rm.detach localAddr
  | .faultHandler handler => rm.faultHandler handler

/-- `state` also stands for a thread that runs. -/
inductive ThreadRequest
  | start
  | pause
  | resume
  | state (state : ThreadState)
  | exceptionSigh (handler : Cap)
  | singleStep (enabled : Bool)
  | affinity (location : Location)
deriving DecidableEq, Repr

/-- `Cpu_thread_component::start`. -/
def CpuThreadComponent.start (t : CpuThreadComponent) : CpuThreadComponent :=
  { t with parentState := { t.parentState with started := true } }

/-- `Cpu_thread_component::affinity`. -/
def CpuThreadComponent.setAffinity (location : Location) (t : CpuThreadComponent) :
    CpuThreadComponent :=
  { t with parentState := { t.parentState with affinity := location } }

def CpuThreadComponent.serve (t : CpuThreadComponent) : ThreadRequest → CpuThreadComponent
  | .start => t.start
  | .pause => t.pause
  | .resume => t.resume
  | .state state => t.setState state
  | .exceptionSigh handler => t.exceptionSigh handler
  | .singleStep enabled => t.setSingleStep enabled
  | .affinity location => t.setAffinity location

/-! ## PD sessions -/

inductive PdRequest
  | allocSignalSource
  | freeSignalSource (cap : Cap)
  | allocContext (source : Cap) (imprint : Nat)
  | freeContext (cap : Cap)
  | allocRpcCap (ep : Cap)
  | freeRpcCap (cap : Cap)
  | addressSpace (request : RegionMapRequest)
  | stackArea (request : RegionMapRequest)
  | linkerArea (request : RegionMapRequest)
deriving DecidableEq, Repr

namespace PdSessionComponent

def setNativeCaps (nativeCaps : List NativeCapabilityInfo) (pd : PdSessionComponent) :
    PdSessionComponent :=
  { pd with parentState := { pd.parentState with nativeCaps := nativeCaps } }

/-- `Pd_session_component::alloc_rpc_cap`. -/
def allocRpcCap (ep : Cap) (bootstrapPhase : Bool) (pd : PdSessionComponent) (core : Core) :
    Cap × PdSessionComponent × Core :=
  let info : NativeCapabilityInfo :=
    { cap := core.newCap.1, epCap := ep, bootstrapped := bootstrapPhase
      timestamp := core.nativeCapabilityCount }
  (info.cap, pd.setNativeCaps (info :: pd.parentState.nativeCaps),
    { core.newCap.2 with nativeCapabilityCount := core.nativeCapabilityCount + 1 })

/-- `Pd_session_component::free_rpc_cap`. -/
def freeRpcCap (cap : Cap) (pd : PdSessionComponent) : PdSessionComponent :=
  pd.setNativeCaps
    (pd.parentState.nativeCaps.eraseP fun info => info.cap.localName == cap.localName)

def serve (bootstrapPhase : Bool) (request : PdRequest) (pd : PdSessionComponent) (core : Core) :
    PdSessionComponent × Core :=
  match request with
  | .allocSignalSource => (pd.allocSignalSource bootstrapPhase core).2
  | .freeSignalSource cap => (pd.freeSignalSource cap, core)
  | .allocContext source imprint => (pd.allocContext source imprint bootstrapPhase core).2
  | .freeContext cap => (pd.freeContext cap, core)
  | .allocRpcCap ep => (pd.allocRpcCap ep bootstrapPhase core).2
  | .freeRpcCap cap => (pd.freeRpcCap cap, core)
  | .addressSpace request =>
      ({ pd with addressSpace := pd.addressSpace.serve bootstrapPhase request }, core)
  | .stackArea request =>
      ({ pd with stackArea := pd.stackArea.serve bootstrapPhase request }, core)
  | .linkerArea request =>
      ({ pd with linkerArea := pd.linkerArea.serve bootstrapPhase request }, core)

end PdSessionComponent

/-! ## CPU sessions -/

inductive CpuRequest
  | createThread (pdSessionCap : Cap) (name : String) (affinity : Location) (weight utcb : Nat)
  | exceptionSigh (handler : Cap)
  | thread (cap : Cap) (request : ThreadRequest)
deriving DecidableEq, Repr

/-- `pdSessions` are the sessions of `_pd_root`. For a PD session that is
not among them `create_thread` throws before it does anything. -/
def CpuSessionComponent.serve (bootstrapPhase : Bool) (pdSessions : List PdSessionComponent)
    (request : CpuRequest) (s : CpuSessionComponent) (core : Core) : CpuSessionComponent × Core :=
  match request with
  | .createThread pdSessionCap name affinity weight utcb =>
      match findByBadge (·.cap.localName) pdSessionCap.localName pdSessions with
      | some _ =>
          let thread := CpuThreadComponent.create pdSessionCap name affinity weight utcb
            bootstrapPhase core
          (s.setThreads (thread.1 :: s.parentState.cpuThreads), thread.2)
      | none => (s, core)
  | .exceptionSigh handler => (s.exceptionSigh handler, core)
  | .thread cap request =>
      (s.setThreads (List.modifyFirst (·.cap == cap) (·.serve request) s.parentState.cpuThreads), core)

/-! ## RAM sessions -/

/-- `quota` is what a transfer leaves the session with, at core; `fault`
and `handleFault` are those of managed dataspaces. -/
inductive RamRequest
  | refAccount (cap : Cap)
  | quota (quota : Nat)
  | alloc (size : Nat) (cacheAttr : CacheAttribute)
  | free (ds : Cap)
  | fault (ds : Cap) (addr : Nat)
  | handleFault
deriving DecidableEq, Repr

namespace RamSessionComponent

/-- `Ram_session_component::ref_account`. -/
def refAccount (cap : Cap) (s : RamSessionComponent) : RamSessionComponent :=
  { s with parentState := { s.parentState with refAccountCap := cap } }

def setQuota (quota : Nat) (s : RamSessionComponent) : RamSessionComponent :=
  { s with parentRam := { s.parentRam with quota := quota } }

/-- An access to a page that is not there. -/
def faultAt (ds : Cap) (addr : Nat) (s : RamSessionComponent) : RamSessionComponent :=
  s.setRamDataspaces <| List.modifyFirst (·.cap == ds)
    (fun info => { info with
      mrmInfo := info.mrmInfo.map fun mrm =>
        if mrm.present addr then mrm else { mrm with faults := addr :: mrm.faults } })
    s.parentState.ramDataspaces

/-- Where `alloc` throws, the session is as before; so it is where the
fault handler goes wrong. -/
def serve (bootstrapPhase : Bool) (request : RamRequest) (s : RamSessionComponent) (core : Core) :
    RamSessionComponent × Core :=
  match request with
  | .refAccount cap => (s.refAccount cap, core)
  | .quota quota => (s.setQuota quota, core)
  | .alloc size cacheAttr => ((s.alloc size cacheAttr bootstrapPhase core).map (·.2)).getD (s, core)
  | .free ds => (s.free ds, core)
  | .fault ds addr => (s.faultAt ds addr, core)
  | .handleFault =>
      match Rtcr.handleFault s.parentState.ramDataspaces with
      | .ok infos => (s.setRamDataspaces infos, core)
      | .error _ => (s, core)

end RamSessionComponent

/-! ## RM, LOG and Timer sessions -/

inductive RmRequest
  | create (size : Nat)
  | regionMap (cap : Cap) (request : RegionMapRequest)
deriving DecidableEq, Repr

def RmSessionComponent.serve (bootstrapPhase : Bool) (request : RmRequest)
    (s : RmSessionComponent) (core : Core) : RmSessionComponent × Core :=
  match request with
  | .create size =>
      let rm := RegionMapComponent.create size bootstrapPhase core
      (s.setRegionMaps (rm.1 :: s.parentState.regionMaps), rm.2)
  | .regionMap cap request =>
      (s.setRegionMaps (List.modifyFirst (·.cap == cap) (·.serve bootstrapPhase request)
        s.parentState.regionMaps), core)

inductive TimerRequest
  | triggerOnce (us : Nat)
  | triggerPeriodic (us : Nat)
  | sigh (handler : Cap)
  | msleep (ms : Nat)
  | usleep (us : Nat)
deriving DecidableEq, Repr

/-- `unsigned` has 32 bits: the timeout of `msleep` may wrap. -/
def TimerSessionComponent.serve (s : TimerSessionComponent) : TimerRequest → TimerSessionComponent
  | .triggerOnce us => s.trigger us false
  | .triggerPeriodic us => s.trigger us true
  | .sigh handler => s.setSigh handler
  | .msleep ms => s.trigger (1000 * ms % 2 ^ 32) false
  | .usleep us => s.trigger us false

/-! ## A child -/

/-- The request of a child, or of what runs beside it. -/
inductive ChildRequest
  | session (name args : String)
  | upgrade (service : CustomService) (cap : Cap) (args : String)
  | close (service : CustomService) (cap : Cap)
  | pd (cap : Cap) (request : PdRequest)
  | cpu (cap : Cap) (request : CpuRequest)
  | ram (cap : Cap) (request : RamRequest)
  | rm (cap : Cap) (request : RmRequest)
  | timer (cap : Cap) (request : TimerRequest)
  /-- `Native_pd::cap_map_info`, from the startup code of the child -/
  | capMapInfo (addr : Nat)
  /-- core hands out capabilities to others, the counters of the records
  count on, memory changes -/
  | elsewhere (badges ramDataspaces nativeCapabilities : Nat) (bytes : ByteStore.Store Nat UInt8)

namespace MonitoredChild

/-- A request to the object with the capability, if there is one. -/
def serveAt {α : Type} (cap : α → Cap) (c : Cap) (f : α → Core → α × Core) (l : List α)
    (core : Core) : List α × Core :=
  updateFirst (fun x => cap x == c) f l core

/-- `_upgrade_session` of the root. -/
def upgrade (g : Genode) (args : String) (cap : Cap) (m : MonitoredChild) :
    CustomService → MonitoredChild
  | .pd => m.setServices { m.child.services with
      pdRoot := List.modifyFirst (·.cap == cap) (·.upgrade g args) m.child.services.pdRoot }
  | .cpu => m.setServices { m.child.services with
      cpuRoot := List.modifyFirst (·.cap == cap) (·.upgrade g args) m.child.services.cpuRoot }
  | .ram => m.setServices { m.child.services with
      ramRoot := List.modifyFirst (·.cap == cap) (·.upgrade g args) m.child.services.ramRoot }
  | .rom => m
  | .rm => m.setServices { m.child.services with
      rmRoot := m.child.services.rmRoot.map (List.modifyFirst (·.cap == cap) (·.upgrade g args)) }
  | .log => m.setServices { m.child.services with
      logRoot := m.child.services.logRoot.map (List.modifyFirst (·.cap == cap) (·.upgrade g args)) }
  | .timer => m.setServices { m.child.services with
      timerRoot :=
        m.child.services.timerRoot.map (List.modifyFirst (·.cap == cap) (·.upgrade g args)) }

/-- `_destroy_session` of the root. The three sessions of `_resources`
are not the child's to close. -/
def close (cap : Cap) (m : MonitoredChild) : CustomService → MonitoredChild
  | .pd =>
      if cap = m.child.pd then m
      else m.setServices { m.child.services with
        pdRoot := m.child.services.pdRoot.eraseP (·.cap == cap) }
  | .cpu =>
      if cap = m.child.cpu then m
      else m.setServices { m.child.services with
        cpuRoot := m.child.services.cpuRoot.eraseP (·.cap == cap) }
  | .ram =>
      if cap = m.child.ram then m
      else m.setServices { m.child.services with
        ramRoot := m.child.services.ramRoot.eraseP (·.cap == cap) }
  | .rom => m
  | .rm => m.setServices { m.child.services with
      rmRoot := m.child.services.rmRoot.map (List.eraseP (·.cap == cap)) }
  | .log => m.setServices { m.child.services with
      logRoot := m.child.services.logRoot.map (List.eraseP (·.cap == cap)) }
  | .timer => m.setServices { m.child.services with
      timerRoot := m.child.services.timerRoot.map (List.eraseP (·.cap == cap)) }

/-- The lists and core after a request to a session. -/
def setServed (services : CustomServices) (core : Core) (m : MonitoredChild) : MonitoredChild :=
  { m.setServices services with core := core }

def serve (g : Genode) (m : MonitoredChild) : ChildRequest → Except Err MonitoredChild
  | .session name args => m.openSession g name args
  | .upgrade service cap args => .ok (m.upgrade g args cap service)
  | .close service cap => .ok (m.close cap service)
  | .pd cap request =>
      let served := serveAt (·.cap) cap (PdSessionComponent.serve m.child.inBootstrap request)
        m.child.services.pdRoot m.core
      .ok (m.setServed { m.child.services with pdRoot := served.1 } served.2)
  | .cpu cap request =>
      let served := serveAt (·.cap) cap
        (CpuSessionComponent.serve m.child.inBootstrap m.child.services.pdRoot request)
        m.child.services.cpuRoot m.core
      .ok (m.setServed { m.child.services with cpuRoot := served.1 } served.2)
  | .ram cap request =>
      let served := serveAt (·.cap) cap (RamSessionComponent.serve m.child.inBootstrap request)
        m.child.services.ramRoot m.core
      .ok (m.setServed { m.child.services with ramRoot := served.1 } served.2)
  | .rm cap request =>
      match m.child.services.rmRoot with
      | some sessions =>
          let served := serveAt (·.cap) cap (RmSessionComponent.serve m.child.inBootstrap request)
            sessions m.core
          .ok (m.setServed { m.child.services with rmRoot := some served.1 } served.2)
      | none => .ok m
  | .timer cap request => .ok (m.setServices { m.child.services with
      timerRoot :=
        m.child.services.timerRoot.map (List.modifyFirst (·.cap == cap) (·.serve request)) })
  | .capMapInfo addr => .ok { m with child := { m.child with capMapInfo := addr } }
  | .elsewhere badges ramDataspaces nativeCapabilities bytes =>
      .ok { m with
        core :=
          { nextBadge := m.core.nextBadge + badges
            bytes := bytes
            ramDataspaceCount := m.core.ramDataspaceCount + ramDataspaces
            nativeCapabilityCount := m.core.nativeCapabilityCount + nativeCapabilities } }

/-- A request that is answered. -/
def Step (g : Genode) (m : MonitoredChild) (request : ChildRequest) (m' : MonitoredChild) : Prop :=
  m.serve g request = .ok m'

end MonitoredChild

end Rtcr
