import Rtcr.Restorer.Restore

/-!
# Target.Services — `Target_child` and the services of a child

The sessions that a child starts with, the services it can open further
sessions of, and the policy `resolve_session_request`: the first request
for "LOG" ends bootstrap and is where a child is restored.

The arguments of a session request are those that `filter_session_args`
has put the label into. Services are known by pointer, so the name that a
`Local_service` carries is left out.
-/

namespace Rtcr

open Fallible

/-! ## The child and its surroundings -/

/-- The services that the RTCR intercepts. -/
inductive CustomService
  | pd
  | cpu
  | ram
  | rom
  | rm
  | log
  | timer
deriving DecidableEq, Repr

inductive Service
  | custom (service : CustomService)
  | parent (name : String)
deriving DecidableEq, Repr

/-- `Target_child` with core and the registry of parent services. -/
structure MonitoredChild where
  child : TargetChild
  core : Core
  /-- the ROM root exists; ROM sessions are not recorded -/
  romRoot : Bool
  parentServices : List String
  /-- the state that `_restorer` is about to restore -/
  restorer : Option TargetState

/-! ## Sessions of a new child -/

/-- On the 32-bit platforms of the repository. -/
def sizeofLong : Nat := 4

/-- The default weight and the location of an initial thread, which
Genode chooses. -/
structure InitialThread where
  weight : Nat
  affinity : Location
deriving DecidableEq, Repr

/-- The arguments in `Resources::init_pd`. -/
def pdArgs (label : String) : String :=
  "ram_quota=" ++ toString (20 * 1024 * sizeofLong) ++ ", label=\"" ++ label ++ "\""

/-- The arguments in `Resources::init_cpu`. -/
def cpuArgs (label : String) : String :=
  "priority=0x0, ram_quota=" ++ toString (128 * 1024) ++ ", label=\"" ++ label ++ "\""

/-- The arguments in `Resources::init_ram`. -/
def ramArgs (label : String) : String :=
  "ram_quota=" ++ toString (4 * 1024 * sizeofLong) ++ ", phys_start=0x0, phys_size=0x0, label=\"" ++
    label ++ "\""

/-- The donation of `Resources`. -/
def donateQuota : Nat := 1024 * 1024

namespace MonitoredChild

/-- The constructor: one session of PD, CPU and RAM, and the initial
thread. `ramSessionCap` is the RTCR's own RAM session. -/
def construct (g : Genode) (label : String) (granularity : Nat) (initial : InitialThread)
    (ramSessionCap : Cap) (parentServices : List String) (core : Core) : MonitoredChild :=
  let pd := PdSessionComponent.create g true (pdArgs label) core
  let cpu := CpuSessionComponent.create g true (cpuArgs label) pd.2
  let ram := RamSessionComponent.create g granularity true (ramArgs label) cpu.2
  let thread := CpuThreadComponent.create pd.1.cap label initial.affinity initial.weight 0 true ram.2
  let donated : RamSessionComponent :=
    { ram.1 with
      parentState := { ram.1.parentState with refAccountCap := ramSessionCap }
      parentRam := { ram.1.parentRam with quota := donateQuota } }
  { child :=
      { services :=
          { pdRoot := [pd.1], cpuRoot := [cpu.1.setThreads [thread.1]], ramRoot := [donated]
            rmRoot := none, logRoot := none, timerRoot := none }
        pd := pd.1.cap, cpu := cpu.1.cap, ram := ram.1.cap, granularity := granularity
        capMapInfo := 0, inBootstrap := true }
    core := thread.2
    romRoot := false
    parentServices := parentServices
    restorer := none }

/-- `start(restorer)`. -/
def startFrom (state : TargetState) (m : MonitoredChild) : MonitoredChild :=
  { m with restorer := some state }

/-! ## Session requests -/

def setServices (services : CustomServices) (m : MonitoredChild) : MonitoredChild :=
  { m with child := { m.child with services := services } }

/-- `if(!root) root = new ...`. -/
def orEmpty {α : Type} (root : Option (List α)) : Option (List α) := some (root.getD [])

/-- `Custom_services::find`. The roots of ROM, RM, LOG and Timer are
created where they are asked for first. -/
def findCustom (name : String) (m : MonitoredChild) : Option CustomService × MonitoredChild :=
  let s := m.child.services
  if name = "PD" then (some .pd, m)
  else if name = "CPU" then (some .cpu, m)
  else if name = "RAM" then (some .ram, m)
  else if name = "ROM" then (some .rom, { m with romRoot := true })
  else if name = "RM" then (some .rm, m.setServices { s with rmRoot := orEmpty s.rmRoot })
  else if name = "LOG" then (some .log, m.setServices { s with logRoot := orEmpty s.logRoot })
  else if name = "Timer" then
    (some .timer, m.setServices { s with timerRoot := orEmpty s.timerRoot })
  else (none, m)

/-- The first request for "LOG" ends bootstrap. -/
def endBootstrap (name : String) (m : MonitoredChild) : MonitoredChild :=
  if name = "LOG" ∧ m.child.inBootstrap = true then
    { m with child := { m.child with inBootstrap := false } }
  else m

/-- The restoration hook. -/
def hook (g : Genode) (name : String) (m : MonitoredChild) : Except Err MonitoredChild :=
  if name = "LOG" then
    match m.restorer with
    | some state => do
        let restored ← Restorer.restore g state m.child (.new m.core)
        .ok { m with child := restored.1, core := restored.2, restorer := none }
    | none => .ok m
  else .ok m

/-- The lookup of `resolve_session_request`; an unknown service is
expected at the parent. -/
def lookup (name : String) (m : MonitoredChild) : Service × MonitoredChild :=
  if name ∈ m.parentServices then (.parent name, m)
  else
    match m.findCustom name with
    | (some service, m) => (.custom service, m)
    | (none, m) => (.parent name, { m with parentServices := name :: m.parentServices })

/-- `resolve_session_request`. -/
def resolveSessionRequest (g : Genode) (name : String) (m : MonitoredChild) :
    Except Err (Service × MonitoredChild) := do
  let m ← (m.endBootstrap name).hook g name
  .ok (m.lookup name)

/-- `_create_session` of the root of a custom service. -/
def createSession (g : Genode) (args : String) (service : CustomService) (m : MonitoredChild) :
    MonitoredChild :=
  let s := m.child.services
  let boot := m.child.inBootstrap
  match service with
  | .pd =>
      let new := PdSessionComponent.create g boot args m.core
      { m.setServices { s with pdRoot := new.1 :: s.pdRoot } with core := new.2 }
  | .cpu =>
      let new := CpuSessionComponent.create g boot args m.core
      { m.setServices { s with cpuRoot := new.1 :: s.cpuRoot } with core := new.2 }
  | .ram =>
      let new := RamSessionComponent.create g m.child.granularity boot args m.core
      { m.setServices { s with ramRoot := new.1 :: s.ramRoot } with core := new.2 }
  | .rom => { m with core := m.core.newCap.2 }
  | .rm =>
      let new := RmSessionComponent.create g boot args m.core
      { m.setServices { s with rmRoot := s.rmRoot.map (new.1 :: ·) } with core := new.2 }
  | .log =>
      let new := LogSessionComponent.create g boot args m.core
      { m.setServices { s with logRoot := s.logRoot.map (new.1 :: ·) } with core := new.2 }
  | .timer =>
      let new := TimerSessionComponent.create g boot args m.core
      { m.setServices { s with timerRoot := s.timerRoot.map (new.1 :: ·) } with core := new.2 }

/-- A session request of the child. A session at the parent is not
recorded. -/
def openSession (g : Genode) (name args : String) (m : MonitoredChild) :
    Except Err MonitoredChild := do
  match ← m.resolveSessionRequest g name with
  | (.custom service, m) => .ok (m.createSession g args service)
  | (.parent _, m) => .ok m

end MonitoredChild

end Rtcr
