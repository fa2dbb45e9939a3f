import Rtcr.Intercept.CpuSession
import Rtcr.Intercept.RamSession

/-!
# Objects — new sessions and what is created in them

What the roots and sessions of `intercept/` do when a session, a signal
source, a signal context, a thread or a region map is created: the parent
creates its counterpart, the new object goes to the head of its list.
-/

namespace Rtcr

/-- What the RTCR asks of Genode about session arguments and dataspaces. -/
structure Genode where
  /-- `Arg_string::find_arg(args, "ram_quota").ulong_value(0)` -/
  ramQuota : String → Nat
  /-- `Arg_string::set_arg(args, ..., "ram_quota", ...)` -/
  setRamQuota : String → Nat → String
  /-- `Dataspace_client::size` -/
  dataspaceSize : Cap → Nat

/-- The arguments `_create_session` keeps: the root component has taken
the size of the session object off the quota, it is added again. -/
def Genode.createdArgs (g : Genode) (args : String) : String :=
  g.setRamQuota args (g.ramQuota args)

/-- The arguments `_upgrade_session` keeps; the parent is upgraded by the
new ones. -/
def Genode.upgradedArgs (g : Genode) (upgradeArgs args : String) : String :=
  g.setRamQuota upgradeArgs (g.ramQuota upgradeArgs + g.ramQuota args)

/-! ## Region maps, RM sessions -/

/-- `Region_map_component`: its capability and that of the parent's
region-map dataspace are new. -/
def RegionMapComponent.create (size : Nat) (bootstrapPhase : Bool) (core : Core) :
    RegionMapComponent × Core :=
  ({ cap := core.newCap.1
     parentState :=
       { size := size, dsCap := core.newCap.2.newCap.1, sigh := Cap.invalid
         bootstrapped := bootstrapPhase, attachedRegions := [] } },
    core.newCap.2.newCap.2)

/-- `Region_map_component::fault_handler`. -/
def RegionMapComponent.faultHandler (handler : Cap) (rm : RegionMapComponent) :
    RegionMapComponent :=
  { rm with parentState := { rm.parentState with sigh := handler } }

/-- `Rm_root::_create_session`. -/
def RmSessionComponent.create (g : Genode) (bootstrapPhase : Bool) (args : String) (core : Core) :
    RmSessionComponent × Core :=
  ({ cap := core.newCap.1
     parentState :=
       { creationArgs := g.createdArgs args, upgradeArgs := "", bootstrapped := bootstrapPhase
         regionMaps := [] }
     parentUpgraded := 0 },
    core.newCap.2)

/-- `Rm_root::_upgrade_session`. -/
def RmSessionComponent.upgrade (g : Genode) (args : String) (s : RmSessionComponent) :
    RmSessionComponent :=
  { s with
    parentState := { s.parentState with upgradeArgs := g.upgradedArgs s.parentState.upgradeArgs args }
    parentUpgraded := s.parentUpgraded + g.ramQuota args }

/-- The session with other region maps. -/
def RmSessionComponent.setRegionMaps (regionMaps : List RegionMapComponent)
    (s : RmSessionComponent) : RmSessionComponent :=
  { s with parentState := { s.parentState with regionMaps := regionMaps } }

/-! ## PD sessions -/

/-- `Pd_root::_create_session`: the region maps come with the session. -/
def PdSessionComponent.create (g : Genode) (bootstrapPhase : Bool) (args : String) (core : Core) :
    PdSessionComponent × Core :=
  let addressSpace := RegionMapComponent.create 0 bootstrapPhase core
  let stackArea := RegionMapComponent.create 0 bootstrapPhase addressSpace.2
  let linkerArea := RegionMapComponent.create 0 bootstrapPhase stackArea.2
  ({ cap := linkerArea.2.newCap.1
     parentState :=
       { creationArgs := g.createdArgs args, upgradeArgs := "", bootstrapped := bootstrapPhase
         signalSources := [], signalContexts := [], nativeCaps := [] }
     addressSpace := addressSpace.1
     stackArea := stackArea.1
     linkerArea := linkerArea.1
     parentUpgraded := 0 },
    linkerArea.2.newCap.2)

/-- `Pd_root::_upgrade_session`. -/
def PdSessionComponent.upgrade (g : Genode) (args : String) (s : PdSessionComponent) :
    PdSessionComponent :=
  { s with
    parentState := { s.parentState with upgradeArgs := g.upgradedArgs s.parentState.upgradeArgs args }
    parentUpgraded := s.parentUpgraded + g.ramQuota args }

/-- The session with other signal sources and contexts. -/
def PdSessionComponent.setSignals (sources : List SignalSourceInfo)
    (contexts : List SignalContextInfo) (pd : PdSessionComponent) : PdSessionComponent :=
  { pd with parentState :=
      { pd.parentState with signalSources := sources, signalContexts := contexts } }

/-- The record of `Pd_session_component::alloc_signal_source`. -/
def SignalSourceInfo.create (bootstrapPhase : Bool) (core : Core) : SignalSourceInfo × Core :=
  (⟨core.newCap.1, bootstrapPhase⟩, core.newCap.2)

/-- The record of `Pd_session_component::alloc_context`. -/
def SignalContextInfo.create (source : Cap) (imprint : Nat) (bootstrapPhase : Bool)
    (core : Core) : SignalContextInfo × Core :=
  (⟨core.newCap.1, source, imprint, bootstrapPhase⟩, core.newCap.2)

/-! ## CPU sessions -/

/-- `Cpu_root::_create_session`. -/
def CpuSessionComponent.create (g : Genode) (bootstrapPhase : Bool) (args : String)
    (core : Core) : CpuSessionComponent × Core :=
  ({ cap := core.newCap.1
     parentState :=
       { creationArgs := g.createdArgs args, upgradeArgs := "", bootstrapped := bootstrapPhase
         sigh := Cap.invalid, cpuThreads := [] }
     parentUpgraded := 0 },
    core.newCap.2)

/-- `Cpu_root::_upgrade_session`. -/
def CpuSessionComponent.upgrade (g : Genode) (args : String) (s : CpuSessionComponent) :
    CpuSessionComponent :=
  { s with
    parentState := { s.parentState with upgradeArgs := g.upgradedArgs s.parentState.upgradeArgs args }
    parentUpgraded := s.parentUpgraded + g.ramQuota args }

/-- The session with other threads. -/
def CpuSessionComponent.setThreads (threads : List CpuThreadComponent)
    (s : CpuSessionComponent) : CpuSessionComponent :=
  { s with parentState := { s.parentState with cpuThreads := threads } }

/-- `Cpu_session_component::exception_sigh`. -/
def CpuSessionComponent.exceptionSigh (handler : Cap) (s : CpuSessionComponent) :
    CpuSessionComponent :=
  { s with parentState := { s.parentState with sigh := handler } }

/-- `Cpu_session_component::_create_thread`. -/
def CpuThreadComponent.create (pdSessionCap : Cap) (name : String) (affinity : Location)
    (weight utcb : Nat) (bootstrapPhase : Bool) (core : Core) : CpuThreadComponent × Core :=
  ({ cap := core.newCap.1
     parentState :=
       { pdSessionCap := pdSessionCap, name := name, weight := weight, utcb := utcb
         bootstrapped := bootstrapPhase, started := false, paused := false, singleStep := false
         affinity := affinity, sigh := Cap.invalid }
     parent := { paused := false, state := ⟨[]⟩ } },
    core.newCap.2)

/-- `Cpu_thread_component::exception_sigh`. -/
def CpuThreadComponent.exceptionSigh (handler : Cap) (t : CpuThreadComponent) :
    CpuThreadComponent :=
  { t with parentState := { t.parentState with sigh := handler } }

/-- `Cpu_thread_component::single_step`. -/
def CpuThreadComponent.setSingleStep (enabled : Bool) (t : CpuThreadComponent) :
    CpuThreadComponent :=
  { t with parentState := { t.parentState with singleStep := enabled } }

/-- `Cpu_thread_component::state(state)`: the registers, at core. -/
def CpuThreadComponent.setState (state : ThreadState) (t : CpuThreadComponent) :
    CpuThreadComponent :=
  { t with parent := { t.parent with state := state } }

/-! ## RAM, LOG and Timer sessions -/

/-- A new RAM session has no quota of its own yet. -/
def RamSessionComponent.create (g : Genode) (granularity : Nat) (bootstrapPhase : Bool)
    (args : String) (core : Core) : RamSessionComponent × Core :=
  ({ cap := core.newCap.1
     parentState :=
       { creationArgs := g.createdArgs args, upgradeArgs := "", bootstrapped := bootstrapPhase
         refAccountCap := Cap.invalid, ramDataspaces := [] }
     granularity := granularity
     parentRam := { quota := 0, dataspaces := [], wildFrees := [] }
     parentRm := []
     receiver := []
     mdAlloc := []
     parentUpgraded := 0 },
    core.newCap.2)

/-- `Ram_root::_upgrade_session`. -/
def RamSessionComponent.upgrade (g : Genode) (args : String) (s : RamSessionComponent) :
    RamSessionComponent :=
  { s with
    parentState := { s.parentState with upgradeArgs := g.upgradedArgs s.parentState.upgradeArgs args }
    parentUpgraded := s.parentUpgraded + g.ramQuota args }

/-- `Log_root::_create_session`. -/
def LogSessionComponent.create (g : Genode) (bootstrapPhase : Bool) (args : String)
    (core : Core) : LogSessionComponent × Core :=
  ({ cap := core.newCap.1
     parentState :=
       { creationArgs := g.createdArgs args, upgradeArgs := "", bootstrapped := bootstrapPhase }
     parentUpgraded := 0 },
    core.newCap.2)

/-- `Log_root::_upgrade_session`. -/
def LogSessionComponent.upgrade (g : Genode) (args : String) (s : LogSessionComponent) :
    LogSessionComponent :=
  { s with
    parentState := { s.parentState with upgradeArgs := g.upgradedArgs s.parentState.upgradeArgs args }
    parentUpgraded := s.parentUpgraded + g.ramQuota args }

/-- `Timer_root::_create_session`. -/
def TimerSessionComponent.create (g : Genode) (bootstrapPhase : Bool) (args : String)
    (core : Core) : TimerSessionComponent × Core :=
  ({ cap := core.newCap.1
     parentState :=
       { creationArgs := g.createdArgs args, upgradeArgs := "", bootstrapped := bootstrapPhase
         sigh := Cap.invalid, timeout := 0, periodic := false }
     parentUpgraded := 0 },
    core.newCap.2)

/-- `Timer_root::_upgrade_session`. -/
def TimerSessionComponent.upgrade (g : Genode) (args : String) (s : TimerSessionComponent) :
    TimerSessionComponent :=
  { s with
    parentState := { s.parentState with upgradeArgs := g.upgradedArgs s.parentState.upgradeArgs args }
    parentUpgraded := s.parentUpgraded + g.ramQuota args }

/-- `Timer_session_component::sigh`. -/
def TimerSessionComponent.setSigh (handler : Cap) (s : TimerSessionComponent) :
    TimerSessionComponent :=
  { s with parentState := { s.parentState with sigh := handler } }

/-- `trigger_once` and `trigger_periodic`. -/
def TimerSessionComponent.trigger (us : Nat) (periodic : Bool) (s : TimerSessionComponent) :
    TimerSessionComponent :=
  { s with parentState := { s.parentState with timeout := us, periodic := periodic } }

end Rtcr
