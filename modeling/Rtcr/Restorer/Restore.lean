import Rtcr.Restorer.CapMap
import Rtcr.Restorer.Identify
import Rtcr.Restorer.RestoreState

/-!
# Restorer.Restore — `Restorer::restore`

The phases in order: identify or recreate all objects, restore their
states, replace managed dataspaces in the work list, merge the capability
arrays, install the capabilities, copy the memory.
-/

namespace Rtcr

open Fallible

/-- What is there when the memory is copied. -/
structure BeforeCopy where
  child : TargetChild
  restorer : Restorer
  installed : List CapKcapInfo

namespace Restorer

/-- The two phases that walk over the objects. -/
def restoreObjects (g : Genode) (st : TargetState) (child : TargetChild) (r : Restorer) :
    Except Err (CustomServices × Restorer) := do
  let r := { r with
    regionMapDataspacesFromStored := createStoredRegionMapDataspaces st.pdSessions st.rmSessions }
  let identified ← identifyRecreate g st child r
  restoreState g child.inBootstrap st identified.1 identified.2

/-- `restore()` up to the memory phase. -/
def untilCopy (g : Genode) (st : TargetState) (child : TargetChild) (r : Restorer) :
    Except Err BeforeCopy := do
  let restored ← restoreObjects g st child r
  let child := { child with services := restored.1 }
  let r := { restored.2 with
    memoryToRestore :=
      resolveIncCheckpointDataspaces child.services.ramRoot restored.2.memoryToRestore }
  let core ← restoreCapMap g child st r.capabilityMapInfos r.core
  .ok { child := child
        restorer := r.setCore core
        installed := restoreCapSpace r.capabilityMapInfos }

/-- `_restore_dataspaces`. -/
def restoreDataspaces (memoryInfos : List OrigCopyInfo) (core : Core) : Option Err × Core :=
  copyMemory memoryInfos core

/-- `restore()`. -/
def restore (g : Genode) (st : TargetState) (child : TargetChild) (r : Restorer) :
    Except Err (TargetChild × Core) := do
  let before ← untilCopy g st child r
  match restoreDataspaces before.restorer.memoryToRestore before.restorer.core with
  | (none, core) => .ok (before.child, core)
  | (some e, _) => .error e

end Restorer

end Rtcr
