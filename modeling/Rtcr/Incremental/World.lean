import Rtcr.Checkpointer.Counts
import Rtcr.Incremental.Copies
import Rtcr.Incremental.Marks

/-!
# Incremental.World — the child and its checkpointer, step by step

A step is a call of the RAM session, an access of the child to a managed
dataspace, a run of a fault handler, a checkpoint, or anything that
touches neither managed dataspaces nor copies. An access to a detached
page is three steps: the fault, the handler, the write.
-/

namespace Rtcr

open ByteStore Reconcile Checkpointer

/-- The child, the checkpointer and the target state it fills. -/
structure World where
  child : TargetChild
  checkpointer : Checkpointer
  state : TargetState

namespace World

/-- Core, as the checkpointer knows it. -/
def core (w : World) : Core := w.checkpointer.core

/-- The child's RAM sessions. -/
def ram (w : World) : List RamSessionComponent := w.child.services.ramRoot

/-- Core has changed. -/
def setCore (core : Core) (w : World) : World :=
  { w with checkpointer := { w.checkpointer with core := core } }

/-- The session `cap` has become `s`. -/
def setSession (cap : Cap) (s : RamSessionComponent) (w : World) : World :=
  { w with child := w.child.mapRamSessions (modifyCap (·.cap) cap fun _ => s) }

/-- Managed dataspace `badge` of the session `cap` has changed. -/
def modifyManaged (cap : Cap) (badge : Nat) (f : ManagedRegionMapInfo → ManagedRegionMapInfo)
    (w : World) : World :=
  { w with child := w.child.modifyManaged cap badge f }

/-- A call of `checkpoint()`. -/
def result (w : World) : CheckpointResult := w.checkpointer.checkpoint w.state w.child

/-- After a call of `checkpoint()`, which may have thrown. -/
def checkpointed (w : World) : World where
  child := w.result.child
  checkpointer := w.result.checkpointer
  state := w.result.state

end World

/-- What happens between and at checkpoints; `other` is whatever else
changes. -/
inductive Event
  | alloc (ram : Cap) (size : Nat)
  | free (ram ds : Cap)
  | fault (ds : Cap) (addr : Nat)
  | handleFault (ram : Cap)
  | write (ds : Cap) (addr : Nat) (byte : UInt8)
  | checkpoint
  | other

/-- Dataspaces that exist and are not copies made by the RTCR. -/
def Checkpointer.Owned (ck : Checkpointer) (b : Nat) : Prop :=
  b < ck.core.nextBadge ∧ ∀ e ∈ ck.copyDataspaces, b ≠ e.copyDsCap.localName

instance (ck : Checkpointer) (b : Nat) : Decidable (ck.Owned b) :=
  inferInstanceAs (Decidable (_ ∧ _))

/-- The child at a checkpoint. `plain` and `pds` fix what badges denote
throughout a run (none is recycled): which are not those of region-map
dataspaces, and the PD sessions. -/
structure Admissible (plain : Nat → Prop) (pds : PdSessionComponent → Prop) (w : World) :
    Prop where
  maps : ∀ b ∈ w.child.regionMapDataspaces, ¬plain b
  services : PlainServices plain w.checkpointer.Owned w.child.regionMapDataspaces pds
    w.child.services

variable (plain : Nat → Prop) (pds : PdSessionComponent → Prop)

/-- The events, one step each. -/
inductive WorldStep : World → Event → World → Prop
  | alloc {w : World} {s s' : RamSessionComponent} {core' : Core} {cap : Cap} {size : Nat}
      {cacheAttr : CacheAttribute} (hs : s ∈ w.ram)
      (h : s.alloc size cacheAttr w.child.inBootstrap w.core = some (cap, s', core')) :
      WorldStep w (.alloc s.cap size) ((w.setSession s.cap s').setCore core')
  | free {w : World} {s : RamSessionComponent} (ds : Cap) (hs : s ∈ w.ram) :
      WorldStep w (.free s.cap ds) (w.setSession s.cap (s.free ds))
  /-- a thread waits for a page that is not there -/
  | fault {w : World} {s : RamSessionComponent} {d : RamDataspaceInfo} (addr : Nat)
      (hs : s ∈ w.ram) (hd : d ∈ s.parentState.ramDataspaces) :
      WorldStep w (.fault d.cap addr) (w.modifyManaged s.cap d.cap.localName fun mrm =>
        if mrm.present addr then mrm else { mrm with faults := addr :: mrm.faults })
  | handleFault {w : World} {s : RamSessionComponent} {infos : List RamDataspaceInfo}
      (hs : s ∈ w.ram) (h : handleFault s.parentState.ramDataspaces = .ok infos) :
      WorldStep w (.handleFault s.cap) (w.setSession s.cap (s.setRamDataspaces infos))
  /-- the page is there -/
  | write {w : World} {d : RamDataspaceInfo} {dd : DesignatedDataspaceInfo} {addr : Nat}
      (byte : UInt8) (hd : d ∈ dataspacesOf w.ram) (hdd : dd ∈ d.dds) (hmapped : dd.mapped = true)
      (haddr : dd.contains addr = true) :
      WorldStep w (.write d.cap addr byte) (w.setCore { w.core with
        bytes := poke dd.cap.localName (addr - dd.relAddr) byte w.core.bytes })
  | checkpoint {w : World} (hadm : Admissible plain pds w) (h : w.result.thrown = none) :
      WorldStep w .checkpoint w.checkpointed
  /-- other sessions, other memory, new capabilities -/
  | other {w : World} {child : TargetChild} {core' : Core}
      (hram : child.services.ramRoot = w.ram) (hle : w.core.nextBadge ≤ core'.nextBadge)
      (hdds : ∀ dd ∈ ddsOf w.ram, core'.bytes dd.cap.localName = w.core.bytes dd.cap.localName)
      (hcopies : ∀ e ∈ w.checkpointer.copyDataspaces,
        core'.bytes e.copyDsCap.localName = w.core.bytes e.copyDsCap.localName) :
      WorldStep w .other ({ w with child := child }.setCore core')

/-- The copy of every live managed dataspace holds, byte for byte, what
its designated dataspaces hold. -/
def FullCopy (w : World) : Prop :=
  ∀ s ∈ w.ram, ∀ d ∈ s.parentState.ramDataspaces, d.mrmInfo.isSome = true →
    ∃ t ∈ w.state.ramSessions, t.badge = s.cap.localName ∧
      ∃ u ∈ t.storedRamdsInfos, u.badge = d.cap.localName ∧
        ∀ a < d.size, ∃ dd ∈ d.dds, InRange dd.range a ∧
          w.core.bytes u.memoryContent.localName a =
            w.core.bytes dd.cap.localName (a - dd.relAddr)

/-- What the copy of a dataspace holds; the copy to be is zero. -/
def storedByte (ck : Checkpointer) (badge a : Nat) : UInt8 :=
  match ck.copyDataspaces.find? (isBadge badge) with
  | some info => ck.core.bytes info.copyDsCap.localName a
  | none => 0

/-- Designated dataspace `dd` of `d` holds what its range of the copy
holds. -/
def SameAsCopy (w : World) (d : RamDataspaceInfo) (dd : DesignatedDataspaceInfo) : Prop :=
  ∀ i < dd.size, dd.relAddr + i < d.size →
    w.core.bytes dd.cap.localName i = storedByte w.checkpointer d.cap.localName (dd.relAddr + i)

/-- Every designated dataspace that is attached but not the first of its
list holds what the copy holds already. -/
def RestUnchanged (w : World) : Prop :=
  ∀ d ∈ dataspacesOf w.ram, ∀ dd ∈ d.dds.tail, dd.attached = true → SameAsCopy w d dd

/-- No RAM dataspaces yet, and nothing stored. -/
structure World.Initial (w : World) : Prop where
  sessions : (w.ram.map (·.cap.localName)).Nodup
  empty : ∀ s ∈ w.ram, s.parentState.ramDataspaces = []
  checkpointer : ∃ core, w.checkpointer = .new core
  state : w.state = .empty

end Rtcr
