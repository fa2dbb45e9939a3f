import Rtcr.Intercept.Objects
import Rtcr.Lib.Lock
import Rtcr.Lib.Run

/-!
# Sessions — creating and destroying objects under a lock

`Rm_session_component` and `Cpu_session_component` keep a list of the RPC
objects they have created, under a lock, and handle it alike. Private
helpers (`_create`, `_destroy`, `_create_thread`, `_kill_thread`) take
the lock themselves; `destroy` and `kill_thread` take it first and then
call the helper for an object they have found.
-/

namespace Rtcr

open Locking

/-- An RPC object of the RTCR with its counterpart at the parent. -/
structure Intercepted (α : Type) where
  object : α
  parentCap : Cap

/-- What a session's operations on its objects change: the list under
the lock, the objects its entrypoint manages, the blocks of `_md_alloc`
(named by the objects' capabilities), the counterparts at the parent,
and which of them it was told to destroy. -/
structure ObjectSession (α : Type) where
  objects : List (Intercepted α)
  managed : List Cap
  mdAlloc : List Cap
  parent : List Cap
  destroyed : List Cap

namespace ObjectSession

variable {α : Type} (cap : α → Cap)

/-- From the creation at the parent to `_ep.manage`. -/
def prepareObject (o : Intercepted α) (s : ObjectSession α) : ObjectSession α :=
  { s with
    parent := o.parentCap :: s.parent
    mdAlloc := cap o.object :: s.mdAlloc
    managed := cap o.object :: s.managed }

def insertObject (o : Intercepted α) (s : ObjectSession α) : ObjectSession α :=
  { s with objects := o :: s.objects }

/-- Off the list, out of the entrypoint, destroyed here and at the
parent. -/
def removeObject (o : Intercepted α) (s : ObjectSession α) : ObjectSession α where
  objects := s.objects.eraseP fun x => cap x.object == cap o.object
  managed := s.managed.erase (cap o.object)
  mdAlloc := s.mdAlloc.erase (cap o.object)
  parent := s.parent.erase o.parentCap
  destroyed := o.parentCap :: s.destroyed

/-- The creation of an object. -/
def createObject (o : Intercepted α) : Locking (ObjectSession α) :=
  andThen (update (prepareObject cap o)) (withGuard (update (insertObject o)))

/-- The destruction of an object of the list. -/
def destroyObject (o : Intercepted α) : Locking (ObjectSession α) :=
  withGuard (update (removeObject cap o))

/-- The destruction by capability; an unknown one only logs an error. -/
def destroyByCap (c : Cap) : Locking (ObjectSession α) :=
  withGuard fun s =>
    match findByBadge (fun x => (cap x.object).localName) c.localName s.data.objects with
    | some o => destroyObject cap o s
    | none => .ok s

/-- The loop of the destructor: destroy the first object while there is
one. The fuel is no part of the code; running out of it would be a loop
that goes on. -/
def destroyObjects : Nat → Locking (ObjectSession α)
  | 0, s => match s.data.objects with
      | [] => .ok s
      | _ :: _ => .error .endlessLoop
  | fuel + 1, s => match s.data.objects with
      | [] => .ok s
      | o :: _ => andThen (destroyObject cap o) (destroyObjects fuel) s

end ObjectSession

/-! ## The two sessions -/

namespace RmSession

/-- `Rm_session_component::_create`, for the region map at the parent and
the new component. -/
def createRegionMap (parentCap : Cap) (rm : RegionMapComponent) :
    Locking (ObjectSession RegionMapComponent) :=
  ObjectSession.createObject (·.cap) ⟨rm, parentCap⟩

/-- `Rm_session_component::create`. -/
def create (parentCap : Cap) (rm : RegionMapComponent) :
    Locking (ObjectSession RegionMapComponent) := createRegionMap parentCap rm

/-- `Rm_session_component::destroy`; the helper `_destroy` is
`ObjectSession.destroyObject`. -/
def destroy (regionMapCap : Cap) : Locking (ObjectSession RegionMapComponent) :=
  ObjectSession.destroyByCap (·.cap) regionMapCap

/-- `~Rm_session_component`. -/
def destruct : Locking (ObjectSession RegionMapComponent) := fun s =>
  ObjectSession.destroyObjects (·.cap) s.data.objects.length s

end RmSession

namespace CpuSession

/-- `Cpu_session_component::_create_thread`. -/
def createCpuThread (parentCap : Cap) (thread : CpuThreadComponent) :
    Locking (ObjectSession CpuThreadComponent) :=
  ObjectSession.createObject (·.cap) ⟨thread, parentCap⟩

/-- `Cpu_session_component::create_thread`; for an unknown PD session it
throws before it does anything. -/
def createThread (pdSessions : List Nat) (parentCap : Cap) (thread : CpuThreadComponent) :
    Locking (ObjectSession CpuThreadComponent) := fun s =>
  if pdSessions.contains thread.parentState.pdSessionCap.localName then
    createCpuThread parentCap thread s
  else .ok s

/-- `Cpu_session_component::kill_thread`; the helper `_kill_thread` is
`ObjectSession.destroyObject`. -/
def killThread (threadCap : Cap) : Locking (ObjectSession CpuThreadComponent) :=
  ObjectSession.destroyByCap (·.cap) threadCap

/-- `~Cpu_session_component`. -/
def destruct : Locking (ObjectSession CpuThreadComponent) := fun s =>
  ObjectSession.destroyObjects (·.cap) s.data.objects.length s

end CpuSession

end Rtcr
