import Rtcr.Lib.Pieces
import Rtcr.Target.Checkpoints

/-!
# Target.Memory — what a child sees of its RAM dataspaces

With a granularity, a dataspace has its bytes in designated dataspaces
whose pages come and go. `FlatMemory` is what the child is meant to see
all the same: one array for each dataspace, zero at first. `Flat m μ`
says that the dataspaces of `m` hold `μ`.
-/

namespace Rtcr

open ByteStore Pieces
open List (Forall₂)

/-! ## Dataspaces and their pieces -/

def DesignatedDataspaceInfo.piece (dd : DesignatedDataspaceInfo) : Piece Nat :=
  ⟨dd.cap.localName, dd.relAddr, dd.size⟩

namespace RamDataspaceInfo

/-- Where the bytes of a dataspace are. -/
def pieces (d : RamDataspaceInfo) : List (Piece Nat) :=
  match d.mrmInfo with
  | some mrm => mrm.ddInfos.map (·.piece)
  | none => [⟨d.cap.localName, 0, d.size⟩]

/-- What an access to `addr` finds: the page that is mapped there. -/
def place (addr : Nat) (d : RamDataspaceInfo) : Option (Piece Nat) :=
  match d.mrmInfo with
  | some mrm => (mrm.ddInfos.find? fun dd => dd.mapped && dd.contains addr).map (·.piece)
  | none => if addr < d.size then some ⟨d.cap.localName, 0, d.size⟩ else none

theorem place_spec {addr : Nat} {d : RamDataspaceInfo} {p : Piece Nat}
    (h : d.place addr = some p) : p ∈ d.pieces ∧ p.Has addr := by
  unfold place at h
  unfold pieces
  split at h
  · obtain ⟨dd, hfind, rfl⟩ := Option.map_eq_some_iff.mp h
    have hdd := List.find?_some hfind
    simp only [DesignatedDataspaceInfo.contains, Bool.and_eq_true, decide_eq_true_eq] at hdd
    exact ⟨List.mem_map_of_mem (List.mem_of_find?_eq_some hfind), hdd.2⟩
  · split_ifs at h with haddr
    cases h
    exact ⟨List.mem_singleton_self _, Nat.zero_le _, by simpa using haddr⟩

end RamDataspaceInfo

namespace MonitoredChild

def ramDataspaces (m : MonitoredChild) : List RamDataspaceInfo :=
  dataspacesOf m.child.services.ramRoot

def place (ds : Cap) (addr : Nat) (m : MonitoredChild) : Option (Piece Nat) :=
  (m.ramDataspaces.find? (·.cap == ds)).bind (·.place addr)

/-- A load at offset `addr` of a dataspace, if the page is there. -/
def load (ds : Cap) (addr : Nat) (m : MonitoredChild) : Option UInt8 :=
  (m.place ds addr).map fun p => m.core.bytes p.name (addr - p.start)

/-- A store. -/
def store (ds : Cap) (addr : Nat) (byte : UInt8) (m : MonitoredChild) : Option MonitoredChild :=
  (m.place ds addr).map fun p =>
    { m with core := { m.core with bytes := poke p.name (addr - p.start) byte m.core.bytes } }

end MonitoredChild

/-! ## Runs with accesses to memory -/

inductive MemoryEvent
  | request (request : ChildRequest)
  | checkpoint
  | load (ds : Cap) (addr : Nat) (byte : UInt8)
  | store (ds : Cap) (addr : Nat) (byte : UInt8)

/-- Others do not write to the dataspaces of the child. -/
def ChildRequest.LeavesMemory (m : MonitoredChild) : ChildRequest → Prop
  | .elsewhere _ _ _ bytes =>
      ∀ d ∈ m.ramDataspaces, ∀ p ∈ d.pieces, bytes p.name = m.core.bytes p.name
  | _ => True

inductive Monitoring.MemoryStep (g : Genode) : Monitoring → MemoryEvent → Monitoring → Prop
  | request {x : Monitoring} {request : ChildRequest} {m : MonitoredChild}
      (h : x.monitored.Step g request m) (hleaves : request.LeavesMemory x.monitored) :
      MemoryStep g x (.request request) { x with monitored := m }
  | checkpoint (x : Monitoring) : MemoryStep g x .checkpoint x.checkpointed
  | load {x : Monitoring} {ds : Cap} {addr : Nat} {byte : UInt8}
      (h : x.monitored.load ds addr = some byte) : MemoryStep g x (.load ds addr byte) x
  | store {x : Monitoring} {ds : Cap} {addr : Nat} {byte : UInt8} {m : MonitoredChild}
      (h : x.monitored.store ds addr byte = some m) :
      MemoryStep g x (.store ds addr byte) { x with monitored := m }

/-! ## Flat memory -/

/-- A dataspace as the child sees it, of a RAM session. -/
structure Segment where
  session : Nat
  size : Nat
  bytes : Nat → UInt8

/-- The dataspaces by their badges. -/
abbrev FlatMemory := Nat → Option Segment

namespace FlatMemory

def alloc (session : Cap) (badge size : Nat) (μ : FlatMemory) : FlatMemory :=
  Function.update μ badge (some ⟨session.localName, size, fun _ => 0⟩)

/-- A session frees its own dataspaces only. -/
def free (session ds : Cap) (μ : FlatMemory) : FlatMemory := fun b =>
  if b = ds.localName then (μ b).filter (·.session != session.localName) else μ b

/-- All of a session's dataspaces are gone. -/
def close (session : Cap) (μ : FlatMemory) : FlatMemory := fun b =>
  (μ b).filter (·.session != session.localName)

def store (ds : Cap) (addr : Nat) (byte : UInt8) (μ : FlatMemory) : FlatMemory := fun b =>
  if b = ds.localName then
    (μ b).map fun seg => { seg with bytes := Function.update seg.bytes addr byte }
  else μ b

end FlatMemory

/-- Requests that can change which dataspaces there are. -/
def ChildRequest.changesDataspaces : ChildRequest → Bool
  | .ram _ (.alloc ..) => true
  | .ram _ (.free _) => true
  | .close .ram _ => true
  | _ => false

/-- **The memory a child is meant to see**: an allocation is new and zero,
a load gets what was stored last, and nothing else changes anything. -/
inductive FlatMemory.Step : FlatMemory → MemoryEvent → FlatMemory → Prop
  | alloc {μ : FlatMemory} {ram : Cap} {badge size : Nat} {cacheAttr : CacheAttribute}
      (hnew : μ badge = none) :
      Step μ (.request (.ram ram (.alloc size cacheAttr))) (μ.alloc ram badge size)
  /-- there is no quota left, or no such session -/
  | allocFails (μ : FlatMemory) (ram : Cap) (size : Nat) (cacheAttr : CacheAttribute) :
      Step μ (.request (.ram ram (.alloc size cacheAttr))) μ
  | free (μ : FlatMemory) (ram ds : Cap) : Step μ (.request (.ram ram (.free ds))) (μ.free ram ds)
  | close (μ : FlatMemory) (ram : Cap) : Step μ (.request (.close .ram ram)) (μ.close ram)
  /-- the session is not the child's to close -/
  | closeRefused (μ : FlatMemory) (ram : Cap) : Step μ (.request (.close .ram ram)) μ
  | request {μ : FlatMemory} {request : ChildRequest} (h : request.changesDataspaces = false) :
      Step μ (.request request) μ
  | checkpoint (μ : FlatMemory) : Step μ .checkpoint μ
  | load {μ : FlatMemory} {ds : Cap} {addr : Nat} {seg : Segment}
      (h : μ ds.localName = some seg) : Step μ (.load ds addr (seg.bytes addr)) μ
  | store (μ : FlatMemory) (ds : Cap) (addr : Nat) (byte : UInt8) :
      Step μ (.store ds addr byte) (μ.store ds addr byte)

/-- The RAM sessions hold `μ`: its segments are their dataspaces, and the
pieces of these hold the bytes. -/
structure Flat (bytes : Store Nat UInt8) (ram : List RamSessionComponent) (μ : FlatMemory) :
    Prop where
  live : ∀ s ∈ ram, ∀ d ∈ s.parentState.ramDataspaces, ∃ seg, μ d.cap.localName = some seg ∧
    seg.session = s.cap.localName ∧ seg.size = d.size ∧ Shows bytes d.pieces seg.bytes
  dead : ∀ b seg, μ b = some seg → ∃ s ∈ ram, s.cap.localName = seg.session ∧
    ∃ d ∈ s.parentState.ramDataspaces, d.cap.localName = b

/-! ## Pieces in a layout -/

theorem mem_pieces {d : RamDataspaceInfo} {p : Piece Nat} : p ∈ d.pieces ↔
    (d.mrmInfo = none ∧ p = ⟨d.cap.localName, 0, d.size⟩) ∨ ∃ dd ∈ d.dds, p = dd.piece := by
  cases hm : d.mrmInfo with
  | none => simp [RamDataspaceInfo.pieces, RamDataspaceInfo.dds, hm]
  | some mrm => simp [RamDataspaceInfo.pieces, RamDataspaceInfo.dds, hm, eq_comm]

/-- What only attaches and detaches pages leaves the pieces alone. -/
theorem DataspaceRel.pieces {d d' : RamDataspaceInfo} (h : DataspaceRel SamePlace d d') :
    d'.pieces = d.pieces := by
  have hdds : d'.dds.map (·.piece) = d.dds.map (·.piece) :=
    List.map_eq_of_forall₂ (fun x y hxy => by
      simp only [DesignatedDataspaceInfo.piece, hxy.cap, hxy.relAddr, hxy.size]) h.dds
  have hmanaged := h.managed
  unfold RamDataspaceInfo.dds at hdds
  unfold RamDataspaceInfo.pieces
  cases hm : d.mrmInfo with
  | none =>
      cases hm' : d'.mrmInfo with
      | none => simp only [h.cap, h.size]
      | some mrm' => simp [hm, hm'] at hmanaged
  | some mrm =>
      cases hm' : d'.mrmInfo with
      | none => simp [hm, hm'] at hmanaged
      | some mrm' => simpa only [hm, hm'] using hdds

namespace LaidOut

variable {n : Nat} {ds : List RamDataspaceInfo} {d e : RamDataspaceInfo} {p q : Piece Nat}

theorem piece_below (h : LaidOut n ds) (hd : d ∈ ds) (hp : p ∈ d.pieces) : p.name < n := by
  rcases mem_pieces.mp hp with ⟨-, rfl⟩ | ⟨dd, hdd, rfl⟩
  · exact h.below d hd
  · exact h.ddsBelow dd (List.mem_flatMap.mpr ⟨d, hd, hdd⟩)

/-- A designated dataspace belongs to one dataspace only. -/
theorem dds_unique (h : LaidOut n ds) (hd : d ∈ ds) (he : e ∈ ds)
    {dd dd' : DesignatedDataspaceInfo} (hdd : dd ∈ d.dds) (hdd' : dd' ∈ e.dds)
    (hname : dd.cap.localName = dd'.cap.localName) : d = e ∧ dd = dd' := by
  have hsame : dd = dd' := List.inj_on_of_nodup_map h.dds (List.mem_flatMap.mpr ⟨d, hd, hdd⟩)
    (List.mem_flatMap.mpr ⟨e, he, hdd'⟩) hname
  refine ⟨?_, hsame⟩
  by_contra hne
  have hpair := (List.nodup_flatMap.mp (List.Nodup.of_map _ h.dds)).2
  have hsymm : Std.Symm (Function.onFun List.Disjoint RamDataspaceInfo.dds) :=
    ⟨fun _ _ hdisj => hdisj.symm⟩
  exact hpair.forall hd he hne hdd (hsame ▸ hdd')

/-- **Pieces are told apart by their names**, and tell the dataspace. -/
theorem piece_unique (h : LaidOut n ds) (hd : d ∈ ds) (he : e ∈ ds) (hp : p ∈ d.pieces)
    (hq : q ∈ e.pieces) (hname : p.name = q.name) : d = e ∧ p = q := by
  rcases mem_pieces.mp hp with ⟨-, rfl⟩ | ⟨dd, hdd, rfl⟩ <;>
    rcases mem_pieces.mp hq with ⟨-, rfl⟩ | ⟨dd', hdd', rfl⟩
  · have hde : d = e := List.inj_on_of_nodup_map h.badges hd he hname
    exact ⟨hde, by rw [hde]⟩
  · exact absurd hname.symm (h.apart dd' (List.mem_flatMap.mpr ⟨e, he, hdd'⟩) d hd)
  · exact absurd hname (h.apart dd (List.mem_flatMap.mpr ⟨d, hd, hdd⟩) e he)
  · obtain ⟨hde, rfl⟩ := h.dds_unique hd he hdd hdd' hname
    exact ⟨hde, rfl⟩

theorem separate (h : LaidOut n ds) (hd : d ∈ ds) : Separate d.pieces where
  names _ hp _ hq hname := (h.piece_unique hd hd hp hq hname).2
  ranges p hp q hq a hpa hqa := by
    rcases mem_pieces.mp hp with ⟨hnone, rfl⟩ | ⟨dd, hdd, rfl⟩ <;>
      rcases mem_pieces.mp hq with ⟨hnone', rfl⟩ | ⟨dd', hdd', rfl⟩
    · rfl
    · have hman := RamDataspaceInfo.managed_of_mem hdd'
      rw [hnone] at hman
      cases hman
    · have hman := RamDataspaceInfo.managed_of_mem hdd
      rw [hnone'] at hman
      cases hman
    · have hman := RamDataspaceInfo.managed_of_mem hdd
      rw [(h.tiles d hd hman).inRange_unique hdd hdd' hpa hqa]

/-- Every address has a piece. -/
theorem covered (h : LaidOut n ds) (hd : d ∈ ds) {a : Nat} (ha : a < d.size) :
    ∃ p ∈ d.pieces, p.Has a := by
  cases hm : d.mrmInfo with
  | none => exact ⟨_, mem_pieces.mpr (.inl ⟨hm, rfl⟩), Nat.zero_le _, by simpa using ha⟩
  | some mrm =>
      obtain ⟨r, hr, hra⟩ := (h.tiles d hd (by rw [hm]; rfl)).cover a ha
      obtain ⟨dd, hdd, rfl⟩ := List.mem_map.mp hr
      exact ⟨dd.piece, mem_pieces.mpr (.inr ⟨dd, hdd, rfl⟩), hra⟩

end LaidOut

end Rtcr
