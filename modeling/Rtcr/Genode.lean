import Rtcr.Lib.ByteStore
import Rtcr.Lib.Lists

/-!
# Genode — the vocabulary shared by all parts of the RTCR

Capabilities, core's dataspaces, page arithmetic. Genode itself is not
part of the repository; what the RTCR relies on is kept to a few
operations here.

Badges (`uint16_t`), addresses and sizes are natural numbers: badges are
only compared, and a region ends inside a region map whose size is a
`size_t`, so no sum below wraps.
-/

namespace Rtcr

open ByteStore

/-- A capability. On Fiasco.OC all copies of a capability share one
`Cap_index` of the RTCR, so a capability is known by its badge, the
`local_name()`. -/
structure Cap where
  localName : Nat
deriving DecidableEq, Repr

theorem Cap.ext_localName {c d : Cap} (h : c.localName = d.localName) : c = d := by
  cases c
  cases d
  exact congrArg Cap.mk h

/-- `Genode::Capability<...>()`. -/
def Cap.invalid : Cap := ⟨0⟩

inductive CacheAttribute
  | uncached
  | writeCombined
  | cached
deriving DecidableEq, Repr

def pageSize : Nat := 4096

/-- `Genode::align_addr(addr, 12)`: round up to the page size. -/
def alignAddr (addr : Nat) : Nat := (addr + (pageSize - 1)) / pageSize * pageSize

/-- What core and the RTCR's own static data hold: the dataspace
contents and the counters. Plain dataspaces are named by their badge. -/
structure Core where
  /-- capabilities are handed out in ascending order -/
  nextBadge : Nat
  bytes : Store Nat UInt8
  /-- `Simple_counter<Ram_dataspace_info>` -/
  ramDataspaceCount : Nat
  /-- `Simple_counter<Native_capability_info>` -/
  nativeCapabilityCount : Nat

/-- A new RPC object: a capability that was not in use. -/
def Core.newCap (core : Core) : Cap × Core :=
  (⟨core.nextBadge⟩, { core with nextBadge := core.nextBadge + 1 })

/-- A new RAM dataspace, filled with zeros. -/
def Core.newDataspace (core : Core) : Cap × Core :=
  (core.newCap.1, { core.newCap.2 with bytes := fill core.nextBadge 0 core.bytes })

@[simp] theorem Core.newCap_fst (core : Core) : core.newCap.1 = ⟨core.nextBadge⟩ := rfl

@[simp] theorem Core.newCap_nextBadge (core : Core) :
    core.newCap.2.nextBadge = core.nextBadge + 1 := rfl

@[simp] theorem Core.newCap_bytes (core : Core) : core.newCap.2.bytes = core.bytes := rfl

@[simp] theorem Core.newDataspace_fst (core : Core) :
    core.newDataspace.1 = ⟨core.nextBadge⟩ := rfl

@[simp] theorem Core.newDataspace_nextBadge (core : Core) :
    core.newDataspace.2.nextBadge = core.nextBadge + 1 := rfl

@[simp] theorem Core.newDataspace_bytes (core : Core) :
    core.newDataspace.2.bytes = fill core.nextBadge 0 core.bytes := rfl

/-- The lookup functions `find_by_badge` of all list elements: from the
head on, the first element with the badge. -/
def findByBadge {α : Type} (badge : α → Nat) (b : Nat) (l : List α) : Option α :=
  l.find? fun x => badge x == b

theorem findByBadge_some {α : Type} {badge : α → Nat} {b : Nat} {l : List α} {x : α}
    (h : findByBadge badge b l = some x) : x ∈ l ∧ badge x = b :=
  ⟨List.mem_of_find?_eq_some h, beq_iff_eq.mp (List.find?_some (p := fun x => badge x == b) h)⟩

theorem findByBadge_eq_none {α : Type} {badge : α → Nat} {b : Nat} {l : List α} :
    findByBadge badge b l = none ↔ b ∉ l.map badge := by
  simp [findByBadge, List.find?_eq_none]

theorem findByBadge_of_mem {α : Type} (key : α → Nat) {l : List α} {b : Nat} {x : α} (hx : x ∈ l)
    (hkey : key x = b) : ∃ y ∈ l, key y = b ∧ findByBadge key b l = some y := by
  cases hfind : findByBadge key b l with
  | none =>
      rw [← hkey] at hfind
      exact absurd (List.mem_map_of_mem hx) (findByBadge_eq_none.mp hfind)
  | some y =>
      obtain ⟨hy, he⟩ := findByBadge_some hfind
      exact ⟨y, hy, he, rfl⟩

theorem le_alignAddr (a : Nat) : a ≤ alignAddr a := by
  unfold alignAddr pageSize
  omega

end Rtcr
