import Rtcr.Util
import Rtcr.Lib.Reconcile

/-!
# Checkpointer.State — the checkpointer's own data

What the `_prepare_*` functions read and write besides the record list
they work on: the capability map, the reference-counted copy dataspaces,
the region-map dataspaces, and the allocators.
-/

namespace Rtcr

open ByteStore Reconcile

structure Checkpointer where
  core : Core
  /-- `_state._alloc` -/
  heap : RecordHeap
  capabilityMapInfos : List BadgeKcapInfo
  copyDataspaces : List OrigCopyCountInfo
  /-- badges of known region-map dataspaces -/
  regionMapDataspaces : List Nat
  /-- what `_state._env.ram()` has allocated and not freed -/
  copyRam : List Cap

namespace Checkpointer

/-- The constructor, with a `Target_state` that has no records yet. -/
def new (core : Core) : Checkpointer := ⟨core, .empty, [], [], [], []⟩

/-- `_find_kcap_by_badge`: 0 if the badge is in no slot. -/
def findKcapByBadge (badge : Nat) (infos : List BadgeKcapInfo) : Nat :=
  match findByBadge (·.badge) badge infos with
  | some info => info.kcap
  | none => 0

/-- `new (_state._alloc)`. -/
def newRecord (ck : Checkpointer) : Nat × Checkpointer :=
  (ck.heap.new.1, { ck with heap := ck.heap.new.2 })

/-- `Genode::destroy(_state._alloc, p)`. -/
def destroyRecord (p : RecordAddr) (ck : Checkpointer) : Checkpointer :=
  { ck with heap := ck.heap.destroy p }

/-- `_state._env.ram().alloc`, inserted into `_copy_dataspaces`. -/
def newCopyDataspace (origDsCap : Cap) (size : Nat) (ck : Checkpointer) : Cap × Checkpointer :=
  (ck.core.newDataspace.1,
    { ck with
      core := ck.core.newDataspace.2
      copyRam := ck.core.newDataspace.1 :: ck.copyRam
      copyDataspaces := ⟨origDsCap, ck.core.newDataspace.1, size, 1⟩ :: ck.copyDataspaces })

def isBadge (badge : Nat) (info : OrigCopyCountInfo) : Bool := info.badge == badge

/-- The copy dataspace of an original dataspace, for one more record:
a known one is shared. An unknown one gets a copy unless it is
`excluded`. -/
def useCopyDataspace (excluded : Bool) (origDsCap : Cap) (size : Nat) (ck : Checkpointer) :
    Cap × Checkpointer :=
  match ck.copyDataspaces.find? (isBadge origDsCap.localName) with
  | some known =>
      (known.copyDsCap,
        { ck with
          copyDataspaces := List.modifyFirst (isBadge origDsCap.localName)
            (fun info => { info with refCount := info.refCount + 1 }) ck.copyDataspaces })
  | none =>
      if excluded then (Cap.invalid, ck)
      else ck.newCopyDataspace origDsCap size

/-- The end of a record that used the copy of `badge`: the entry goes
with its last user. An unknown badge only logs an error. -/
def dropCopyDataspace (badge : Nat) (ck : Checkpointer) : Checkpointer :=
  match ck.copyDataspaces.find? (isBadge badge) with
  | some known =>
      if known.refCount - 1 < 1 then
        { ck with copyDataspaces := ck.copyDataspaces.eraseP (isBadge badge) }
      else
        { ck with
          copyDataspaces := List.modifyFirst (isBadge badge)
            (fun info => { info with refCount := info.refCount - 1 }) ck.copyDataspaces }
  | none => ck

@[simp] theorem useCopyDataspace_regionMapDataspaces (excluded : Bool) (cap : Cap) (size : Nat)
    (ck : Checkpointer) :
    (ck.useCopyDataspace excluded cap size).2.regionMapDataspaces = ck.regionMapDataspaces := by
  unfold useCopyDataspace
  split
  · rfl
  · split <;> rfl

@[simp] theorem dropCopyDataspace_regionMapDataspaces (badge : Nat) (ck : Checkpointer) :
    (ck.dropCopyDataspace badge).regionMapDataspaces = ck.regionMapDataspaces := by
  unfold dropCopyDataspace
  split
  · split <;> rfl
  · rfl

/-- A new record that needs nothing but its object and the kcap. -/
def createStored {τ : Type} (mk : RecordAddr → Nat → τ) (badge : Nat) (ck : Checkpointer) :
    τ × Checkpointer :=
  (mk (.block ck.newRecord.1) (findKcapByBadge badge ck.capabilityMapInfos), ck.newRecord.2)

/-- The kinds whose records are looked up with `find_by_badge`. -/
def badgeKind {χ τ : Type} (badge : τ → Nat) (childBadge : χ → Nat)
    (create : χ → Checkpointer → τ × Checkpointer)
    (update : χ → τ → Checkpointer → τ × Checkpointer)
    (destroy : τ → Checkpointer → Checkpointer) : Kind Checkpointer χ τ where
  stored c t := badge t == childBadge c
  present t c := childBadge c == badge t
  create := create
  update := update
  destroy := destroy

theorem badgeKind_keyed {χ τ : Type} {badge : τ → Nat} {childBadge : χ → Nat}
    {create : χ → Checkpointer → τ × Checkpointer}
    {update : χ → τ → Checkpointer → τ × Checkpointer}
    {destroy : τ → Checkpointer → Checkpointer}
    (hc : ∀ c s, badge (create c s).1 = childBadge c)
    (hu : ∀ c t s, badge (update c t s).1 = badge t) :
    Keyed (badgeKind badge childBadge create update destroy) badge childBadge where
  stored _ _ := rfl
  present _ _ := rfl
  create := hc
  update := hu

end Checkpointer

end Rtcr
