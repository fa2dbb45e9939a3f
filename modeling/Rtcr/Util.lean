import Rtcr.OfflineStorage

/-!
# Util — the small list elements of the checkpointer and the restorer

The records of `util/`, and the memory copy both sides are built on.
-/

namespace Rtcr

open ByteStore

/-- Ways a call can end early. Only `exception` is a C++ exception; the
others stand for undefined behaviour the code runs into. -/
inductive Err
  | exception (message : String)
  | nullPointer
  | outOfBounds
deriving DecidableEq, Repr

structure BadgeKcapInfo where
  kcap : Nat
  badge : Nat
deriving DecidableEq, Repr

structure CapKcapInfo where
  kcap : Nat
  cap : Cap
deriving DecidableEq, Repr

structure CkptRestoBadgeInfo where
  ckptBadge : Nat
  restoCap : Cap
deriving DecidableEq, Repr

structure OrigCopyCountInfo where
  origDsCap : Cap
  copyDsCap : Cap
  size : Nat
  refCount : Nat
deriving DecidableEq, Repr

/-- `Orig_copy_count_info::find_by_badge` compares this. -/
def OrigCopyCountInfo.badge (info : OrigCopyCountInfo) : Nat := info.origDsCap.localName

/-- `Orig_copy_ckpt_info` and `Orig_copy_resto_info`, one work item of
the memory phase; `done` is their flag `checkpointed` or `restored`. -/
structure OrigCopyInfo where
  origDsCap : Cap
  copyDsCap : Cap
  copyRelAddr : Nat
  copySize : Nat
  done : Bool
deriving DecidableEq, Repr

/-- `Genode::memcpy(copy + copy_rel_addr, orig, copy_size)`. -/
def OrigCopyInfo.toCopy (info : OrigCopyInfo) : Blit Nat where
  src := info.origDsCap.localName
  srcAt := 0
  dst := info.copyDsCap.localName
  dstAt := info.copyRelAddr
  size := info.copySize

/-- `env.rm().attach(ds_cap)` of an invalid capability throws. -/
def attachable (cap : Cap) : Bool := cap ≠ Cap.invalid

/-- `_checkpoint_dataspace_content` and `_restore_dataspace_content`,
whose bodies are the same: both dataspaces are attached, then copied. -/
def copyContent (info : OrigCopyInfo) (core : Core) : Except Err Core :=
  if attachable info.origDsCap && attachable info.copyDsCap then
    .ok { core with bytes := blit info.toCopy core.bytes }
  else .error (.exception "Region_map::Invalid_dataspace")

/-- The loop of `_checkpoint_dataspaces` and `_restore_dataspaces`. The
second component is what core holds when the loop ends, by an exception
or not. -/
def copyMemory : List OrigCopyInfo → Core → Option Err × Core
  | [], core => (none, core)
  | info :: infos, core =>
      if info.done then copyMemory infos core
      else
        match copyContent info core with
        | .error e => (some e, core)
        | .ok core' => copyMemory infos core'

/-- The copies of the items that are not done yet. -/
def pendingCopies (infos : List OrigCopyInfo) : List (Blit Nat) :=
  (infos.filter fun info => !info.done).map OrigCopyInfo.toCopy

/-- The loop, when it gets to its end, has run the copies of the items
not done yet, front to back. -/
theorem copyMemory_eq {infos : List OrigCopyInfo} {core : Core}
    (h : (copyMemory infos core).1 = none) :
    (copyMemory infos core).2 = { core with bytes := blitAll (pendingCopies infos) core.bytes } := by
  induction infos generalizing core with
  | nil => rfl
  | cons info infos ih =>
      unfold copyMemory at h ⊢
      by_cases hd : info.done = true
      · simp only [hd, if_true] at h ⊢
        simpa [pendingCopies, hd] using ih h
      · simp only [if_neg hd] at h ⊢
        by_cases ha : (attachable info.origDsCap && attachable info.copyDsCap) = true
        · simp only [copyContent, ha, if_true] at h ⊢
          rw [ih h]
          simp [pendingCopies, hd]
        · simp [copyContent, ha] at h

end Rtcr
