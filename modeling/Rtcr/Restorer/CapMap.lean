import Rtcr.Checkpointer.Checkpoint
import Rtcr.Restorer.State

/-!
# Restorer.CapMap — the capability array of the restored child

`_restore_cap_map` takes the capability array of the bootstrapped child
into the stored memory and links the slots of recreated objects into its
list; `_restore_cap_space` installs their capabilities.
-/

namespace Rtcr

open ByteStore Fallible

/-! ## Bytes of a slot -/

/-- `*(uint32_t*) pos` of an array of bytes. -/
def read32 (byte : Nat → UInt8) (pos : Nat) : Nat :=
  (byte pos).toNat + 2 ^ 8 * (byte (pos + 1)).toNat + 2 ^ 16 * (byte (pos + 2)).toNat +
    2 ^ 24 * (byte (pos + 3)).toNat

def write8 (d pos value : Nat) (m : Store Nat UInt8) : Store Nat UInt8 :=
  poke d pos (UInt8.ofNat value) m

/-- `*(uint16_t*) pos = value`. -/
def write16 (d pos value : Nat) (m : Store Nat UInt8) : Store Nat UInt8 :=
  write8 d (pos + 1) (value / 2 ^ 8) (write8 d pos value m)

/-- `*(uint32_t*) pos = value`. -/
def write32 (d pos value : Nat) (m : Store Nat UInt8) : Store Nat UInt8 :=
  write16 d (pos + 2) (value / 2 ^ 16) (write16 d pos value m)

/-! ## The array -/

/-- `array_size`. -/
def capArraySize : Nat := capIndexSize * capSlots

/-- Where `_restore_cap_map` works: the child's dataspace and the stored
one, each with the offset of slot 0, and the address of slot 0 in the
child. -/
structure CapArrays where
  childDs : Cap
  childArray : Nat
  stateDs : Cap
  stateArray : Nat
  remoteChildArrayStart : Nat
deriving DecidableEq, Repr

/-- The two attached regions that hold a `cap_idx_alloc`. The offset of a
region in its dataspace plays no role, and the address in the stored
dataspace is taken relative to the child's region. -/
def findCapArrays (g : Genode) (child : TargetChild) (st : TargetState) :
    Except Err CapArrays := do
  match child.capRegion with
  | none => .error (.exception "Could not find child's dataspace containing the cap_idx_alloc struct")
  | some attachedRegion =>
      match st.pdSessions.find? (·.bootstrapped) with
      | none => .error (.exception "Could not find bootstrapped stored PD session")
      | some pd =>
          match pd.storedAddressSpace.storedAttachedRegionInfos.find?
              (·.covers st.capIdxAllocAddr) with
          | none =>
              .error (.exception "Could not find stored dataspace containing the cap_idx_alloc struct")
          | some storedRegion =>
              let arrays : CapArrays :=
                { childDs := attachedRegion.attachedDsCap
                  childArray := child.capMapInfo - attachedRegion.relAddr + 8
                  stateDs := storedRegion.memoryContent
                  stateArray := st.capIdxAllocAddr - attachedRegion.relAddr + 8
                  remoteChildArrayStart := child.capMapInfo + 8 }
              if !(attachable arrays.childDs && attachable arrays.stateDs) then
                .error (.exception "Region_map::Invalid_dataspace")
              -- the accesses stay in the two dataspaces
              else if attachedRegion.relAddr ≤ st.capIdxAllocAddr ∧
                  arrays.childArray + capArraySize ≤ g.dataspaceSize arrays.childDs ∧
                  arrays.stateArray + capArraySize ≤ g.dataspaceSize arrays.stateDs then
                .ok arrays
              else .error .outOfBounds

/-- The `memcpy` of the array from the child to the state. -/
def copyCapArray (arrays : CapArrays) (child : TargetChild) (core : Core) : Core :=
  { core with
    bytes := fun d i =>
      if d = arrays.stateDs.localName ∧ arrays.stateArray ≤ i ∧
          i < arrays.stateArray + capArraySize then
        child.dataspaceByte core arrays.childDs (arrays.childArray + (i - arrays.stateArray))
      else core.bytes d i }

/-- The first slot of a certain range with a valid list pointer, where
the new elements are linked in; 0 if there is none. -/
def previousCapIndex (byte : Nat → UInt8) (array : Nat) : Nat :=
  ((List.range' 0x200 0x80).find? fun slot => read32 byte (array + slot * capIndexSize) ≠ 0).getD 0

/-- One recreated object: its slot follows the previous one. -/
def linkCapIndex (arrays : CapArrays) (info : CapKcapInfo) (x : Nat × Core) :
    Except Err (Nat × Core) :=
  if info.kcap = 0 then .ok x
  else
    let slot := info.kcap / pageSize
    let d := arrays.stateDs.localName
    let current := arrays.stateArray + slot * capIndexSize
    let previous := arrays.stateArray + x.1 * capIndexSize
    if slot < capSlots then
      let m := write32 d current (read32 (x.2.bytes d) previous) x.2.bytes
      let m := write8 d (current + 4) 2 m
      let m := write16 d (current + 6) info.cap.localName m
      let m := write32 d previous (arrays.remoteChildArrayStart + slot * capIndexSize) m
      .ok (slot, { x.2 with bytes := m })
    else .error (.exception "Cap_index positions are invalid!")

/-- `_restore_cap_map`. -/
def restoreCapMap (g : Genode) (child : TargetChild) (st : TargetState)
    (infos : List CapKcapInfo) (core : Core) : Except Err Core := do
  let arrays ← findCapArrays g child st
  let core := copyCapArray arrays child core
  let previous := previousCapIndex (core.bytes arrays.stateDs.localName) arrays.stateArray
  let linked ← loop (linkCapIndex arrays) infos (previous, core)
  .ok linked.2

/-! ## The dataspace that is written -/

theorem linkCapIndex_frame {arrays : CapArrays} {info : CapKcapInfo} {x x' : Nat × Core}
    (h : linkCapIndex arrays info x = .ok x') {d : Nat} (hd : d ≠ arrays.stateDs.localName) :
    x'.2.bytes d = x.2.bytes d := by
  unfold linkCapIndex at h
  split at h
  · cases h
    rfl
  · dsimp only at h
    split at h
    · cases h
      ext i
      simp [write32, write16, write8, poke_ne hd]
    · cases h

/-- Only the dataspace with the stored array is written. -/
theorem restoreCapMap_frame {g : Genode} {child : TargetChild} {st : TargetState}
    {infos : List CapKcapInfo} {core core' : Core}
    (h : restoreCapMap g child st infos core = .ok core') :
    ∃ arrays, findCapArrays g child st = .ok arrays ∧
      ∀ d ≠ arrays.stateDs.localName, core'.bytes d = core.bytes d := by
  obtain ⟨arrays, harrays, h⟩ := bind_eq_ok.mp h
  obtain ⟨linked, hloop, hlast⟩ := bind_eq_ok.mp h
  cases hlast
  refine ⟨arrays, harrays, fun d hne => ?_⟩
  refine loop_keeps (I := fun x : Nat × Core => x.2.bytes d = core.bytes d) ?_ hloop ?_
  · intro info _ x x' hx hstep
    exact (linkCapIndex_frame hstep hne).trans hx
  · ext i
    simp [copyCapArray, hne]

/-- `_restore_cap_space`: what is installed in the child's capability
space. -/
def restoreCapSpace (infos : List CapKcapInfo) : List CapKcapInfo :=
  infos.filter fun info => info.kcap ≠ 0

end Rtcr
