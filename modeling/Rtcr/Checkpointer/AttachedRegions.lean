import Rtcr.Checkpointer.Prepare
import Rtcr.Region

/-!
# Checkpointer.AttachedRegions — are the stored regions the child's?

`prepareAttachedRegions` matches records and regions by range, never by
identity. Seen through the regions the records stand for it is
`Region.reconcile`, and `Region.Separated` says when that is exact.
-/

namespace Rtcr.Checkpointer

open Reconcile

/-- The regions the child has. -/
def childRegions (child : List AttachedRegionInfo) : List Region :=
  child.map AttachedRegionInfo.toRegion

/-- The regions the checkpoint has. -/
def storedRegions (stored : List StoredAttachedRegionInfo) : List Region :=
  stored.map StoredAttachedRegionInfo.toRegion

theorem track_regions (c : AttachedRegionInfo) (ts : List StoredAttachedRegionInfo)
    (ck : Checkpointer) :
    storedRegions (track attachedRegionKind c ts ck).1 =
      if (storedRegions ts).any (·.covers c.relAddr) then storedRegions ts
      else c.toRegion :: storedRegions ts := by
  have hany : (storedRegions ts).any (·.covers c.relAddr) = ts.any (attachedRegionKind.stored c) := by
    rw [storedRegions, List.any_map]
    rfl
  rw [hany, track]
  split
  · exact map_updateFirst (fun _ _ => rfl) ts ck
  · rfl

theorem addMissing_regions (child : List AttachedRegionInfo)
    (ts : List StoredAttachedRegionInfo) (ck : Checkpointer) :
    storedRegions (addMissing attachedRegionKind child ts ck).1 =
      Region.track (childRegions child) (storedRegions ts) := by
  induction child generalizing ts ck with
  | nil => rfl
  | cons c child ih =>
      rw [addMissing, ih, track_regions]
      rfl

/-- The list operation behind `_prepare_attached_regions`. -/
theorem prepareAttachedRegions_regions (stored : List StoredAttachedRegionInfo)
    (child : List AttachedRegionInfo) (ck : Checkpointer) :
    storedRegions (prepareAttachedRegions stored child ck).1 =
      Region.reconcile (childRegions child) (storedRegions stored) := by
  rw [prepareAttachedRegions, reconcile_fst, Region.reconcile, ← addMissing_regions,
    storedRegions, storedRegions, List.filter_map]
  congr 2
  funext t
  simp only [Function.comp_apply, childRegions, List.any_map]
  rfl

/-- **The stored regions are exactly the child's**, one record for each
with the same dataspace, address, size, offset and flag, if and only if
matching by range separates the two lists. `Separated` excludes neighbours
that are taken for each other at the inclusive upper end, and likewise a
region that has been replaced by another one at the same address: there
the stale record covers the new region's start and is kept. -/
theorem prepareAttachedRegions_exact_iff (stored : List StoredAttachedRegionInfo)
    (child : List AttachedRegionInfo) (ck : Checkpointer)
    (hstored : (storedRegions stored).Pairwise fun s t =>
      disjointRanges s.addr s.size t.addr t.size = true)
    (hchild : (childRegions child).Pairwise Region.Apart) (hsize : ∀ c ∈ child, 0 < c.size) :
    (storedRegions (prepareAttachedRegions stored child ck).1).Perm (childRegions child) ↔
      Region.Separated (childRegions child) (storedRegions stored) := by
  rw [prepareAttachedRegions_regions]
  refine Region.reconcile_perm_iff hchild (fun r hr => ?_) hstored
  obtain ⟨c, hc, rfl⟩ := List.mem_map.mp hr
  exact hsize c hc

/-- Regions of one page each, two of them neighbours. -/
def neighbours (lower upper : Nat) : List AttachedRegionInfo :=
  [{ attachedDsCap := ⟨50⟩, size := 0x1000, offset := 0, relAddr := lower
     executable := false, bootstrapped := false },
   { attachedDsCap := ⟨51⟩, size := 0x1000, offset := 0, relAddr := upper
     executable := true, bootstrapped := false }]

/-- Listed in descending order, both neighbours are stored. -/
theorem prepareAttachedRegions_descending :
    (storedRegions (prepareAttachedRegions [] (neighbours 0x2000 0x1000) (new Core.small)).1).Perm
      (childRegions (neighbours 0x2000 0x1000)) :=
  (prepareAttachedRegions_exact_iff [] (neighbours 0x2000 0x1000) (new Core.small)
    (by decide) (by decide) (by decide)).mpr
    ⟨by decide, by decide, by decide⟩

/-- Listed in ascending order, the upper neighbour is left out. -/
theorem neighbour_left_out :
    ¬(storedRegions (prepareAttachedRegions [] (neighbours 0x1000 0x2000) (new Core.small)).1).Perm
      (childRegions (neighbours 0x1000 0x2000)) := by
  rw [prepareAttachedRegions_regions]
  decide

/-- One page at `0x1000`, of the dataspace `ds`. -/
def onePage (ds : Nat) : List AttachedRegionInfo :=
  [{ attachedDsCap := ⟨ds⟩, size := 0x1000, offset := 0, relAddr := 0x1000
     executable := false, bootstrapped := false }]

-- The region has been replaced since it was stored: its record stays.
example : storedRegions (prepareAttachedRegions
    (prepareAttachedRegions [] (onePage 50) (new Core.small)).1 (onePage 51) (new Core.small)).1 =
      childRegions (onePage 50) := by
  decide

end Rtcr.Checkpointer
