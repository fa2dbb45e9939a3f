import Rtcr.Restorer.Scheduled

/-!
# Restorer.Memory — the memory of the restored child

`restore_roundTrip_iff`: after `restore()` the child's dataspaces hold
what was stored exactly if they held it before the copy. The copy runs
the way it does in the checkpointer, from the child's dataspace to the
stored one.
-/

namespace Rtcr

open Checkpointer (attachedRegionInfos ramDataspaceInfos regionMapInfos)
open ByteStore Fallible

/-! ## Stored memory -/

/-- The dataspaces that a state keeps the child's memory in. -/
def memoryContents (st : TargetState) : List Cap :=
  (ramDataspaceInfos st).map (·.memoryContent) ++ (attachedRegionInfos st).map (·.memoryContent)

theorem mem_memoryContents_ram {st : TargetState} {t : StoredRamDataspaceInfo}
    (h : t ∈ ramDataspaceInfos st) : t.memoryContent ∈ memoryContents st :=
  List.mem_append_left _ (List.mem_map_of_mem h)

theorem mem_memoryContents_region {st : TargetState} {t : StoredAttachedRegionInfo}
    (h : t ∈ attachedRegionInfos st) : t.memoryContent ∈ memoryContents st :=
  List.mem_append_right _ (List.mem_map_of_mem h)

theorem scheduledVisits_subset {regionMaps taken : List Nat} {visits : List RegionVisit} :
    scheduledVisits regionMaps taken visits ⊆ visits := by
  induction visits generalizing taken with
  | nil => exact List.Subset.refl []
  | cons v vs ih =>
      by_cases h : v.region.attachedDsBadge ∈ regionMaps ∨ v.content ∈ taken
      · rw [scheduledVisits_skip h]
        exact List.subset_cons_of_subset v ih
      · rw [scheduledVisits_take h]
        exact List.cons_subset_cons v ih

/-- Work items are for stored memory. -/
theorem Scheduled.copy_stored {st : TargetState} {maps : List RegionMapComponent} {r : Restorer}
    {visits : List RegionVisit} (h : Scheduled st maps r visits) {info : OrigCopyInfo}
    (hinfo : info ∈ r.memoryToRestore) :
    info.copyDsCap ∈ memoryContents st := by
  rw [h.list, List.mem_reverse] at hinfo
  rcases List.mem_append.mp hinfo with hinfo | hinfo
  · obtain ⟨t, ht, rfl⟩ := List.mem_map.mp hinfo
    exact mem_memoryContents_ram ht
  · obtain ⟨v, hv, rfl⟩ := List.mem_map.mp hinfo
    -- what is visited is a region of the stored state
    have hpair : (v.map, v.region) ∈ regionsOf (regionMapInfos st) := by
      rw [← h.regions]
      exact List.mem_map_of_mem (scheduledVisits_subset hv)
    obtain ⟨m, hm, hregion⟩ := List.mem_flatMap.mp hpair
    obtain ⟨t, ht, he⟩ := List.mem_map.mp hregion
    cases he
    exact mem_memoryContents_region (List.mem_flatMap.mpr ⟨_, hm, ht⟩)

namespace Restorer

/-- The first `size` bytes of `orig` are in `core'` what those of `copy`
are in `core`. -/
def Holds (core core' : Core) (orig copy : Cap) (size : Nat) : Prop :=
  ∀ i < size, core'.bytes orig.localName i = core.bytes copy.localName i

/-- In `core'` the child's memory is what is stored in `core`: the RAM
dataspaces that the stored ones are translated to, and the dataspaces that
are attached where the scheduled regions were. -/
structure Restored (st : TargetState) (r : Restorer) (visits : List RegionVisit)
    (core core' : Core) : Prop where
  ramDataspaces : ∀ t ∈ ramDataspaceInfos st,
    Holds core core' (r.target t.badge) t.memoryContent t.size
  attachedRegions : ∀ v ∈ scheduledRegions st visits,
    Holds core core' v.orig v.region.memoryContent v.region.size

/-- What the memory phase is for: stored content becomes child content,
and stays as it is in the stored dataspaces. -/
structure RoundTrip (st : TargetState) (r : Restorer) (visits : List RegionVisit)
    (core core' : Core) : Prop extends Restored st r visits core core' where
  stored : ∀ copy ∈ memoryContents st, core'.bytes copy.localName = core.bytes copy.localName

/-! ## The copy -/

/-- `Holds` for the ranges of a work item. -/
def ItemHolds (core core' : Core) (info : OrigCopyInfo) : Prop :=
  ∀ i < info.copySize,
    core'.bytes info.origDsCap.localName i =
      core.bytes info.copyDsCap.localName (info.copyRelAddr + i)

theorem restored_iff {st : TargetState} {r : Restorer} {visits : List RegionVisit}
    {core core' : Core} : Restored st r visits core core' ↔
      ∀ info ∈ workItems st r visits, ItemHolds core core' info := by
  have hitem : ∀ {orig copy : Cap} {size : Nat}, Holds core core' orig copy size ↔
      ItemHolds core core' ⟨orig, copy, 0, size, false⟩ := by
    intro orig copy size
    simp [Holds, ItemHolds]
  unfold workItems
  rw [List.forall_mem_append, List.forall_mem_map, List.forall_mem_map]
  constructor
  · intro h
    exact ⟨fun t ht => hitem.mp (h.ramDataspaces t ht),
      fun v hv => hitem.mp (h.attachedRegions v hv)⟩
  · rintro ⟨hram, hregions⟩
    exact ⟨fun t ht => hitem.mpr (hram t ht), fun v hv => hitem.mpr (hregions v hv)⟩

section Copy

variable {memoryInfos : List OrigCopyInfo} {core core' : Core}

theorem restoreDataspaces_bytes (h : restoreDataspaces memoryInfos core = (none, core')) :
    core'.bytes = blitAll (pendingCopies memoryInfos) core.bytes := by
  have hnone : (copyMemory memoryInfos core).1 = none := congrArg Prod.fst h
  have hcore : (copyMemory memoryInfos core).2 = core' := congrArg Prod.snd h
  rw [← hcore, copyMemory_eq hnone]

/-- Items whose two ranges agree are copied without effect. -/
theorem restoreDataspaces_idle (h : restoreDataspaces memoryInfos core = (none, core'))
    (hheld : ∀ info ∈ memoryInfos, ItemHolds core core info) : core'.bytes = core.bytes := by
  rw [restoreDataspaces_bytes h]
  -- every byte is overwritten with itself
  refine blitAll_idle fun x hx i hcov => ?_
  obtain ⟨info, hinfo, rfl⟩ := List.mem_map.mp hx
  obtain ⟨-, hlo, hhi⟩ := hcov
  change info.copyRelAddr ≤ i at hlo
  change i < info.copyRelAddr + info.copySize at hhi
  have hsame := hheld info (List.mem_of_mem_filter hinfo) (i - info.copyRelAddr) (by omega)
  rw [Nat.add_sub_cancel' hlo] at hsame
  change core.bytes info.origDsCap.localName (0 + (i - info.copyRelAddr)) = _
  rw [Nat.zero_add]
  exact hsame

/-- Only stored dataspaces are written. -/
theorem restoreDataspaces_frame (h : restoreDataspaces memoryInfos core = (none, core')) {d : Nat}
    (hd : ∀ info ∈ memoryInfos, info.copyDsCap.localName ≠ d) :
    core'.bytes d = core.bytes d := by
  rw [restoreDataspaces_bytes h]
  funext i
  refine blitAll_of_ne_dst (fun x hx => ?_) core.bytes i
  obtain ⟨info, hinfo, rfl⟩ := List.mem_map.mp hx
  exact hd info (List.mem_of_mem_filter hinfo)

/-- An item that is restored, with nothing stored lost, was there before:
the copy never writes to the child. -/
theorem itemHolds_before (h : restoreDataspaces memoryInfos core = (none, core'))
    (hstored : ∀ info ∈ memoryInfos,
      core'.bytes info.copyDsCap.localName = core.bytes info.copyDsCap.localName)
    {info : OrigCopyInfo} (hrestored : ItemHolds core core' info) : ItemHolds core core info := by
  have hsame : core'.bytes info.origDsCap.localName = core.bytes info.origDsCap.localName := by
    by_cases hcopy : ∃ other ∈ memoryInfos, other.copyDsCap.localName = info.origDsCap.localName
    · -- the child's dataspace is a stored one itself
      obtain ⟨other, hother, he⟩ := hcopy
      rw [← he]
      exact hstored other hother
    · exact restoreDataspaces_frame h fun other hother he => hcopy ⟨other, hother, he⟩
  intro i hi
  rw [← hrestored i hi, hsame]

end Copy

/-! ## The whole call -/

section Call

variable {g : Genode} {st : TargetState} {child child' : TargetChild} {core core' : Core}
  {before : BeforeCopy} {r : Restorer} {visits : List RegionVisit}

/-- The memory phase, for a work list that is known. -/
theorem restoreDataspaces_roundTrip_iff {maps : List RegionMapComponent}
    (hscheduled : Scheduled st maps r visits)
    (h : restoreDataspaces r.memoryToRestore core = (none, core')) :
    RoundTrip st r visits core core' ↔ Restored st r visits core core := by
  have hitems : ∀ c₁ c₂ : Core, Restored st r visits c₁ c₂ ↔
      ∀ info ∈ r.memoryToRestore, ItemHolds c₁ c₂ info := by
    intro c₁ c₂
    rw [restored_iff, hscheduled.list]
    simp only [List.mem_reverse]
  constructor
  · intro hround
    apply (hitems core core).mpr
    intro info hinfo
    refine itemHolds_before h (fun other hother => ?_)
      ((hitems core core').mp hround.toRestored info hinfo)
    exact hround.stored _ (hscheduled.copy_stored hother)
  · intro hheld
    -- nothing had to be restored, so nothing is lost
    have hsame : core'.bytes = core.bytes :=
      restoreDataspaces_idle h ((hitems core core).mp hheld)
    refine ⟨⟨fun t ht i hi => ?_, fun v hv i hi => ?_⟩, fun copy _ => congrFun hsame _⟩
    · rw [hsame]
      exact hheld.ramDataspaces t ht i hi
    · rw [hsame]
      exact hheld.attachedRegions v hv i hi

theorem restore_cases {r : Restorer} (h : restore g st child r = .ok (child', core')) :
    ∃ before, untilCopy g st child r = .ok before ∧ before.child = child' ∧
      restoreDataspaces before.restorer.memoryToRestore before.restorer.core = (none, core') := by
  obtain ⟨before, hbefore, hcopy⟩ := bind_eq_ok.mp h
  refine ⟨before, hbefore, ?_⟩
  split at hcopy
  · rename_i core hdone
    simp only [Except.ok.injEq, Prod.mk.injEq] at hcopy
    obtain ⟨rfl, rfl⟩ := hcopy
    exact ⟨rfl, hdone⟩
  · cases hcopy

/-- **Memory round trip**: where `restore()` gets to its end for a child
with nothing managed, the work list has an item for every stored RAM
dataspace and, once, for every memory content of an attached region, and
only the stored capability index array has been rewritten. The round trip
is made exactly if the child's memory was the stored one before the copy. -/
theorem restore_roundTrip_iff (hchild : child.Unmanaged)
    (h : restore g st child (.new core) = .ok (child', core')) :
    ∃ before visits arrays, untilCopy g st child (.new core) = .ok before ∧
      Scheduled st child'.regionMaps before.restorer visits ∧
      findCapArrays g child' st = .ok arrays ∧
      (∀ d < core.nextBadge, d ≠ arrays.stateDs.localName →
        before.restorer.core.bytes d = core.bytes d) ∧
      (RoundTrip st before.restorer visits before.restorer.core core' ↔
        Restored st before.restorer visits before.restorer.core before.restorer.core) := by
  obtain ⟨before, hbefore, rfl, hcopy⟩ := restore_cases h
  obtain ⟨⟨visits, hscheduled⟩, arrays, harrays, hframe⟩ := untilCopy_scheduled hchild hbefore
  exact ⟨before, visits, arrays, hbefore, hscheduled, harrays, hframe,
    restoreDataspaces_roundTrip_iff hscheduled hcopy⟩

end Call

end Restorer

/-! ## A byte that is lost -/

/-- The session arguments of the small child, and its dataspace. -/
def Genode.small : Genode where
  ramQuota args := if args = "" then 0 else 0x10000
  setRamQuota args _ := args
  dataspaceSize _ := 0xa000

/-- The small child, bootstrapped once more. -/
def TargetChild.twin : TargetChild where
  services :=
    { pdRoot :=
        [.bare 210 true [⟨⟨240⟩, true⟩]
          [{ attachedDsCap := ⟨231⟩, size := 0xa000, offset := 0, relAddr := 0x1000
             executable := false, bootstrapped := true }]]
      cpuRoot := [.bare 220 true [.running 221 "main" true]]
      ramRoot :=
        [.bare 230 true 0
          [{ cap := ⟨231⟩, size := 0xa000, cached := .cached, bootstrapped := true
             timestamp := 1, mrmInfo := none }]]
      rmRoot := none
      logRoot := none
      timerRoot := none }
  pd := ⟨210⟩
  cpu := ⟨220⟩
  ram := ⟨230⟩
  granularity := 0
  capMapInfo := 0x1000
  inBootstrap := false

namespace RoundTripSample

open Restorer

/-- A checkpoint of the small child when its memory holds a 7. -/
def checkpoint : CheckpointResult :=
  (Checkpointer.new
    { Core.small with bytes := fun d i => if d = 31 ∧ i = 0x9000 then 7 else 0 }).checkpoint
    .empty TargetChild.small

def restorer : Restorer := .new { checkpoint.checkpointer.core with nextBadge := 300 }

def before : Except Err BeforeCopy :=
  untilCopy Genode.small checkpoint.state TargetChild.twin restorer

def after : Except Err (TargetChild × Core) :=
  restore Genode.small checkpoint.state TargetChild.twin restorer

theorem before_probe : (before.toOption.map fun b => b.restorer.core.bytes 100 0x9000) = some 7 := by
  decide +kernel

theorem after_probe : (after.toOption.map fun x => x.2.bytes 100 0x9000) = some 0 := by
  decide +kernel

/-- **The stored byte is lost**: `restore()` gets to its end, and the 7
is overwritten with the zero of the new child. -/
theorem stored_byte_lost : checkpoint.thrown = none ∧ TargetChild.twin.Unmanaged ∧
    ∃ b child' core' visits, before = .ok b ∧ after = .ok (child', core') ∧
      Scheduled checkpoint.state child'.regionMaps b.restorer visits ∧
      ¬RoundTrip checkpoint.state b.restorer visits b.restorer.core core' := by
  have hchild : TargetChild.twin.Unmanaged := ⟨by decide, by decide⟩
  refine ⟨by decide +kernel, hchild, ?_⟩
  obtain ⟨⟨child', core'⟩, ha, hzero⟩ := exists_ok_of_map after_probe
  obtain ⟨b, hb, rfl, -⟩ := restore_cases ha
  obtain ⟨⟨visits, hscheduled⟩, -⟩ := untilCopy_scheduled hchild hb
  refine ⟨b, b.child, core', visits, hb, ha, hscheduled, fun hround => ?_⟩
  have hseven : b.restorer.core.bytes 100 0x9000 = 7 := by
    obtain ⟨b', hb', hprobe⟩ := exists_ok_of_map before_probe
    cases hb.symm.trans hb'
    exact hprobe
  have hmem : (⟨100⟩ : Cap) ∈ memoryContents checkpoint.state := by decide +kernel
  have hkept : core'.bytes 100 0x9000 = b.restorer.core.bytes 100 0x9000 :=
    congrFun (hround.stored ⟨100⟩ hmem) 0x9000
  have hzero : core'.bytes 100 0x9000 = 0 := hzero
  rw [hzero, hseven] at hkept
  exact absurd hkept (by decide)

/-- The equivalence for the same run. -/
theorem restore_roundTrip_iff_sample : ∃ child' core' b visits arrays,
    after = .ok (child', core') ∧ before = .ok b ∧
      Scheduled checkpoint.state child'.regionMaps b.restorer visits ∧
      findCapArrays Genode.small child' checkpoint.state = .ok arrays ∧
      (∀ d < 300, d ≠ arrays.stateDs.localName →
        b.restorer.core.bytes d = checkpoint.checkpointer.core.bytes d) ∧
      (RoundTrip checkpoint.state b.restorer visits b.restorer.core core' ↔
        Restored checkpoint.state b.restorer visits b.restorer.core b.restorer.core) := by
  obtain ⟨⟨child', core'⟩, ha, -⟩ := exists_ok_of_map after_probe
  have hchild : TargetChild.twin.Unmanaged := ⟨by decide, by decide⟩
  obtain ⟨b, visits, arrays, hspec⟩ := restore_roundTrip_iff hchild ha
  exact ⟨child', core', b, visits, arrays, ha, hspec⟩

end RoundTripSample

end Rtcr
