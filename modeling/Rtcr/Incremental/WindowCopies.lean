import Rtcr.Checkpointer.FirstWindows
import Rtcr.Incremental.Copies
import Rtcr.Incremental.CopyBounds

/-!
# Incremental.WindowCopies — is what the child had mapped in the copy?

Windows onto one dataspace share one copy. It is as large as the first of
them (`Checkpointer.FirstWindows`) and gets the start of the dataspace;
`_checkpoint_dataspace_content` knows no offset. So a copy holds a window
exactly if the window lies in the first bytes of the dataspace, as many as
the first window has (`windows_stored_iff`).
-/

namespace Rtcr

open ByteStore Checkpointer Reconcile

/-! ## What a stored window is for -/

/-- The dataspace comes from no RAM session of the child and is no region
map. -/
def TargetChild.OfUnknownOrigin (child : TargetChild) (b : Nat) : Prop :=
  b ∉ child.ramBadges ∧ b ∉ child.regionMapDataspaces

instance (child : TargetChild) (b : Nat) : Decidable (child.OfUnknownOrigin b) :=
  inferInstanceAs (Decidable (_ ∧ _))

/-- What the child sees `j` bytes behind the start of a region. -/
def TargetChild.regionByte (child : TargetChild) (core : Core) (r : Region) (j : Nat) : UInt8 :=
  child.dataspaceByte core r.dsCap (r.offset + j)

/-- Byte `i` is inside the copy dataspace `copy`, and it is `v`. -/
def Checkpointer.CopyHolds (ck : Checkpointer) (copy : Cap) (i : Nat) (v : UInt8) : Prop :=
  (∃ info ∈ ck.copyDataspaces, info.copyDsCap = copy ∧ i < info.copyPages) ∧
    ck.core.bytes copy.localName i = v

/-- The first checkpoint of a child. -/
abbrev firstResult (core : Core) (child : TargetChild) : CheckpointResult :=
  (Checkpointer.new core).checkpoint .empty child

/-- The copy of every stored window of unknown origin holds, from the
offset of the window on, what the child sees in it. -/
def WindowsStored (core : Core) (child : TargetChild) : Prop :=
  ∀ t ∈ attachedRegionInfos (firstResult core child).state,
    child.OfUnknownOrigin t.attachedDsBadge → ∀ j < t.size,
      (firstResult core child).checkpointer.CopyHolds t.memoryContent (t.offset + j)
        (child.regionByte core t.toRegion j)

/-- Every window of unknown origin ends where the first window onto its
dataspace would end at offset 0, or before. -/
def WindowsInFirst (child : TargetChild) : Prop :=
  ∀ w ∈ windowsOf child.services, child.OfUnknownOrigin w.dsCap.localName → 0 < w.size →
    ∀ first ∈ firstWindow (windowsOf child.services) w.dsCap.localName,
      w.offset + w.size ≤ first.size

instance (child : TargetChild) : Decidable (WindowsInFirst child) :=
  inferInstanceAs (Decidable (∀ w ∈ windowsOf child.services,
    child.OfUnknownOrigin w.dsCap.localName → 0 < w.size →
      ∀ first ∈ firstWindow (windowsOf child.services) w.dsCap.localName,
        w.offset + w.size ≤ first.size))

theorem TargetChild.OfUnknownOrigin.dataspaceByte {child : TargetChild} {b : Nat}
    (h : child.OfUnknownOrigin b) (core : Core) (a : Nat) :
    child.dataspaceByte core ⟨b⟩ a = core.bytes b a := by
  have hnone : findByBadge (·.cap.localName) b child.allRamDataspaces = none :=
    findByBadge_eq_none.mpr h.1
  unfold TargetChild.dataspaceByte
  rw [hnone]
  rfl

/-- What core promises about the child at its first checkpoint: badges are
distinct, windows are whole pages of dataspaces that exist. -/
structure Mapped (core : Core) (child : TargetChild) : Prop where
  distinct : DistinctObjects child.services
  apart : Apart child
  pages : ∀ a ∈ child.regionMaps, ∀ r ∈ a.parentState.attachedRegions, pageSize ∣ r.size
  exist : ∀ a ∈ child.regionMaps, ∀ r ∈ a.parentState.attachedRegions,
    r.attachedDsCap.localName < core.nextBadge

theorem mem_windowsOf {child : TargetChild} {w : Region} (hw : w ∈ windowsOf child.services) :
    ∃ a ∈ child.regionMaps, ∃ r ∈ a.parentState.attachedRegions, w = r.toRegion := by
  obtain ⟨a, ha, hw⟩ := List.mem_flatMap.mp hw
  have htrack := Region.mem_of_mem_track (List.mem_reverse.mp hw)
  obtain ⟨r, hr, he⟩ := List.mem_map.mp (htrack.resolve_left List.not_mem_nil)
  exact ⟨a, ha, r, hr, he.symm⟩

/-! ## After the prepare phase -/

section FirstCall

variable {core : Core} {child : TargetChild}

/-- The records and the checkpointer when the memory phase begins. -/
abbrev firstPrepared (core : Core) (child : TargetChild) : TargetState × Checkpointer :=
  (Checkpointer.new core).prepared .empty child

theorem prepareChild_ramBadges (ck : Checkpointer) (child : TargetChild) :
    (ck.prepareChild child).ramBadges = child.ramBadges := by
  have hlists := List.map_eq_of_map_eq (fun _ _ he => RamSessionComponent.dataspaceBadges_of_outline he)
    (ck.prepareChild_sameObjects child).ram
  unfold TargetChild.ramBadges dataspacesOf
  rw [List.map_flatMap, List.map_flatMap, List.flatMap_def, List.flatMap_def, hlists]

theorem Mapped.sized (h : Mapped core child) :
    SizedByFirst child.OfUnknownOrigin (windowsOf child.services) (firstPrepared core child).2 := by
  have hsame := (Checkpointer.new core).prepareChild_sameObjects child
  have hmaps : regionMapsOf ((Checkpointer.new core).prepareChild child).services =
      child.regionMaps := by
    unfold regionMapsOf
    rw [hsame.pd, hsame.rm]
    rfl
  have hwindows : windowsOf ((Checkpointer.new core).prepareChild child).services =
      windowsOf child.services := by
    unfold windowsOf
    rw [hmaps]
    rfl
  have hstart : SizedByFirst child.OfUnknownOrigin []
      ((Checkpointer.new core).setUp ((Checkpointer.new core).prepareChild child)
        (child.capabilityMap core)) := by
    refine ⟨fun _ _ => rfl, fun b hb hunknown => hunknown.2 ?_⟩
    refine (mem_createRegionMapDataspaces child b).mp ?_
    rw [← hsame.pd, ← hsame.rm]
    exact hb
  rw [← hwindows]
  refine hstart.prepare (hsame.distinct h.distinct) (fun c hc d hd hunknown => hunknown.1 ?_)
    (fun a ha hunknown => hunknown.2 ?_) child.capMapInfo
  · rw [← prepareChild_ramBadges (Checkpointer.new core)]
    exact List.mem_map_of_mem (List.mem_flatMap.mpr ⟨c, hc, hd⟩)
  · rw [hmaps] at ha
    exact List.mem_map_of_mem ha

theorem Mapped.stored (h : Mapped core child) (w : Region) :
    w ∈ storedRegions (attachedRegionInfos (firstPrepared core child).1) ↔
      w ∈ windowsOf child.services := by
  have hsame := (Checkpointer.new core).prepareChild_sameObjects child
  have hwindows : windowsOf ((Checkpointer.new core).prepareChild child).services =
      windowsOf child.services := by
    unfold windowsOf regionMapsOf
    rw [hsame.pd, hsame.rm]
  rw [← hwindows]
  exact mem_storedWindows (hsame.distinct h.distinct) child.capMapInfo _ w

theorem firstPrepared_fresh (core : Core) (child : TargetChild) :
    FreshCopies (Checkpointer.new core) (firstPrepared core child).2 :=
  prepared_freshCopies (fun _ he => absurd he List.not_mem_nil) List.nodup_nil

/-- All copies are new. -/
theorem firstPrepared_new {e : OrigCopyCountInfo}
    (he : e ∈ (firstPrepared core child).2.copyDataspaces) :
    core.nextBadge ≤ e.copyDsCap.localName := by
  rcases (firstPrepared_fresh core child).copies e he with ⟨e₀, he₀, -⟩ | ⟨hle, -⟩
  · exact absurd he₀ List.not_mem_nil
  · exact hle

/-- The copy that a stored window of unknown origin names is as large as
the first window onto the dataspace. -/
theorem Mapped.entry (h : Mapped core child) {t : StoredAttachedRegionInfo}
    (ht : t ∈ attachedRegionInfos (firstPrepared core child).1)
    (hunknown : child.OfUnknownOrigin t.attachedDsBadge) :
    ∃ e ∈ (firstPrepared core child).2.copyDataspaces, e.badge = t.attachedDsBadge ∧
      e.copyDsCap = t.memoryContent ∧
      ∃ first ∈ firstWindow (windowsOf child.services) t.attachedDsBadge, e.size = first.size := by
  let call : Call := ⟨child, core⟩
  have hplain : ¬EverRegionMap [call] t.attachedDsBadge := by
    simpa [EverRegionMap, call] using hunknown.2
  have hmaps : ∀ b ∈ child.regionMapDataspaces, ¬¬EverRegionMap [call] b := fun b hb =>
    not_not.mpr ⟨call, by simp, hb⟩
  have hone : Unrecycled [call] := Apart.unrecycled h.apart h.distinct
  have hservices := hone.plainServices (List.mem_singleton_self call)
  have hcounted := (countedState_empty core).prepared hmaps hservices
  obtain ⟨e, he, hbadge, hcopy⟩ :=
    hcounted.exact.entry _ (mem_stateRefs_attached ht) hplain
  have hfind : (firstPrepared core child).2.copyDataspaces.find? (isBadge t.attachedDsBadge) =
      some e := by
    have hkey : e.badge = t.attachedDsBadge := hbadge
    rw [isBadge_eq, ← hkey]
    exact find?_key_of_mem hcounted.exact.nodup he
  have hsize := h.sized.sizes _ hunknown
  rw [copySizeOf, hfind] at hsize
  obtain ⟨first, hfirst, heq⟩ := Option.map_eq_some_iff.mp hsize.symm
  exact ⟨e, he, hbadge, hcopy, first, hfirst, heq.symm⟩

/-! ## The memory phase -/

/-- The copy of a dataspace of unknown origin gets its first bytes, as
many as it has itself. -/
theorem copied_of_unknownOrigin (hret : (firstResult core child).thrown = none)
    {e : OrigCopyCountInfo} (he : e ∈ (firstPrepared core child).2.copyDataspaces)
    (hunknown : child.OfUnknownOrigin e.badge) (hexist : e.badge < core.nextBadge) {i : Nat}
    (hi : i < e.size) :
    (firstResult core child).checkpointer.core.bytes e.copyDsCap.localName i =
      core.bytes e.badge i := by
  have hfresh := firstPrepared_fresh core child
  have hchild := prepareChild_ramBadges (Checkpointer.new core) child
  let items := (Checkpointer.new core).workList .empty child
  have hother : ∀ d ∈ dataspacesOf ((Checkpointer.new core).prepareChild child).services.ramRoot,
      e.badge ≠ d.cap.localName := by
    intro d hd hbadge
    refine hunknown.1 ?_
    rw [← hchild, hbadge]
    exact List.mem_map_of_mem hd
  -- no other item goes into this copy
  have hitems : ∀ x ∈ items, x.done = false ∧ core.nextBadge ≤ x.copyDsCap.localName ∧
      (x.copyDsCap = e.copyDsCap → x = e.item) := by
    refine resolveAll_keeps (fun d hd dd _ m hm hmd => ?_) fun x hx => ?_
    · refine ⟨rfl, hm.2.1, fun hcopy => absurd hmd ?_⟩
      rw [hm.2.2 hcopy]
      exact hother d hd
    · obtain ⟨e', he', rfl⟩ := mem_createMemoryToCheckpoint.mp hx
      refine ⟨rfl, firstPrepared_new he', fun hcopy => ?_⟩
      rw [List.inj_on_of_nodup_map hfresh.nodup he' he (congrArg Cap.localName hcopy)]
  have hmem : e.item ∈ items :=
    mem_resolveAll_of_other (mem_createMemoryToCheckpoint.mpr ⟨e, he, rfl⟩) hother
  have hpending : pendingCopies items = items.map OrigCopyInfo.toCopy := by
    unfold pendingCopies
    rw [List.filter_eq_self.mpr fun x hx => by simp [(hitems x hx).1]]
  have honly : ∀ x ∈ items, x.toCopy.Covers e.copyDsCap.localName i → x = e.item :=
    fun x hx hcov => (hitems x hx).2.2 (Cap.ext_localName hcov.1.symm)
  rw [(checkpoint_returns hret).2.2]
  show blitAll (pendingCopies items) _ e.copyDsCap.localName i = _
  rw [hpending]
  refine blitAll_covered ?_ ?_ (.inl ⟨e.item.toCopy, List.mem_map_of_mem hmem, rfl, ?_, ?_⟩)
  · intro bx hbx hcov bz hbz hsrc
    obtain ⟨x, hx, rfl⟩ := List.mem_map.mp hbx
    obtain ⟨y, hy, rfl⟩ := List.mem_map.mp hbz
    rw [honly x hx hcov] at hsrc
    have hbadge : e.badge = y.copyDsCap.localName := hsrc
    have hnew := (hitems y hy).2.1
    omega
  · intro bx hbx hcov
    obtain ⟨x, hx, rfl⟩ := List.mem_map.mp hbx
    rw [honly x hx hcov]
    show (firstPrepared core child).2.core.bytes e.badge (0 + (i - 0)) = _
    rw [Nat.zero_add, Nat.sub_zero]
    exact congrFun (hfresh.grown.bytes _ hexist) i
  · exact Nat.zero_le i
  · show i < 0 + e.size
    omega

theorem alignAddr_of_dvd {n : Nat} (h : pageSize ∣ n) : alignAddr n = n :=
  le_antisymm (alignAddr_le h le_rfl) (le_alignAddr n)

/-- **What the child had mapped is in the copies** exactly if every window
lies in the first bytes of its dataspace, as many as the first window onto
it has. -/
theorem windows_stored_iff (h : Mapped core child)
    (hret : (firstResult core child).thrown = none) :
    WindowsStored core child ↔ WindowsInFirst child := by
  obtain ⟨hstate, -, hck⟩ := checkpoint_returns hret
  have hcopies : (firstResult core child).checkpointer.copyDataspaces =
      (firstPrepared core child).2.copyDataspaces := congrArg (·.copyDataspaces) hck
  unfold WindowsStored
  rw [hstate]
  constructor
  · intro hstored w hw hunknown hpos first hfirst
    obtain ⟨t, ht, rfl⟩ := List.mem_map.mp ((h.stored w).mpr hw)
    obtain ⟨e, he, -, hcopy, first', hfirst', hsize⟩ := h.entry ht hunknown
    obtain rfl : first = first' := Option.some.inj (hfirst.symm.trans hfirst')
    -- the last byte of the window is inside the copy, which is whole pages
    have hlast : t.size - 1 < t.size := Nat.sub_lt hpos Nat.one_pos
    obtain ⟨⟨info, hinfo, hinfoCopy, hlt⟩, -⟩ := hstored t ht hunknown (t.size - 1) hlast
    rw [hcopies] at hinfo
    obtain rfl : info = e := List.inj_on_of_nodup_map (firstPrepared_fresh core child).nodup hinfo
      he (congrArg Cap.localName (hinfoCopy.trans hcopy.symm))
    obtain ⟨a, ha, r, hr, rfl⟩ := mem_windowsOf (List.mem_of_find?_eq_some hfirst)
    have hpages : info.copyPages = r.size := by
      unfold OrigCopyCountInfo.copyPages
      rw [hsize]
      exact alignAddr_of_dvd (h.pages a ha r hr)
    rw [hpages] at hlt
    show t.offset + t.size ≤ r.size
    omega
  · intro hfits t ht hunknown j hj
    have hw : t.toRegion ∈ windowsOf child.services := (h.stored _).mp (List.mem_map_of_mem ht)
    obtain ⟨e, he, hbadge, hcopy, first, hfirst, hsize⟩ := h.entry ht hunknown
    have hend : t.offset + t.size ≤ first.size :=
      hfits _ hw hunknown (Nat.zero_lt_of_lt hj) first hfirst
    have hin : t.offset + j < e.size := by omega
    obtain ⟨a, ha, r, hr, heq⟩ := mem_windowsOf hw
    have hexist : e.badge < core.nextBadge := by
      have hcap : t.attachedDsBadge = r.attachedDsCap.localName :=
        congrArg (fun w : Region => w.dsCap.localName) heq
      rw [hbadge, hcap]
      exact h.exist a ha r hr
    refine ⟨⟨e, hcopies ▸ he, hcopy, hin.trans_le (le_alignAddr e.size)⟩, ?_⟩
    rw [← hcopy, copied_of_unknownOrigin hret he (hbadge ▸ hunknown) hexist hin, hbadge]
    exact (hunknown.dataspaceByte core (t.offset + j)).symm

end FirstCall

/-! ### Windows onto a dataspace from somewhere else -/

/-- The small child with windows onto dataspace 50. -/
def windowChild (windows : List AttachedRegionInfo) : TargetChild :=
  { TargetChild.small with
    services :=
      { TargetChild.small.services with
        pdRoot := [.bare 10 true []
          (windows ++
            [{ attachedDsCap := ⟨31⟩, size := 0xa000, offset := 0, relAddr := 0x1000
               executable := false, bootstrapped := true }])] } }

/-- A window of two pages and one onto the second of them. -/
def nestedWindows : TargetChild :=
  windowChild
    [{ attachedDsCap := ⟨50⟩, size := 0x2000, offset := 0, relAddr := 0x30000
       executable := false, bootstrapped := false },
     { attachedDsCap := ⟨50⟩, size := 0x1000, offset := 0x1000, relAddr := 0x20000
       executable := false, bootstrapped := false }]

theorem windows_stored_nested : WindowsStored .small nestedWindows := by
  have hmapped : Mapped .small nestedWindows :=
    ⟨by decide +kernel, by decide +kernel, by decide +kernel, by decide +kernel⟩
  exact (windows_stored_iff hmapped (by decide +kernel)).mpr (by decide +kernel)

/-- A window onto the second page only. -/
def secondPage : TargetChild :=
  windowChild
    [{ attachedDsCap := ⟨50⟩, size := 0x1000, offset := 0x1000, relAddr := 0x20000
       executable := false, bootstrapped := false }]

/-- **A window with an offset is lost**: the copy is one page, and the
window ends behind it. -/
theorem window_offset_lost :
    ¬∀ core child, Mapped core child → (firstResult core child).thrown = none →
      WindowsStored core child := by
  intro h
  have hmapped : Mapped .small secondPage :=
    ⟨by decide +kernel, by decide +kernel, by decide +kernel, by decide +kernel⟩
  have hstored := h .small secondPage hmapped (by decide +kernel)
  have hbehind : ∃ t ∈ attachedRegionInfos (firstResult .small secondPage).state,
      secondPage.OfUnknownOrigin t.attachedDsBadge ∧ 0 < t.size ∧
      ∀ info ∈ (firstResult .small secondPage).checkpointer.copyDataspaces,
        info.copyDsCap = t.memoryContent → info.copyPages ≤ t.offset := by
    decide +kernel
  obtain ⟨t, ht, hunknown, hpos, hsmall⟩ := hbehind
  obtain ⟨⟨info, hinfo, hcopy, hlt⟩, -⟩ := hstored t ht hunknown 0 hpos
  have hle := hsmall info hinfo hcopy
  omega

end Rtcr
