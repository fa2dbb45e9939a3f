import Rtcr.Checkpointer.Counts
import Rtcr.Checkpointer.History
import Rtcr.Restorer.RestoreState
import Rtcr.Restorer.Steps

/-!
# Restorer.Exclusions — the dataspaces without a copy

The checkpointer makes no copy of an attached region map: it knows the
dataspaces of all region maps from its own list. The restorer does not
schedule an attached region map: it makes such a list from the stored
records. `exclusions_agree`: after a checkpoint the two exclude the same
regions.
-/

namespace Rtcr

namespace Checkpointer

open Reconcile

/-! ## The checkpointer's side -/

/-- A reference has no copy exactly if it is to one of `maps`; those are
the known region-map dataspaces. -/
structure Excluding (maps : Nat → Prop) (refs : Multiset Ref) (ck : Checkpointer) : Prop where
  next : 0 < ck.core.nextBadge
  copies : ∀ info ∈ ck.copyDataspaces, ¬maps info.badge ∧ info.copyDsCap ≠ Cap.invalid
  refs : ∀ r ∈ refs, r.2 = Cap.invalid ↔ maps r.1
  known : ∀ b, b ∈ ck.regionMapDataspaces ↔ maps b

variable {maps : Nat → Prop} {refs : Multiset Ref} {ck : Checkpointer}

theorem excluding_recording : Recording (Excluding maps refs) where
  newRecord _ h := ⟨h.next, h.copies, h.refs, h.known⟩
  destroyRecord _ _ h := ⟨h.next, h.copies, h.refs, h.known⟩

theorem Excluding.use {excluded : Bool} {cap : Cap} (size : Nat) (h : Excluding maps refs ck)
    (hex : excluded = true ↔ maps cap.localName) :
    Excluding maps (refs + {(cap.localName, (ck.useCopyDataspace excluded cap size).1)})
      (ck.useCopyDataspace excluded cap size).2 := by
  have hall : ∀ v : Cap, (v = Cap.invalid ↔ maps cap.localName) →
      ∀ r ∈ refs + {(cap.localName, v)}, r.2 = Cap.invalid ↔ maps r.1 := by
    intro v hv r hr
    rcases Multiset.mem_add.mp hr with hr | hr
    · exact h.refs r hr
    · rw [Multiset.mem_singleton.mp hr]
      exact hv
  unfold useCopyDataspace
  split
  · -- a copy that is known takes precedence, but a region map has none
    rename_i known hfind
    obtain ⟨hmem, hkey⟩ := find_isBadge_some hfind
    obtain ⟨hmap, hvalid⟩ := h.copies known hmem
    have hkey : known.badge = cap.localName := hkey
    rw [hkey] at hmap
    refine ⟨h.next, fun info hinfo => ?_, hall _ (iff_of_false hvalid hmap), h.known⟩
    obtain ⟨x, hx, rfl | rfl⟩ := List.mem_modifyFirst hinfo
    · exact h.copies _ hx
    · exact h.copies x hx
  · by_cases he : excluded = true
    · rw [if_pos he]
      exact ⟨h.next, h.copies, hall _ (iff_of_true rfl (hex.mp he)), h.known⟩
    · rw [if_neg he]
      have hmap : ¬maps cap.localName := fun hm => he (hex.mpr hm)
      have hvalid : ck.core.newDataspace.1 ≠ Cap.invalid := by
        intro hinv
        have hzero : ck.core.nextBadge = 0 := congrArg Cap.localName hinv
        have hpos := h.next
        omega
      refine ⟨Nat.succ_pos _, fun info hinfo => ?_, hall _ (iff_of_false hvalid hmap), h.known⟩
      rcases List.mem_cons.mp hinfo with rfl | hinfo
      · exact ⟨hmap, hvalid⟩
      · exact h.copies info hinfo

theorem Excluding.drop {b : Nat} {v : Cap} (h : Excluding maps (refs + {(b, v)}) ck) :
    Excluding maps refs (ck.dropCopyDataspace b) := by
  have hrest : ∀ r ∈ refs, r.2 = Cap.invalid ↔ maps r.1 := fun r hr =>
    h.refs r (Multiset.mem_add.mpr (.inl hr))
  unfold dropCopyDataspace
  split
  · split
    · exact ⟨h.next, fun info hinfo => h.copies info (List.mem_of_mem_eraseP hinfo), hrest, h.known⟩
    · refine ⟨h.next, fun info hinfo => ?_, hrest, h.known⟩
      obtain ⟨x, hx, rfl | rfl⟩ := List.mem_modifyFirst hinfo
      · exact h.copies _ hx
      · exact h.copies x hx
  · exact ⟨h.next, h.copies, hrest, h.known⟩

theorem excluding_booking :
    Booking (Excluding maps) (fun b => ¬maps b) (fun _ => True) maps where
  recording _ := excluding_recording
  ram _ _ size _ hcap hck := hck.use size (by simp [hcap])
  attached _ info ck _ hck := hck.use info.size (by rw [List.contains_iff_mem, hck.known])
  drop _ _ _ _ hck := hck.drop
  regionMap _ b ck hb hck := by
    refine ⟨hck.next, hck.copies, hck.refs, fun b' => ?_⟩
    rw [List.mem_cons, hck.known, or_iff_right_of_imp]
    rintro rfl
    exact hb

/-! ## The restorer's side -/

/-- Records that are current, one for every object, say what the objects
say. -/
theorem Currently.mem_flatMap {χ τ : Type} {badge : τ → Nat} {childBadge : χ → Nat}
    {current : χ → τ → Prop} {ts : List τ} {cs : List χ} {f : τ → List Nat} {g : χ → List Nat}
    (h : Currently badge childBadge current ts cs)
    (hkeys : (ts.map badge).Perm (cs.map childBadge)) (hcs : (cs.map childBadge).Nodup)
    (hfg : ∀ t ∈ ts, ∀ c ∈ cs, childBadge c = badge t → current c t → ∀ b, b ∈ f t ↔ b ∈ g c)
    (b : Nat) : b ∈ ts.flatMap f ↔ b ∈ cs.flatMap g := by
  rw [List.mem_flatMap, List.mem_flatMap]
  constructor
  · intro ⟨t, ht, hb⟩
    obtain ⟨c, hc, hkey, hcur⟩ := h t ht
    exact ⟨c, hc, (hfg t ht c hc hkey hcur b).mp hb⟩
  · intro ⟨c, hc, hb⟩
    obtain ⟨t, ht, hkey⟩ := List.mem_map.mp (hkeys.mem_iff.mpr (List.mem_map_of_mem hc))
    obtain ⟨c', hc', hkey', hcur⟩ := h t ht
    obtain rfl := List.inj_on_of_nodup_map hcs hc' hc (hkey'.trans hkey)
    exact ⟨t, ht, (hfg t ht c' hc' hkey' hcur b).mpr hb⟩

theorem CurrentRegionMap.dsBadge {capMap : List BadgeKcapInfo} {c : RegionMapComponent}
    {t : StoredRegionMapInfo} (h : CurrentRegionMap capMap c t) :
    t.dsBadge = c.parentState.dsCap.localName := congrArg (·.dsBadge) h

/-- The list made from the stored records is that of the child. -/
theorem mem_createStoredRegionMapDataspaces {capMap : List BadgeKcapInfo} {st : TargetState}
    {s : CustomServices} (hcur : AllCurrent capMap s st) (hstep : PrepareStep capMap .empty st s)
    (hs : DistinctObjects s) (b : Nat) :
    b ∈ createStoredRegionMapDataspaces st.pdSessions st.rmSessions ↔
      b ∈ createRegionMapDataspaces s.pdRoot s.rmRoot := by
  unfold createStoredRegionMapDataspaces createRegionMapDataspaces
  rw [List.mem_reverse, List.mem_reverse, List.mem_append, List.mem_append]
  refine or_congr ?_ ?_
  · refine hcur.pd.mem_flatMap hstep.pd.keys hs.pd (fun t _ c _ _ h b => ?_) b
    rw [h.addressSpace.dsBadge, h.stackArea.dsBadge, h.linkerArea.dsBadge]
    rfl
  · refine hcur.rm.mem_flatMap hstep.rm.keys hs.rm (fun t ht c hc hkey h b => ?_) b
    obtain ⟨c', hc', hkey', base, -, hupd⟩ := hstep.rm.each t ht
    obtain rfl := List.inj_on_of_nodup_map hs.rm hc' hc (hkey'.trans hkey.symm)
    have hmaps := h.regionMaps.mem_flatMap (f := fun u => [u.dsBadge])
      (g := fun d => [d.parentState.dsCap.localName]) hupd.regionMaps.keys (hs.regionMaps c' hc')
      (fun u _ d _ _ hd b => by rw [hd.dsBadge]) b
    rwa [← List.map_eq_flatMap, ← List.map_eq_flatMap] at hmaps

/-! ## Agreement -/

theorem Apart.servicesOk {child : TargetChild} (h : Apart child)
    (hs : DistinctObjects child.services) :
    Booking.ServicesOk (fun b => b ∉ child.regionMapDataspaces) (fun _ => True) (fun _ => True)
      (· ∈ child.regionMapDataspaces) (· ∈ child.services.pdRoot) child.services where
  ram c hc d hd := ⟨h c hc d hd, trivial⟩
  pd c hc := by
    refine ⟨hc, fun d hd hkey => ?_, fun a ha => ⟨?_, fun _ _ => trivial⟩⟩
    · rw [List.inj_on_of_nodup_map hs.pd hd hc hkey]
    · exact List.mem_map_of_mem (List.mem_append_left _ (List.mem_flatMap.mpr ⟨c, hc, ha⟩))
  rm c hc a ha :=
    ⟨List.mem_map_of_mem (List.mem_append_right _ (List.mem_flatMap.mpr ⟨c, hc, ha⟩)),
      fun _ _ => trivial⟩

/-- After the prepare phase of a first call. -/
theorem prepared_excluding {core : Core} (hcore : 0 < core.nextBadge) {child : TargetChild}
    (hs : DistinctObjects child.services) (h : Apart child) :
    Excluding (· ∈ child.regionMapDataspaces)
      (stateRefs ((new core).prepared .empty child).1) ((new core).prepared .empty child).2 := by
  have hsame := (new core).prepareChild_sameObjects child
  have hck : Excluding (· ∈ child.regionMapDataspaces) (stateRefs .empty)
      ((new core).setUp ((new core).prepareChild child) (child.capabilityMap core)) := by
    refine ⟨hcore, fun _ he => absurd he List.not_mem_nil, fun r hr => ?_, fun b => ?_⟩
    · simp [stateRefs, TargetState.empty] at hr
    · unfold setUp
      rw [hsame.pd, hsame.rm]
      exact mem_createRegionMapDataspaces child b
  exact (excluding_booking.prepare (hsame.servicesOk (h.servicesOk hs))
    ⟨fun _ ht => absurd ht List.not_mem_nil, fun _ ht => absurd ht List.not_mem_nil⟩ hck).1

/-- What the stored records say about region maps after a first call. -/
theorem prepared_stored {core : Core} {child : TargetChild} (hs : DistinctObjects child.services)
    (b : Nat) :
    b ∈ createStoredRegionMapDataspaces ((new core).prepared .empty child).1.pdSessions
        ((new core).prepared .empty child).1.rmSessions ↔ b ∈ child.regionMapDataspaces := by
  have hsame := (new core).prepareChild_sameObjects child
  obtain ⟨hstep, hcur⟩ := prepared_current core hs
  rw [mem_createStoredRegionMapDataspaces hcur hstep (hsame.distinct hs), hsame.pd, hsame.rm]
  exact mem_createRegionMapDataspaces child b

end Checkpointer

open Checkpointer

/-- What the restorer does with a stored attached region: nothing if it
has no copy; otherwise the copy is scheduled, now or before. -/
structure SchedulesCopies (excluded : List Nat) (t : StoredAttachedRegionInfo) : Prop where
  invalid : t.memoryContent = Cap.invalid → ∀ info (r : Restorer),
    r.regionMapDataspacesFromStored = excluded → r.scheduleRegion t info = r
  valid : t.memoryContent ≠ Cap.invalid → ∀ info (r : Restorer),
    r.regionMapDataspacesFromStored = excluded →
      ∃ i ∈ (r.scheduleRegion t info).memoryToRestore, i.copyDsCap = t.memoryContent

theorem schedulesCopies {excluded : List Nat} {t : StoredAttachedRegionInfo}
    (h : t.memoryContent = Cap.invalid ↔ t.attachedDsBadge ∈ excluded) :
    SchedulesCopies excluded t where
  invalid hinv info r hr := by
    unfold Restorer.scheduleRegion
    rw [hr, if_pos (List.contains_iff_mem.mpr (h.mp hinv))]
  valid hvalid info r hr := by
    have hnot : ¬excluded.contains t.attachedDsBadge = true := fun hc =>
      hvalid (h.mpr (List.contains_iff_mem.mp hc))
    unfold Restorer.scheduleRegion
    rw [hr, if_neg hnot]
    split
    · rename_i hany
      obtain ⟨i, hi, hcopy⟩ := List.any_eq_true.mp hany
      exact ⟨i, hi, Cap.ext_localName (beq_iff_eq.mp hcopy)⟩
    · exact ⟨_, List.mem_cons_self, rfl⟩

/-- **Checkpointer and restorer exclude the same dataspaces**: after the
first checkpoint a stored attached region has no copy exactly if the
restorer takes its dataspace for a region map. -/
theorem exclusions_agree {core : Core} (hcore : 0 < core.nextBadge) {child : TargetChild}
    (hs : DistinctObjects child.services) (hapart : Apart child) {st : TargetState}
    (hst : st = ((Checkpointer.new core).checkpoint .empty child).state)
    {t : StoredAttachedRegionInfo} (ht : t ∈ attachedRegionInfos st) :
    (t.memoryContent = Cap.invalid ↔
        t.attachedDsBadge ∈ createStoredRegionMapDataspaces st.pdSessions st.rmSessions) ∧
      SchedulesCopies (createStoredRegionMapDataspaces st.pdSessions st.rmSessions) t := by
  have hiff : t.memoryContent = Cap.invalid ↔
      t.attachedDsBadge ∈ createStoredRegionMapDataspaces st.pdSessions st.rmSessions := by
    rcases checkpoint_cases (.new core) .empty child with ⟨hstate, -⟩ | ⟨hstate, -⟩
    · -- the call has ended early: nothing is stored
      rw [hst, hstate] at ht
      cases ht
    · rw [hstate] at hst
      subst hst
      rw [prepared_stored hs]
      exact (prepared_excluding hcore hs hapart).refs _ (mem_stateRefs_attached ht)
  exact ⟨hiff, schedulesCopies hiff⟩

/-- The child with its stack area attached, and a region map attached
twice in another one. -/
def TargetChild.nested : TargetChild :=
  { stackCall.child with
    services :=
      { stackCall.child.services with
        rmRoot := some [⟨⟨60⟩,
          { creationArgs := "", upgradeArgs := "", bootstrapped := false
            regionMaps := [.bare 61, (RegionMapComponent.bare 63).setRegions
              [{ attachedDsCap := ⟨62⟩, size := 0x1000, offset := 0, relAddr := 0x4000
                 executable := false, bootstrapped := false },
               { attachedDsCap := ⟨62⟩, size := 0x1000, offset := 0, relAddr := 0x1000
                 executable := false, bootstrapped := false }]] }, 0⟩] } }

/-- The records of its first checkpoint. -/
def nestedRecords : TargetState :=
  ((Checkpointer.new .small).checkpoint .empty TargetChild.nested).state

/-- The agreement for one of its attached region maps. -/
theorem exclusions_agree_nested : ∃ t ∈ attachedRegionInfos nestedRecords,
    t.memoryContent = Cap.invalid ∧
    t.attachedDsBadge ∈
      createStoredRegionMapDataspaces nestedRecords.pdSessions nestedRecords.rmSessions ∧
    SchedulesCopies
      (createStoredRegionMapDataspaces nestedRecords.pdSessions nestedRecords.rmSessions) t := by
  have hinvalid : ∃ t ∈ attachedRegionInfos nestedRecords, t.memoryContent = Cap.invalid := by
    decide +kernel
  obtain ⟨t, ht, hinv⟩ := hinvalid
  obtain ⟨hiff, hschedules⟩ := @exclusions_agree .small (by decide) .nested (by decide +kernel)
    (by decide +kernel) nestedRecords rfl t ht
  exact ⟨t, ht, hinv, hiff.mp hinv, hschedules⟩

end Rtcr
