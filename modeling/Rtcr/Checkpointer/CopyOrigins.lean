import Rtcr.Checkpointer.AttachedRegions
import Rtcr.Checkpointer.Users

/-!
# Checkpointer.CopyOrigins — what has a copy after the prepare phase

An entry of `_copy_dataspaces` does not count more users than there are
records that name its dataspace, so with the last record the entry goes
(`Used`). What records name after the phase, the child names, or a stored
region does that was taken for a region of the child (`prepared_named`).
-/

namespace Rtcr

namespace Checkpointer

open Reconcile

/-! ## Entries have users -/

/-- One entry for every badge, and records for the users it counts. -/
structure Used (refs : Multiset Ref) (ck : Checkpointer) : Prop where
  table : ∃ maps, Tallied maps ck
  counted : ∀ b, ck.users b ≤ RefCount.uses refs b

variable {refs : Multiset Ref} {ck : Checkpointer}

theorem used_recording (refs : Multiset Ref) : Recording (Used refs) where
  newRecord _ h := ⟨h.table.imp fun _ ht => ⟨ht.nodup, ht.used, ht.maps⟩, h.counted⟩
  destroyRecord _ _ h := ⟨h.table.imp fun _ ht => ⟨ht.nodup, ht.used, ht.maps⟩, h.counted⟩

theorem Used.use (h : Used refs ck) (excluded : Bool) (cap : Cap) (size : Nat) :
    Used (refs + {(cap.localName, (ck.useCopyDataspace excluded cap size).1)})
      (ck.useCopyDataspace excluded cap size).2 := by
  obtain ⟨maps, ht⟩ := h.table
  have hex : excluded = true ↔ cap.localName ∈ if excluded then [cap.localName] else [] := by
    cases excluded <;> simp
  obtain ⟨htable, husers⟩ := ht.use hex size
  refine ⟨⟨maps, htable⟩, fun b => ?_⟩
  have hle := h.counted b
  rw [husers, addUser, RefCount.uses_add, RefCount.uses_singleton]
  by_cases hb : b = cap.localName
  · rw [if_pos hb, if_pos hb.symm, ← hb]
    by_cases hbar : b ∈ (if excluded then [b] else []) ∧ ck.users b = 0
    · rw [if_pos hbar]
      omega
    · rw [if_neg hbar]
      omega
  · rw [if_neg hb, if_neg (Ne.symm hb)]
    omega

theorem Used.drop {b : Nat} {v : Cap} (h : Used (refs + {(b, v)}) ck) :
    Used refs (ck.dropCopyDataspace b) := by
  obtain ⟨maps, ht⟩ := h.table
  obtain ⟨htable, husers⟩ := ht.drop b
  refine ⟨⟨maps, htable⟩, fun b' => ?_⟩
  have hle := h.counted b'
  rw [RefCount.uses_add, RefCount.uses_singleton] at hle
  rw [husers, dropUser]
  by_cases hb : b' = b
  · rw [if_pos hb.symm] at hle
    rw [if_pos hb, ← hb]
    omega
  · rw [if_neg (Ne.symm hb)] at hle
    rw [if_neg hb]
    omega

theorem used_booking : Booking Used (fun _ => True) (fun _ => True) fun _ => True where
  recording := used_recording
  ram _ cap size _ _ h := h.use false cap size
  attached _ info _ _ h := h.use _ info.attachedDsCap info.size
  drop _ _ _ _ h := h.drop
  regionMap _ b ck _ h := by
    obtain ⟨maps, ht⟩ := h.table
    exact ⟨⟨b :: ck.regionMapDataspaces, ht.nodup, ht.used, fun _ => Iff.rfl⟩, h.counted⟩

/-- Some record names the dataspace of an entry. -/
theorem Used.named {st : TargetState} (h : Used (stateRefs st) ck) {info : OrigCopyCountInfo}
    (hinfo : info ∈ ck.copyDataspaces) :
    (∃ u ∈ ramDataspaceInfos st, u.badge = info.badge) ∨
      ∃ u ∈ attachedRegionInfos st, u.attachedDsBadge = info.badge := by
  obtain ⟨maps, ht⟩ := h.table
  have hfind : ck.copyDataspaces.find? (isBadge info.badge) = some info :=
    find?_key_of_mem ht.nodup hinfo
  have husers : ck.users info.badge = info.refCount := by
    rw [users, usersOf, hfind]
  have hle := h.counted info.badge
  have hpos := ht.used info hinfo
  rw [husers, uses_stateRefs] at hle
  by_cases hram : 0 < (ramDataspaceInfos st).countP (·.badge == info.badge)
  · obtain ⟨u, hu, he⟩ := List.countP_pos_iff.mp hram
    exact .inl ⟨u, hu, beq_iff_eq.mp he⟩
  · have hattached : 0 < (attachedRegionInfos st).countP (·.attachedDsBadge == info.badge) := by
      omega
    obtain ⟨u, hu, he⟩ := List.countP_pos_iff.mp hattached
    exact .inr ⟨u, hu, beq_iff_eq.mp he⟩

/-! ## What the records name -/

/-- A region of a stored region map that the child has, too: its start
lies in a region of the child. -/
def StillCovered (st : TargetState) (maps : List RegionMapComponent) (b : Nat) : Prop :=
  ∃ t ∈ regionMapInfos st, ∃ a ∈ maps, t.badge = a.cap.localName ∧
    ∃ u ∈ t.storedAttachedRegionInfos, u.attachedDsBadge = b ∧
      ∃ r ∈ a.parentState.attachedRegions, r.covers u.relAddr = true

instance (st : TargetState) (maps : List RegionMapComponent) (b : Nat) :
    Decidable (StillCovered st maps b) :=
  inferInstanceAs (Decidable (∃ t ∈ regionMapInfos st, ∃ a ∈ maps, _ ∧
    ∃ u ∈ t.storedAttachedRegionInfos, _ ∧ ∃ r ∈ a.parentState.attachedRegions, _))

/-- After its turn a stored region is one of the child's or one from
before that is still covered. -/
theorem mem_prepareAttachedRegions {l : List StoredAttachedRegionInfo}
    {cs : List AttachedRegionInfo} {ck : Checkpointer} {u : StoredAttachedRegionInfo}
    (hu : u ∈ (prepareAttachedRegions l cs ck).1) :
    (∃ r ∈ cs, u.attachedDsBadge = r.attachedDsCap.localName) ∨
      ∃ u₀ ∈ l, u₀.attachedDsBadge = u.attachedDsBadge ∧ ∃ r ∈ cs, r.covers u₀.relAddr = true := by
  have hregion : u.toRegion ∈ storedRegions (prepareAttachedRegions l cs ck).1 :=
    List.mem_map_of_mem hu
  rw [prepareAttachedRegions_regions, Region.reconcile, List.mem_filter] at hregion
  obtain ⟨htrack, hcovered⟩ := hregion
  rcases Region.mem_of_mem_track htrack with hold | hnew
  · obtain ⟨u₀, hu₀, he⟩ := List.mem_map.mp hold
    obtain ⟨r', hr', hcov⟩ := List.any_eq_true.mp hcovered
    obtain ⟨r, hr, rfl⟩ := List.mem_map.mp hr'
    have hbadge : u₀.attachedDsBadge = u.attachedDsBadge := congrArg (·.dsCap.localName) he
    have haddr : u₀.relAddr = u.relAddr := congrArg (·.addr) he
    refine .inr ⟨u₀, hu₀, hbadge, r, hr, ?_⟩
    rw [haddr]
    exact hcov
  · obtain ⟨r, hr, he⟩ := List.mem_map.mp hnew
    exact .inl ⟨r, hr, (congrArg (·.dsCap.localName) he).symm⟩

/-- What the regions of a record name after a turn with the region maps
`cs`. -/
def Explained (st : TargetState) (maps : List RegionMapComponent) (t : StoredRegionMapInfo) :
    Prop :=
  ∀ u ∈ t.storedAttachedRegionInfos,
    (∃ a ∈ maps, ∃ r ∈ a.parentState.attachedRegions,
      u.attachedDsBadge = r.attachedDsCap.localName) ∨ StillCovered st maps u.attachedDsBadge

variable {st : TargetState} {maps : List RegionMapComponent}

theorem prepareRegionMaps_explained {l : List StoredRegionMapInfo} (hl : ∀ t ∈ l, t ∈ regionMapInfos st ∨
    t.storedAttachedRegionInfos = []) (hnodup : (l.map (·.badge)).Nodup)
    {cs : List RegionMapComponent} (hcs : (cs.map (·.cap.localName)).Nodup)
    (hmaps : ∀ a ∈ cs, a ∈ maps) (ck : Checkpointer) :
    ∀ t ∈ (prepareRegionMaps l cs ck).1, Explained st maps t := by
  intro t' ht' u hu
  obtain ⟨a, ha, -, t, s, -, rfl, horig⟩ := regionMapKind_keyed.reconcile_origin
    regionMapKind.keeps_true trivial hnodup hcs ht'
  rcases mem_prepareAttachedRegions hu with ⟨r, hr, he⟩ | ⟨u₀, hu₀, he, r, hr, hcov⟩
  · exact .inl ⟨a, hmaps a ha, r, hr, he⟩
  · rcases horig with ⟨ht, hkey⟩ | ⟨-, s₀, -, rfl⟩
    · rcases hl t ht with hmem | hempty
      · exact .inr ⟨t, hmem, a, hmaps a ha, hkey, u₀, hu₀, he, r, hr, hcov⟩
      · rw [hempty] at hu₀
        cases hu₀
    · cases hu₀

theorem areaAfter_explained {after : List StoredRegionMapInfo}
    (h : ∀ t ∈ after, Explained st maps t) (u : StoredRegionMapInfo) :
    Explained st maps (areaAfter u after) := by
  unfold areaAfter
  split
  · rename_i t hfind
    exact h t (List.mem_of_find?_eq_some hfind)
  · exact List.forall_mem_nil _

/-- Stored RAM dataspaces are the child's. -/
theorem prepare_ramDataspaces {s : CustomServices} (hs : DistinctSessions s)
    (hst : DistinctHolders st) (ck : Checkpointer) {u : StoredRamDataspaceInfo}
    (hu : u ∈ ramDataspaceInfos (prepare s st ck).1) :
    ∃ c ∈ s.ramRoot, ∃ d ∈ c.parentState.ramDataspaces, d.cap.localName = u.badge := by
  obtain ⟨t', ht', hu⟩ := List.mem_flatMap.mp hu
  obtain ⟨c, hc, -, t, s', -, rfl, -⟩ := ramSessionKind_keyed.reconcile_origin
    ramSessionKind.keeps_true trivial hst.ram hs.ram ht'
  have hbadge := (ramDataspaceKind_keyed.mem_map_reconcile t.storedRamdsInfos
    c.parentState.ramDataspaces s' u.badge).mp (List.mem_map_of_mem hu)
  obtain ⟨d, hd, he⟩ := List.mem_map.mp hbadge
  exact ⟨c, hc, d, hd, he⟩

/-- **Stored regions** are the child's, or were taken for one. -/
theorem prepare_attachedRegions {s : CustomServices} (hs : DistinctSessions s)
    (hst : DistinctHolders st) (hrm : s.rmRoot = none → st.rmSessions = [])
    (hpdMaps : ∀ c ∈ s.pdRoot, ∀ a ∈ areas c, a ∈ maps)
    (hrmMaps : ∀ c ∈ sessionInfos s.rmRoot, ∀ a ∈ c.parentState.regionMaps, a ∈ maps)
    (ck : Checkpointer) : ∀ t ∈ regionMapInfos (prepare s st ck).1, Explained st maps t := by
  intro t ht
  rcases List.mem_append.mp ht with ht | ht
  · obtain ⟨p', hp', ht⟩ := List.mem_flatMap.mp ht
    obtain ⟨c, hc, -, p, s', -, rfl, horig⟩ := pdSessionKind_keyed.reconcile_origin
      pdSessionKind.keeps_true trivial hst.pd hs.pd hp'
    have hp : (∀ u ∈ storedAreas p, u ∈ regionMapInfos st ∨ u.storedAttachedRegionInfos = []) ∧
        ((storedAreas p).map (·.badge)).Nodup := by
      rcases horig with ⟨hp, -⟩ | ⟨-, s₀, -, rfl⟩
      · refine ⟨fun u hu => .inl ?_, hst.areas p hp⟩
        exact List.mem_append_left _ (List.mem_flatMap.mpr ⟨p, hp, hu⟩)
      · refine ⟨fun u hu => .inr ?_, hs.areas c hc⟩
        have hnew : ∀ u ∈ storedAreas (createStoredPdSession c s₀).1,
            u.storedAttachedRegionInfos = [] := by
          simp [storedAreas, createStoredPdSession, StoredPdSessionInfo.new,
            StoredRegionMapInfo.new]
        exact hnew u hu
    -- each of the three areas is looked up again in the list of all three
    have hlist := prepareRegionMaps_explained hp.1 hp.2 (hs.areas c hc) (hpdMaps c hc)
      (afterPdLists c p s')
    obtain ⟨u, -, rfl⟩ : ∃ u ∈ storedAreas p, t = areaAfter u
        (prepareRegionMaps (storedAreas p) (areas c) (afterPdLists c p s')).1 := by
      obtain ⟨u, hu, he⟩ := List.mem_map.mp (show t ∈ (storedAreas p).map (areaAfter ·
        (prepareRegionMaps (storedAreas p) (areas c) (afterPdLists c p s')).1) from ht)
      exact ⟨u, hu, he.symm⟩
    exact areaAfter_explained hlist u
  · obtain ⟨p', hp', ht⟩ := List.mem_flatMap.mp ht
    have hsessions := hs.rm
    have hdistinct := hs.regionMaps
    change p' ∈ (prepareRoot prepareRmSessions st.rmSessions s.rmRoot _).1 at hp'
    cases hroot : s.rmRoot with
    | none =>
        -- no RM root: the stored sessions stay as they are, and there are none
        rw [hroot] at hp'
        change p' ∈ st.rmSessions at hp'
        rw [hrm hroot] at hp'
        cases hp'
    | some cs =>
        rw [hroot] at hp' hsessions hdistinct hrmMaps
        obtain ⟨c, hc, -, p, s', -, rfl, horig⟩ := rmSessionKind_keyed.reconcile_origin
          rmSessionKind.keeps_true trivial hst.rm hsessions hp'
        have hp : (∀ u ∈ p.storedRegionMapInfos, u ∈ regionMapInfos st ∨
            u.storedAttachedRegionInfos = []) ∧ (p.storedRegionMapInfos.map (·.badge)).Nodup := by
          rcases horig with ⟨hp, -⟩ | ⟨-, s₀, -, rfl⟩
          · refine ⟨fun u hu => .inl ?_, hst.regionMaps p hp⟩
            exact List.mem_append_right _ (List.mem_flatMap.mpr ⟨p, hp, hu⟩)
          · exact ⟨fun u hu => absurd hu List.not_mem_nil, List.nodup_nil⟩
        exact prepareRegionMaps_explained hp.1 hp.2 (hdistinct c hc) (hrmMaps c hc) s' t ht

/-! ## Calls -/

end Checkpointer

/-- A PD session and its region maps, by their badges. -/
def PdSessionComponent.face (c : PdSessionComponent) : Nat × List Nat :=
  (c.cap.localName, (Checkpointer.areas c).map (·.cap.localName))

namespace Checkpointer

/-- What holds between two calls for a child whose PD sessions have the
`faces`. -/
structure Tracked (faces : List (Nat × List Nat)) (rmRoot : Option (List RmSessionComponent))
    (ck : Checkpointer) (st : TargetState) : Prop where
  used : Used (stateRefs st) ck
  records : Booking.RecordsOk (fun _ => True) (fun c => c.face ∈ faces) st
  holders : DistinctHolders st
  rm : rmRoot = none → st.rmSessions = []

variable {faces : List (Nat × List Nat)} {child : TargetChild}

theorem tracked_empty (core : Core) (rmRoot : Option (List RmSessionComponent)) :
    Tracked faces rmRoot (.new core) .empty where
  used := ⟨⟨[], List.nodup_nil, List.forall_mem_nil _, fun _ => Iff.rfl⟩, fun _ => Nat.zero_le _⟩
  records := ⟨List.forall_mem_nil _, List.forall_mem_nil _⟩
  holders := by decide
  rm _ := rfl

/-- The names that core has given play no part. -/
theorem Tracked.withCore {rmRoot : Option (List RmSessionComponent)}
    (h : Tracked faces rmRoot ck st) (core : Core) :
    Tracked faces rmRoot { ck with core := core } st where
  used := ⟨h.used.table.imp fun _ ht => ⟨ht.nodup, ht.used, ht.maps⟩, h.used.counted⟩
  records := h.records
  holders := h.holders
  rm := h.rm

/-- A face belongs to one PD session. -/
theorem servicesOk_of_faces {s : CustomServices} (hs : DistinctSessions s)
    (hfaces : s.pdRoot.map (·.face) = faces) : Booking.ServicesOk (fun _ => True) (fun _ => True)
      (fun _ => True) (fun _ => True) (fun c => c.face ∈ faces) s where
  ram _ _ _ _ := ⟨trivial, trivial⟩
  pd c hc := by
    refine ⟨hfaces ▸ List.mem_map_of_mem hc, fun d hd hkey => ?_,
      fun _ _ => ⟨trivial, fun _ _ => trivial⟩⟩
    rw [← hfaces] at hd
    obtain ⟨d', hd', he⟩ := List.mem_map.mp hd
    have hname : d'.cap.localName = d.cap.localName := congrArg (·.1) he
    obtain rfl := List.inj_on_of_nodup_map hs.pd hd' hc (hname.trans hkey)
    exact (congrArg (·.2) he).symm
  rm _ _ _ _ := ⟨trivial, fun _ _ => trivial⟩

theorem Tracked.prepared (h : Tracked faces child.services.rmRoot ck st)
    (hs : DistinctSessions child.services) (hfaces : child.services.pdRoot.map (·.face) = faces) :
    Tracked faces child.services.rmRoot (ck.prepared st child).2 (ck.prepared st child).1 := by
  have hsame := ck.prepareChild_sameObjects child
  have hs' := hsame.distinctSessions hs
  have hst : DistinctHolders { st with capIdxAllocAddr := child.capMapInfo } :=
    ⟨h.holders.ram, h.holders.pd, h.holders.areas, h.holders.rm, h.holders.regionMaps⟩
  have hck : Used (stateRefs { st with capIdxAllocAddr := child.capMapInfo })
      (ck.setUp (ck.prepareChild child) (child.capabilityMap ck.core)) :=
    ⟨h.used.table.imp' (fun _ => _) fun _ ht => ht.setUp child _, h.used.counted⟩
  have hrec : Booking.RecordsOk (fun _ => True) (fun c => c.face ∈ faces)
      { st with capIdxAllocAddr := child.capMapInfo } := ⟨h.records.ram, h.records.pd⟩
  obtain ⟨hused, hrecords⟩ :=
    used_booking.prepare (servicesOk_of_faces hs' (hsame.pd ▸ hfaces)) hrec hck
  refine ⟨hused, hrecords, hst.prepare hs' _, fun hnone => ?_⟩
  have hroot : (ck.prepareChild child).services.rmRoot = none := hsame.rm.trans hnone
  unfold Checkpointer.prepared prepare
  rw [hroot]
  exact h.rm hnone

theorem Tracked.checkpoint (h : Tracked faces child.services.rmRoot ck st)
    (hs : DistinctSessions child.services) (hfaces : child.services.pdRoot.map (·.face) = faces) :
    Tracked faces child.services.rmRoot (ck.checkpoint st child).checkpointer
      (ck.checkpoint st child).state := by
  rcases checkpoint_cases ck st child with ⟨hstate, hck⟩ | ⟨hstate, core, capMap, maps', hck⟩
  · rw [hstate, hck]
    exact ⟨h.used, ⟨h.records.ram, h.records.pd⟩, ⟨h.holders.ram, h.holders.pd, h.holders.areas,
      h.holders.rm, h.holders.regionMaps⟩, h.rm⟩
  · have hprep := h.prepared hs hfaces
    rw [hstate, hck]
    obtain ⟨_, ht⟩ := hprep.used.table
    exact ⟨⟨⟨maps', ht.nodup, ht.used, fun _ => Iff.rfl⟩, hprep.used.counted⟩, hprep.records,
      hprep.holders, hprep.rm⟩

/-- **What has a copy after the prepare phase** is a RAM dataspace of the
child, the dataspace of a region of the child, or that of a stored region
that was taken for one. -/
theorem Tracked.prepared_named (h : Tracked faces child.services.rmRoot ck st)
    (hs : DistinctSessions child.services) (hfaces : child.services.pdRoot.map (·.face) = faces)
    {info : OrigCopyCountInfo} (hinfo : info ∈ (ck.prepared st child).2.copyDataspaces) :
    (∃ c ∈ child.services.ramRoot, ∃ d ∈ c.parentState.ramDataspaces,
        d.cap.localName = info.badge) ∨
      (∃ a ∈ child.regionMaps, ∃ r ∈ a.parentState.attachedRegions,
        r.attachedDsCap.localName = info.badge) ∨
      StillCovered st child.regionMaps info.badge := by
  have hsame := ck.prepareChild_sameObjects child
  have hs' := hsame.distinctSessions hs
  have hst : DistinctHolders { st with capIdxAllocAddr := child.capMapInfo } :=
    ⟨h.holders.ram, h.holders.pd, h.holders.areas, h.holders.rm, h.holders.regionMaps⟩
  rcases (h.prepared hs hfaces).used.named hinfo with ⟨u, hu, he⟩ | ⟨u, hu, he⟩
  · obtain ⟨c', hc', d', hd', hname⟩ := prepare_ramDataspaces hs' hst _ hu
    obtain ⟨c, hc, hec⟩ := List.exists_of_map_eq hsame.ram hc'
    obtain ⟨d, hd, hed⟩ := List.exists_of_map_eq (RamSessionComponent.dataspaces_of_outline hec) hd'
    rw [RamDataspaceInfo.cap_of_outline hed] at hname
    exact .inl ⟨c, hc, d, hd, hname.trans he⟩
  · obtain ⟨t, ht, hu⟩ := List.mem_flatMap.mp hu
    have hpd : ∀ c ∈ (ck.prepareChild child).services.pdRoot, ∀ a ∈ areas c,
        a ∈ child.regionMaps := by
      rw [hsame.pd]
      exact fun c hc a ha => List.mem_append_left _ (List.mem_flatMap.mpr ⟨c, hc, ha⟩)
    have hrm : ∀ c ∈ sessionInfos (ck.prepareChild child).services.rmRoot,
        ∀ a ∈ c.parentState.regionMaps, a ∈ child.regionMaps := by
      rw [hsame.rm]
      exact fun c hc a ha => List.mem_append_right _ (List.mem_flatMap.mpr ⟨c, hc, ha⟩)
    have hexplained := prepare_attachedRegions hs' hst (fun hnone => h.rm (hsame.rm ▸ hnone)) hpd hrm
      (ck.setUp (ck.prepareChild child) (child.capabilityMap ck.core)) t ht u hu
    rcases hexplained with ⟨a, ha, r, hr, hname⟩ | hcov
    · exact .inr (.inl ⟨a, ha, r, hr, hname.symm.trans he⟩)
    · rw [he] at hcov
      exact .inr (.inr hcov)

end Checkpointer

end Rtcr
