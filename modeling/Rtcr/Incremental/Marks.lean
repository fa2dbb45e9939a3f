import Rtcr.Incremental.Allocation

/-!
# Incremental.Marks — who attaches and who detaches

The fault handler only attaches. Reading the capability array attaches
what it needs and detaches exactly that again, so no mark is lost. Only
the end of a checkpoint detaches.
-/

namespace Rtcr

open List (Forall₂)

theorem attachByAddr_evolved (addr : Nat) (mrm : ManagedRegionMapInfo) :
    Forall₂ Evolved mrm.ddInfos (mrm.attachByAddr addr).ddInfos :=
  List.forall₂_modifyFirst (fun dd _ => .refl dd) fun dd _ => evolved_attach dd

theorem attachAll_evolved (mrm : ManagedRegionMapInfo) :
    Forall₂ Evolved mrm.ddInfos mrm.attachAll.ddInfos :=
  List.forall₂_map_self fun dd _ => evolved_attach dd

/-- The fault handler attaches one designated dataspace at most. -/
theorem handleFault_evolved {infos infos' : List RamDataspaceInfo}
    (h : handleFault infos = .ok infos') : Forall₂ (DataspaceRel Evolved) infos infos' := by
  induction infos generalizing infos' with
  | nil => cases h
  | cons info infos ih =>
      have hrest : Forall₂ (DataspaceRel Evolved) infos infos :=
        List.forall₂_same.mpr fun d _ => .refl Evolved.refl d
      unfold handleFault at h
      split at h
      · cases h
      · rename_i mrm hm
        split at h
        · cases hrec : handleFault infos with
          | error e => simp [hrec, Except.map] at h
          | ok rest =>
              simp only [hrec, Except.map, Except.ok.injEq] at h
              exact h ▸ .cons (.refl Evolved.refl info) (ih hrec)
        · rename_i addr _ _
          obtain rfl := Except.ok.inj h
          have hd : DataspaceRel Evolved info
              { info with mrmInfo := info.mrmInfo.map (·.attachByAddr addr) } :=
            .mapManaged _ fun m _ => attachByAddr_evolved addr m
          rw [hm] at hd
          exact .cons hd hrest

theorem managedDataspace_mem {info : AttachedRegionInfo} {child : TargetChild}
    {mrm : ManagedRegionMapInfo} (h : info.managedDataspace child.ramDataspaces = some mrm) :
    ∀ dd ∈ mrm.ddInfos, dd ∈ ddsOf child.services.ramRoot := by
  intro dd hdd
  obtain ⟨d, hfind, hm⟩ := Option.bind_eq_some_iff.mp h
  obtain ⟨hd, -⟩ := findByBadge_some hfind
  unfold TargetChild.ramDataspaces at hd
  split at hd
  · rename_i s hs
    refine List.mem_flatMap.mpr ⟨d, List.mem_flatMap.mpr ⟨s, List.mem_of_find?_eq_some hs, hd⟩, ?_⟩
    simpa [RamDataspaceInfo.dds, hm] using hdd
  · cases hd

/-- What is detached again was detached before. -/
theorem unmark_evolved {r : List RamSessionComponent} {n : Nat} (hr : LaidOut n (dataspacesOf r))
    {mrm₀ : ManagedRegionMapInfo} (hmrm₀ : ∀ dd ∈ mrm₀.ddInfos, dd ∈ ddsOf r)
    {mrm : ManagedRegionMapInfo} (hmrm : ∀ dd ∈ mrm.ddInfos, dd ∈ ddsOf r) :
    Forall₂ Evolved mrm.ddInfos (mrm.attachAll.detachBadges mrm₀.marked).ddInfos := by
  change Forall₂ Evolved mrm.ddInfos (List.map _ (List.map _ mrm.ddInfos))
  rw [List.map_map]
  refine List.forall₂_map_self fun dd hdd => ?_
  simp only [Function.comp_apply]
  split
  · rename_i hmark
    have hattach := evolved_attach dd
    have hplace := samePlace_detach dd.attach
    refine ⟨hattach.toSamePlace.trans hplace, fun hon => absurd hmark ?_⟩
    rw [hattach.cap]
    intro hmark
    simp only [ManagedRegionMapInfo.marked, List.contains_iff_mem, List.mem_reverse, List.mem_map,
      List.mem_filter] at hmark
    obtain ⟨dd₀, ⟨hdd₀, hoff⟩, he⟩ := hmark
    have hsame : dd₀ = dd := List.inj_on_of_nodup_map hr.dds (hmrm₀ dd₀ hdd₀) (hmrm dd hdd) he
    rw [hsame, hon] at hoff
    cases hoff
  · exact evolved_attach dd

/-- One update after another. -/
theorem modifyManaged_comp (ram : Cap) (badge : Nat)
    (f g : ManagedRegionMapInfo → ManagedRegionMapInfo) (child : TargetChild) :
    ((child.modifyManaged ram badge f).modifyManaged ram badge g).services.ramRoot =
      (child.modifyManaged ram badge (g ∘ f)).services.ramRoot := by
  have hfirst : ∀ ds : List RamDataspaceInfo,
      List.modifyFirst (fun info => info.cap.localName == badge)
        (fun info => { info with mrmInfo := info.mrmInfo.map g })
        (List.modifyFirst (fun info => info.cap.localName == badge)
          (fun info => { info with mrmInfo := info.mrmInfo.map f }) ds) =
      List.modifyFirst (fun info => info.cap.localName == badge)
        (fun info => { info with mrmInfo := info.mrmInfo.map (g ∘ f) }) ds := by
    intro ds
    induction ds with
    | nil => rfl
    | cons d ds ih =>
        by_cases hd : d.cap.localName == badge
        · simp [List.modifyFirst, hd, Option.map_map]
        · simp [List.modifyFirst, hd, ih]
  simp only [TargetChild.modifyManaged, TargetChild.mapRamSessions, modifyCap, List.map_map]
  refine List.map_congr_left fun s _ => ?_
  simp only [Function.comp_apply]
  by_cases hs : s.cap = ram
  · simp only [if_pos hs, RamSessionComponent.setRamDataspaces, hfirst]
  · simp only [if_neg hs]

/-- Reading the capability array loses no mark. -/
theorem createCapMapInfos_evolved (child : TargetChild) {core : Core} {n : Nat}
    (h : LaidOut n (dataspacesOf child.services.ramRoot)) :
    RamRel Evolved child.services.ramRoot
      (createCapMapInfos child core).2.services.ramRoot := by
  have hmem : ∀ d ∈ dataspacesOf child.services.ramRoot, ∀ mrm, d.mrmInfo = some mrm →
      ∀ dd ∈ mrm.ddInfos, dd ∈ ddsOf child.services.ramRoot := fun d hd mrm hm dd hdd =>
    List.mem_flatMap.mpr ⟨d, hd, by simpa [RamDataspaceInfo.dds, hm] using hdd⟩
  unfold createCapMapInfos
  split
  · exact .refl Evolved.refl _
  · rename_i info _
    unfold markAttachDesignatedDataspaces
    cases hm : info.managedDataspace child.ramDataspaces with
    | none =>
        dsimp only
        split
        · refine .modifyManaged Evolved.refl _ _ _ fun d _ mrm _ => List.forall₂_map_self fun dd _ => ?_
          simpa using Evolved.refl dd
        · exact .refl Evolved.refl _
    | some mrm₀ =>
        have hmrm₀ := managedDataspace_mem hm
        dsimp only
        split
        · change RamRel Evolved _ (TargetChild.modifyManaged child.ram _ (·.detachBadges mrm₀.marked)
            (child.modifyManaged child.ram _ (·.attachAll))).services.ramRoot
          rw [modifyManaged_comp]
          exact .modifyManaged Evolved.refl _ _ _ fun d hd mrm hd' =>
            unmark_evolved h hmrm₀ (hmem d hd mrm hd')
        · exact .modifyManaged Evolved.refl _ _ _ fun d _ mrm _ => attachAll_evolved mrm

/-- Reading the capability array only attaches and detaches. -/
theorem createCapMapInfos_samePlace (child : TargetChild) (core : Core) :
    RamRel SamePlace child.services.ramRoot
      (createCapMapInfos child core).2.services.ramRoot := by
  refine createCapMapInfos_keeps
    (P := fun c => RamRel SamePlace child.services.ramRoot c.services.ramRoot) core
    (.refl SamePlace.refl _) ?_ ?_
  · exact fun badge => .modifyManaged SamePlace.refl _ _ _ fun d _ mrm _ =>
      (attachAll_evolved mrm).imp fun _ _ h => h.toSamePlace
  · intro c badge badges h
    refine RamRel.trans (S := SamePlace) (fun _ _ _ h h' => h.trans h') h ?_
    refine .modifyManaged SamePlace.refl _ _ _ fun d _ mrm _ => List.forall₂_map_self fun dd _ => ?_
    split
    · exact samePlace_detach dd
    · exact .refl dd

/-- What the end of a checkpoint does. -/
structure SwitchedOff (dd dd' : DesignatedDataspaceInfo) : Prop extends SamePlace dd dd' where
  off : dd'.attached = false

theorem detach_switchedOff (r : List RamSessionComponent) :
    RamRel SwitchedOff r (detachDesignatedDataspaces r) :=
  .mapManaged _ fun _ _ _ _ => List.forall₂_map_self fun dd _ => ⟨samePlace_detach dd, by simp⟩

/-- A call attaches pages and detaches pages, and moves none. -/
theorem checkpoint_samePlace (ck : Checkpointer) (st : TargetState) (child : TargetChild) :
    RamRel SamePlace child.services.ramRoot (ck.checkpoint st child).child.services.ramRoot := by
  have hprep : RamRel SamePlace child.services.ramRoot (ck.prepareChild child).services.ramRoot :=
    createCapMapInfos_samePlace child.pause ck.core
  rcases Checkpointer.checkpoint_child ck st child with he | he
  · rw [he]
    exact hprep
  · rw [he]
    exact hprep.trans (fun _ _ _ hxy hyz => hxy.trans hyz.toSamePlace) (detach_switchedOff _)

end Rtcr
