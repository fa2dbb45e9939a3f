import Rtcr.Incremental.Layout

/-!
# Incremental.Allocation — what `alloc` and `free` do to the layout

`alloc` adds a dataspace with new badges or nothing (when the quota runs
out in the middle), `free` removes one; neither touches the memory of
what was there before.
-/

namespace Rtcr

open RamSessionComponent

/-- Core has handed out badges and memory, and changed nothing else. -/
structure Grown (core core' : Core) : Prop where
  le : core.nextBadge ≤ core'.nextBadge
  bytes : ∀ b < core.nextBadge, core'.bytes b = core.bytes b

theorem Grown.refl (core : Core) : Grown core core := ⟨le_rfl, fun _ _ => rfl⟩

theorem Grown.trans {c₁ c₂ c₃ : Core} (h : Grown c₁ c₂) (h' : Grown c₂ c₃) : Grown c₁ c₃ :=
  ⟨h.le.trans h'.le, fun b hb => (h'.bytes b (hb.trans_le h.le)).trans (h.bytes b hb)⟩

theorem grown_newCap (core : Core) : Grown core core.newCap.2 :=
  ⟨Nat.le_succ _, fun _ _ => rfl⟩

theorem grown_newDataspace (core : Core) : Grown core core.newDataspace.2 :=
  ⟨Nat.le_succ _, fun _ hb => funext fun i => ByteStore.fill_ne hb.ne 0 core.bytes i⟩

/-- The session is the same but for its connection to core. -/
structure SameLists (s s' : RamSessionComponent) : Prop where
  cap : s'.cap = s.cap
  dataspaces : s'.parentState.ramDataspaces = s.parentState.ramDataspaces

theorem SameLists.trans {s₁ s₂ s₃ : RamSessionComponent} (h : SameLists s₁ s₂)
    (h' : SameLists s₂ s₃) : SameLists s₁ s₃ :=
  ⟨h'.cap.trans h.cap, h'.dataspaces.trans h.dataspaces⟩

/-- What core's RAM session does for an allocation, where it has the
quota. -/
theorem parentAlloc_eq_some {size : Nat} {s s' : RamSessionComponent} {core core' : Core}
    {cap : Cap} (h : s.parentAlloc size core = some (cap, s', core')) :
    cap = core.newDataspace.1 ∧ core' = core.newDataspace.2 ∧
      s' = { s with
        parentRam :=
          { s.parentRam with
            quota := s.parentRam.quota - alignAddr size
            dataspaces := (cap, size) :: s.parentRam.dataspaces } } := by
  unfold parentAlloc at h
  split at h
  · cases h
  · simp only [Option.some.injEq, Prod.mk.injEq] at h
    obtain ⟨rfl, rfl, rfl⟩ := h
    exact ⟨rfl, rfl, rfl⟩

theorem parentAlloc_spec {size : Nat} {s s' : RamSessionComponent} {core core' : Core} {cap : Cap}
    (h : s.parentAlloc size core = some (cap, s', core')) :
    cap = ⟨core.nextBadge⟩ ∧ SameLists s s' ∧ core' = core.newDataspace.2 := by
  obtain ⟨rfl, rfl, rfl⟩ := parentAlloc_eq_some h
  exact ⟨rfl, ⟨rfl, rfl⟩, rfl⟩

/-- What the allocation loop of `alloc` has added. -/
structure NewDesignated (n n' : Nat) (ranges : List (Nat × Nat))
    (news : List DesignatedDataspaceInfo) : Prop where
  ranges : news.map (·.range) = ranges.reverse
  caps : ∀ dd ∈ news, n ≤ dd.cap.localName ∧ dd.cap.localName < n'
  nodup : (news.map (·.cap.localName)).Nodup
  attached : ∀ dd ∈ news, dd.attached = true ∧ dd.mapped = true

theorem allocDesignated_spec {ranges : List (Nat × Nat)} {mrm mrm' : ManagedRegionMapInfo}
    {s s' : RamSessionComponent} {core core' : Core} {ok : Bool}
    (h : allocDesignated ranges mrm s core = (ok, mrm', s', core')) :
    SameLists s s' ∧ Grown core core' ∧ (ok = true → ∃ news,
      mrm'.ddInfos = news ++ mrm.ddInfos ∧
        NewDesignated core.nextBadge core'.nextBadge ranges news) := by
  induction ranges generalizing mrm s core with
  | nil =>
      simp only [allocDesignated, Prod.mk.injEq] at h
      obtain ⟨-, rfl, rfl, rfl⟩ := h
      exact ⟨⟨rfl, rfl⟩, .refl _, fun _ => ⟨[], rfl, rfl, by simp, List.nodup_nil, by simp⟩⟩
  | cons p ranges ih =>
      obtain ⟨relAddr, size⟩ := p
      unfold allocDesignated at h
      split at h
      · simp only [Prod.mk.injEq] at h
        obtain ⟨rfl, -, rfl, rfl⟩ := h
        exact ⟨⟨rfl, rfl⟩, .refl _, by simp⟩
      · rename_i cap s₁ core₁ halloc
        obtain ⟨rfl, hsame, rfl⟩ := parentAlloc_spec halloc
        obtain ⟨hlists, hgrown, hnews⟩ := ih h
        refine ⟨⟨hlists.cap.trans hsame.cap, hlists.dataspaces.trans hsame.dataspaces⟩,
          (grown_newDataspace core).trans hgrown, fun hok => ?_⟩
        obtain ⟨news, hdds, hnew⟩ := hnews hok
        have hle : core.nextBadge + 1 ≤ core'.nextBadge := hgrown.le
        have hcaps : ∀ dd ∈ news, core.nextBadge + 1 ≤ dd.cap.localName ∧
            dd.cap.localName < core'.nextBadge := hnew.caps
        -- the first range ends up behind those allocated after it
        refine ⟨news ++ [.new ⟨core.nextBadge⟩ relAddr size], by simp [hdds], ?_, ?_, ?_, ?_⟩
        · rw [List.map_append, hnew.ranges, List.reverse_cons]
          rfl
        · intro dd hdd
          rcases List.mem_append.mp hdd with hdd | hdd
          · have := hcaps dd hdd
            omega
          · obtain rfl := List.mem_singleton.mp hdd
            change core.nextBadge ≤ core.nextBadge ∧ core.nextBadge < core'.nextBadge
            omega
        · rw [List.map_append, List.nodup_append]
          refine ⟨hnew.nodup, List.nodup_singleton _, fun a ha b hb => ?_⟩
          obtain ⟨dd, hdd, rfl⟩ := List.mem_map.mp ha
          obtain rfl := List.mem_singleton.mp hb
          change dd.cap.localName ≠ core.nextBadge
          have := hcaps dd hdd
          omega
        · intro dd hdd
          rcases List.mem_append.mp hdd with hdd | hdd
          · exact hnew.attached dd hdd
          · obtain rfl := List.mem_singleton.mp hdd
            exact ⟨rfl, rfl⟩

theorem allocManaged_spec {size : Nat} {cacheAttr : CacheAttribute} {boot : Bool}
    {s s' : RamSessionComponent} {core core' : Core} {cap : Cap} (hg : s.granularity > 0)
    (h : s.allocManaged size cacheAttr boot core = (cap, s', core')) :
    s'.cap = s.cap ∧ Grown core core' ∧
      (s'.parentState.ramDataspaces = s.parentState.ramDataspaces ∨
        ∃ d, s'.parentState.ramDataspaces = d :: s.parentState.ramDataspaces ∧
          NewDataspace core.nextBadge core'.nextBadge d) := by
  have hds : 0 < pageSize * s.granularity := Nat.mul_pos (by decide) hg
  unfold allocManaged at h
  dsimp only at h
  split at h
  · rename_i hloop
    obtain ⟨hsame, hgrown, -⟩ := allocDesignated_spec hloop
    simp only [Prod.mk.injEq] at h
    obtain ⟨-, rfl, rfl⟩ := h
    have hcaps : Grown core core.newCap.2.newCap.2 := (grown_newCap core).trans (grown_newCap _)
    exact ⟨hsame.cap, hcaps.trans ⟨hgrown.le, hgrown.bytes⟩, .inl hsame.dataspaces⟩
  · rename_i mrm s₁ core₁ hloop
    obtain ⟨hsame, hgrown, hnews⟩ := allocDesignated_spec hloop
    obtain ⟨news, hdds, hnew⟩ := hnews rfl
    simp only [Prod.mk.injEq] at h
    obtain ⟨-, rfl, rfl⟩ := h
    have hle : core.nextBadge + 2 ≤ core₁.nextBadge := hgrown.le
    have hcaps : ∀ dd ∈ news, core.nextBadge + 2 ≤ dd.cap.localName ∧
        dd.cap.localName < core₁.nextBadge := hnew.caps
    have hnewCaps : Grown core core.newCap.2.newCap.2 := (grown_newCap core).trans (grown_newCap _)
    rw [List.append_nil] at hdds
    subst hdds
    refine ⟨hsame.cap, hnewCaps.trans ⟨hgrown.le, hgrown.bytes⟩,
      .inr ⟨_, congrArg (_ :: ·) hsame.dataspaces, ?_⟩⟩
    refine
      { badge := ?_, caps := ?_, nodup := hnew.nodup, apart := ?_, tiles := fun _ => ?_,
        attached := hnew.attached }
    · change core.nextBadge ≤ core.nextBadge + 1 ∧ core.nextBadge + 1 < core₁.nextBadge
      omega
    · intro dd hdd
      have := hcaps dd hdd
      omega
    · intro dd hdd
      have := hcaps dd hdd
      change dd.cap.localName ≠ core.nextBadge + 1
      omega
    · change Tiles size (mrm.ddInfos.map (·.range))
      rw [hnew.ranges]
      exact (designatedRanges_tiles hds size).reverse

/-- **Allocation**: at most one dataspace more, with new badges. -/
theorem alloc_spec {size : Nat} {cacheAttr : CacheAttribute} {boot : Bool}
    {s s' : RamSessionComponent} {core core' : Core} {cap : Cap}
    (h : s.alloc size cacheAttr boot core = some (cap, s', core')) :
    s'.cap = s.cap ∧ Grown core core' ∧
      (s'.parentState.ramDataspaces = s.parentState.ramDataspaces ∨
        ∃ d, s'.parentState.ramDataspaces = d :: s.parentState.ramDataspaces ∧
          NewDataspace core.nextBadge core'.nextBadge d) := by
  unfold alloc at h
  split at h
  · rename_i hg
    exact allocManaged_spec hg (Option.some.inj h)
  · split at h
    · cases h
    · rename_i halloc
      obtain ⟨rfl, hsame, rfl⟩ := parentAlloc_spec halloc
      simp only [Option.some.injEq, Prod.mk.injEq] at h
      obtain ⟨-, rfl, rfl⟩ := h
      have hgrown := grown_newDataspace core
      refine ⟨hsame.cap, ⟨hgrown.le, hgrown.bytes⟩, .inr ⟨_, congrArg (_ :: ·) hsame.dataspaces, ?_⟩⟩
      exact
        { badge := ⟨le_rfl, Nat.lt_succ_self _⟩
          caps := by simp [RamDataspaceInfo.dds]
          nodup := List.nodup_nil
          apart := by simp [RamDataspaceInfo.dds]
          tiles := by simp
          attached := by simp [RamDataspaceInfo.dds] }

/-- Freeing concerns core's RAM session only. -/
theorem parentFree_eq (cap : Cap) (s : RamSessionComponent) :
    s.parentFree cap = { s with parentRam := (s.parentFree cap).parentRam } := by
  unfold parentFree
  split
  · rfl
  · rfl

theorem destroyDesignated_eq (dds : List DesignatedDataspaceInfo) (s : RamSessionComponent) :
    ∃ parentRam mdAlloc,
      s.destroyDesignated dds = { s with parentRam := parentRam, mdAlloc := mdAlloc } := by
  induction dds generalizing s with
  | nil => exact ⟨_, _, rfl⟩
  | cons dd dds ih =>
      obtain ⟨parentRam, mdAlloc, h⟩ :=
        ih ((s.destroyMd (.designatedDataspaceInfo dd.cap)).parentFree dd.cap)
      refine ⟨parentRam, mdAlloc, h.trans ?_⟩
      rw [parentFree_eq]
      rfl

theorem parentFree_sameLists (cap : Cap) (s : RamSessionComponent) :
    SameLists s (s.parentFree cap) := by
  rw [parentFree_eq]
  exact ⟨rfl, rfl⟩

theorem destroyDesignated_sameLists (dds : List DesignatedDataspaceInfo)
    (s : RamSessionComponent) : SameLists s (s.destroyDesignated dds) := by
  obtain ⟨parentRam, mdAlloc, h⟩ := destroyDesignated_eq dds s
  rw [h]
  exact ⟨rfl, rfl⟩

theorem destroyManaged_sameLists (mrm : ManagedRegionMapInfo) (s : RamSessionComponent) :
    SameLists s (s.destroyManaged mrm) := by
  have hdissolve : SameLists s { s with receiver := s.receiver.erase mrm.regionMapCap } :=
    ⟨rfl, rfl⟩
  have hdds := hdissolve.trans (destroyDesignated_sameLists mrm.ddInfos _)
  exact hdds.trans ⟨rfl, rfl⟩

/-- Nothing but the entry leaves the list. -/
theorem destroyRamdsInfo_sameLists (info : RamDataspaceInfo) (s : RamSessionComponent) :
    SameLists (s.setRamDataspaces
        (s.parentState.ramDataspaces.eraseP fun r => r.cap.localName == info.cap.localName))
      (s.destroyRamdsInfo info) := by
  unfold destroyRamdsInfo
  dsimp only
  refine SameLists.trans ?_ (parentFree_sameLists info.cap _)
  split
  · have h := destroyManaged_sameLists
    exact ⟨(h ..).cap, (h ..).dataspaces⟩
  · exact ⟨rfl, rfl⟩

/-- **Free**: at most one dataspace less. -/
theorem free_spec (dsCap : Cap) (s : RamSessionComponent) :
    (s.free dsCap).cap = s.cap ∧
      (s.free dsCap).parentState.ramDataspaces.Sublist s.parentState.ramDataspaces := by
  unfold free
  split
  · rename_i info _
    have h := destroyRamdsInfo_sameLists info s
    refine ⟨h.cap, ?_⟩
    rw [h.dataspaces]
    exact List.eraseP_sublist
  · exact ⟨rfl, .refl _⟩

end Rtcr
