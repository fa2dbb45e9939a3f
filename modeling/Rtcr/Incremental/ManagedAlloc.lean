import Rtcr.Incremental.Ledger

/-!
# Incremental.ManagedAlloc — one managed allocation

Where the parent's quota suffices, the designated dataspaces tile the
region map, and a page fault finds the one that is missing. Where it
does not, the call returns an invalid capability and forgets what it has
acquired so far.
-/

namespace Rtcr

open RamSessionComponent

/-! ## The region map -/

/-- Whole designated dataspaces and the page-rounded rest make up the
page-rounded size. -/
theorem regionMapSize_eq (granularity size : Nat) :
    regionMapSize (pageSize * granularity) size = alignAddr size := by
  have hsplit := Nat.div_add_mod' size (pageSize * granularity)
  have hcomm : size / (pageSize * granularity) * (pageSize * granularity) =
      pageSize * (size / (pageSize * granularity) * granularity) := by
    rw [Nat.mul_left_comm]
  unfold regionMapSize alignAddr
  generalize size % (pageSize * granularity) = rest at *
  generalize size / (pageSize * granularity) * granularity = pages at *
  rw [hcomm] at hsplit ⊢
  unfold pageSize at *
  omega

theorem dvd_alignAddr (addr : Nat) : pageSize ∣ alignAddr addr := ⟨_, Nat.mul_comm _ _⟩

/-- Every range starts and ends at a page. -/
theorem designatedRanges_aligned {granularity size : Nat} {p : Nat × Nat}
    (hp : p ∈ designatedRanges (pageSize * granularity) size) : pageSize ∣ p.1 ∧ pageSize ∣ p.2 := by
  have hds : pageSize ∣ pageSize * granularity := ⟨granularity, rfl⟩
  rcases List.mem_append.mp hp with hp | hp
  · obtain ⟨i, -, rfl⟩ := List.mem_map.mp hp
    exact ⟨hds.mul_right i, hds⟩
  · split at hp
    · obtain rfl := List.mem_singleton.mp hp
      exact ⟨hds.mul_left _, dvd_alignAddr _⟩
    · cases hp

/-! ## Page faults -/

/-- `Designated_dataspace_info::find_by_addr`, from the head of the
list. -/
def findDesignatedByAddr (addr : Nat) (infos : List DesignatedDataspaceInfo) :
    Option DesignatedDataspaceInfo :=
  infos.find? (·.covers addr)

/-- The designated dataspaces of a region map of `size` bytes: whole
pages, side by side, and every fault finds its own. -/
structure WellTiled (size : Nat) (infos : List DesignatedDataspaceInfo) : Prop where
  aligned : ∀ dd ∈ infos, pageSize ∣ dd.relAddr ∧ pageSize ∣ dd.size
  inside : ∀ dd ∈ infos, dd.relAddr + dd.size ≤ size
  tiles : Tiles size (infos.map (·.range))
  faults : ∀ a < size, ∃ dd, findDesignatedByAddr a infos = some dd ∧ dd ∈ infos ∧
    InRange dd.range a ∧ ∀ dd' ∈ infos, InRange dd'.range a → dd' = dd

theorem Stacked.wellTiled {stop : Nat} {infos : List DesignatedDataspaceInfo}
    (h : Stacked stop (infos.map (·.range)))
    (haligned : ∀ dd ∈ infos, pageSize ∣ dd.relAddr ∧ pageSize ∣ dd.size) :
    WellTiled stop infos where
  aligned := haligned
  inside dd hdd := h.le dd.range (List.mem_map_of_mem hdd)
  tiles := h.tiles
  faults a ha := by
    obtain ⟨p, hfind, hpa⟩ := h.find_inclusive ha
    rw [List.find?_map] at hfind
    obtain ⟨dd, hdd, rfl⟩ := Option.map_eq_some_iff.mp hfind
    have hmem := List.mem_of_find?_eq_some hdd
    exact ⟨dd, hdd, hmem, hpa, fun dd' hdd' hdd'a => h.tiles.inRange_unique hdd' hmem hdd'a hpa⟩

/-! ## The allocation loop -/

/-- What the loop has spent on the designated dataspaces `news`. -/
structure Spent (news : List DesignatedDataspaceInfo) (s s' : RamSessionComponent) : Prop where
  parentState : s'.parentState = s.parentState
  parentRm : s'.parentRm = s.parentRm
  receiver : s'.receiver = s.receiver
  dataspaces : s'.parentRam.dataspaces.map (·.1) =
    news.map (·.cap) ++ s.parentRam.dataspaces.map (·.1)
  mdAlloc : s'.mdAlloc =
    news.map (fun dd => .designatedDataspaceInfo dd.cap) ++ s.mdAlloc

/-- **Where the loop stops**: behind the ranges `news` was allocated for,
which are all of them unless the quota did not suffice. -/
theorem allocDesignated_stops {ranges : List (Nat × Nat)} {mrm mrm' : ManagedRegionMapInfo}
    {s s' : RamSessionComponent} {core core' : Core} {ok : Bool}
    (h : allocDesignated ranges mrm s core = (ok, mrm', s', core')) :
    ∃ news, mrm' = { mrm with ddInfos := news ++ mrm.ddInfos } ∧ Spent news s s' ∧
      (news.map (·.range)).reverse <+: ranges ∧
      (ok = true ↔ (news.map (·.range)).reverse = ranges) := by
  induction ranges generalizing mrm s core with
  | nil =>
      cases h
      exact ⟨[], rfl, ⟨rfl, rfl, rfl, rfl, rfl⟩, List.nil_prefix, by simp⟩
  | cons p ranges ih =>
      obtain ⟨relAddr, size⟩ := p
      unfold allocDesignated at h
      split at h
      · cases h
        exact ⟨[], rfl, ⟨rfl, rfl, rfl, rfl, rfl⟩, List.nil_prefix, by simp⟩
      · rename_i cap s₁ core₁ halloc
        have hone : s₁.parentState = s.parentState ∧ s₁.parentRm = s.parentRm ∧
            s₁.receiver = s.receiver ∧ s₁.mdAlloc = s.mdAlloc ∧
            s₁.parentRam.dataspaces.map (·.1) = cap :: s.parentRam.dataspaces.map (·.1) := by
          obtain ⟨-, -, rfl⟩ := parentAlloc_eq_some halloc
          exact ⟨rfl, rfl, rfl, rfl, rfl⟩
        obtain ⟨hstate, hrm, hreceiver, hmd, hds⟩ := hone
        obtain ⟨news, rfl, hspent, hprefix, hok⟩ := ih h
        -- the first range is at the end of the list
        have hrev : ((news ++ [DesignatedDataspaceInfo.new cap relAddr size]).map (·.range)).reverse =
            (relAddr, size) :: (news.map (·.range)).reverse := by
          rw [List.map_append, List.reverse_append]
          rfl
        refine ⟨news ++ [.new cap relAddr size], by simp, ⟨?_, ?_, ?_, ?_, ?_⟩, ?_, ?_⟩
        · exact hspent.parentState.trans hstate
        · exact hspent.parentRm.trans hrm
        · exact hspent.receiver.trans hreceiver
        · rw [hspent.dataspaces, List.map_append, List.append_assoc]
          exact congrArg (_ ++ ·) hds
        · rw [hspent.mdAlloc, List.map_append, List.append_assoc]
          exact congrArg (_ ++ ·) (congrArg (_ :: ·) hmd)
        · rw [hrev, List.cons_prefix_cons]
          exact ⟨rfl, hprefix⟩
        · rw [hrev, hok, List.cons_inj_right]

/-! ## Success -/

/-- The designated dataspaces of a managed dataspace, as `alloc` lays
them out. -/
structure AllocLayout (granularity : Nat) (info : RamDataspaceInfo) : Prop where
  positive : 0 < granularity
  ranges : info.dds.map (·.range) = (designatedRanges (pageSize * granularity) info.size).reverse

theorem AllocLayout.wellTiled {granularity : Nat} {info : RamDataspaceInfo}
    (h : AllocLayout granularity info) : WellTiled (alignAddr info.size) info.dds := by
  have hds : 0 < pageSize * granularity := Nat.mul_pos (by decide) h.positive
  have hstacked := designatedRanges_stacked hds info.size
  rw [← h.ranges, regionMapSize_eq] at hstacked
  refine hstacked.wellTiled fun dd hdd => ?_
  have hmem : dd.range ∈ designatedRanges (pageSize * granularity) info.size := by
    rw [← List.mem_reverse, ← h.ranges]
    exact List.mem_map_of_mem hdd
  exact designatedRanges_aligned hmem

/-- A successful call, and the layout it chooses. -/
theorem alloc_layout {size : Nat} {cacheAttr : CacheAttribute} {bootstrapPhase : Bool}
    {s s' : RamSessionComponent} {core core' : Core} {cap : Cap} (hg : 0 < s.granularity)
    (h : s.alloc size cacheAttr bootstrapPhase core = some (cap, s', core'))
    (hcap : cap ≠ Cap.invalid) :
    ∃ info mrm, s'.parentState.ramDataspaces = info :: s.parentState.ramDataspaces ∧
      info.cap = cap ∧ info.size = size ∧ info.mrmInfo = some mrm ∧
      s'.parentRm = (mrm.regionMapCap, alignAddr size) :: s.parentRm ∧
      AllocLayout s.granularity info := by
  unfold alloc at h
  rw [if_pos hg, Option.some.injEq] at h
  dsimp only [allocManaged] at h
  split at h
  · cases h
    exact absurd rfl hcap
  · rename_i mrm s₁ core₁ hloop
    obtain ⟨news, rfl, hspent, -, hok⟩ := allocDesignated_stops hloop
    have hranges := hok.mp rfl
    cases h
    refine ⟨_, _, congrArg (_ :: ·) (congrArg RamSessionInfo.ramDataspaces hspent.parentState), rfl,
      rfl, rfl, ?_, hg, ?_⟩
    · show s₁.parentRm = _
      rw [hspent.parentRm, ← regionMapSize_eq s.granularity size]
      rfl
    · rw [← hranges, List.reverse_reverse]
      simp [RamDataspaceInfo.dds]

/-- **A managed dataspace**: `alloc` creates a region map of exactly the
page-rounded size, tiles it, and leaves a list in which every fault finds
the designated dataspace it is in. -/
theorem alloc_wellTiled {size : Nat} {cacheAttr : CacheAttribute} {bootstrapPhase : Bool}
    {s s' : RamSessionComponent} {core core' : Core} {cap : Cap} (hg : 0 < s.granularity)
    (h : s.alloc size cacheAttr bootstrapPhase core = some (cap, s', core'))
    (hcap : cap ≠ Cap.invalid) :
    ∃ info mrm, s'.parentState.ramDataspaces = info :: s.parentState.ramDataspaces ∧
      info.cap = cap ∧ info.mrmInfo = some mrm ∧
      s'.parentRm = (mrm.regionMapCap, alignAddr size) :: s.parentRm ∧
      WellTiled (alignAddr size) mrm.ddInfos := by
  obtain ⟨info, mrm, hlist, hinfo, rfl, hmrm, hrm, hlayout⟩ := alloc_layout hg h hcap
  have htiled := hlayout.wellTiled
  have hdds : info.dds = mrm.ddInfos := by simp [RamDataspaceInfo.dds, hmrm]
  rw [hdds] at htiled
  exact ⟨info, mrm, hlist, hinfo, hmrm, hrm, htiled⟩

theorem alloc_wellTiled_sample :
    ∃ cap s' core', (RamSessionComponent.bare 30 true 2 []).alloc 0x4800 .cached false Core.small =
        some (cap, s', core') ∧
      ∃ info mrm, s'.parentState.ramDataspaces = [info] ∧ info.cap = cap ∧
        info.mrmInfo = some mrm ∧ s'.parentRm = [(mrm.regionMapCap, alignAddr 0x4800)] ∧
        WellTiled (alignAddr 0x4800) mrm.ddInfos := by
  let s := RamSessionComponent.bare 30 true 2 []
  let r := (s.alloc 0x4800 .cached false Core.small).get (by decide)
  have halloc : s.alloc 0x4800 .cached false Core.small = some r := (Option.some_get _).symm
  have hg : 0 < s.granularity := by decide
  exact ⟨r.1, r.2.1, r.2.2, halloc, alloc_wellTiled hg halloc (by decide)⟩

/-! ## Failure -/

/-- What the session holds, and what it holds at its parent, is as it was
before. -/
structure Untouched (s s' : RamSessionComponent) : Prop where
  ramDataspaces : s'.parentState.ramDataspaces = s.parentState.ramDataspaces
  dataspaces : s'.parentRam.dataspaces = s.parentRam.dataspaces
  regionMaps : s'.parentRm = s.parentRm
  receiver : s'.receiver = s.receiver
  mdAlloc : s'.mdAlloc = s.mdAlloc

/-- What a call leaves behind that has allocated the designated
dataspaces `news` when the quota runs out. -/
structure LeftBehind (size : Nat) (rmCap dsCap : Cap) (news : List DesignatedDataspaceInfo)
    (s s' : RamSessionComponent) : Prop where
  ramDataspaces : s'.parentState.ramDataspaces = s.parentState.ramDataspaces
  dataspaces : s'.parentRam.dataspaces.map (·.1) =
    news.map (·.cap) ++ s.parentRam.dataspaces.map (·.1)
  regionMaps : s'.parentRm = (rmCap, alignAddr size) :: s.parentRm
  receiver : s'.receiver = rmCap :: s.receiver
  mdAlloc : s'.mdAlloc = news.map (fun dd => .designatedDataspaceInfo dd.cap) ++
    .ramDataspaceInfo dsCap :: .managedRegionMapInfo rmCap :: s.mdAlloc

section Failure

variable {size : Nat} {cacheAttr : CacheAttribute} {bootstrapPhase : Bool}
  {s s' : RamSessionComponent} {core core' : Core}

/-- The designated dataspaces a failed call leaves behind are those of
the ranges before the one the quota did not suffice for. -/
theorem alloc_leftBehind (hg : 0 < s.granularity)
    (h : s.alloc size cacheAttr bootstrapPhase core = some (Cap.invalid, s', core')) :
    ∃ news, LeftBehind size core.newCap.1 core.newCap.2.newCap.1 news s s' ∧
      (news.map (·.range)).reverse <+: designatedRanges (pageSize * s.granularity) size ∧
      (news.map (·.range)).reverse ≠ designatedRanges (pageSize * s.granularity) size := by
  unfold alloc at h
  rw [if_pos hg, Option.some.injEq] at h
  dsimp only [allocManaged] at h
  split at h
  · rename_i mrm s₁ core₁ hloop
    cases h
    obtain ⟨news, rfl, hspent, hprefix, hok⟩ := allocDesignated_stops hloop
    refine ⟨news, ⟨?_, hspent.dataspaces, ?_, hspent.receiver, hspent.mdAlloc⟩, hprefix, ?_⟩
    · exact congrArg RamSessionInfo.ramDataspaces hspent.parentState
    · rw [hspent.parentRm, ← regionMapSize_eq s.granularity size]
      rfl
    · intro hall
      exact Bool.noConfusion (hok.mpr hall)
  · cases h

theorem LeftBehind.not_untouched {rmCap dsCap : Cap} {news : List DesignatedDataspaceInfo}
    (h : LeftBehind size rmCap dsCap news s s') : ¬Untouched s s' := by
  intro hsame
  have hrm := h.regionMaps.symm.trans hsame.regionMaps
  exact List.cons_ne_self _ _ hrm

/-- **A failed managed allocation** always leaves something behind. -/
theorem failed_alloc_not_untouched (hg : 0 < s.granularity)
    (h : s.alloc size cacheAttr bootstrapPhase core = some (Cap.invalid, s', core')) :
    ¬Untouched s s' := by
  obtain ⟨news, hleft, -, -⟩ := alloc_leftBehind hg h
  exact hleft.not_untouched

end Failure

/-- Three designated dataspaces of two pages, quota for two. -/
def poorSession : RamSessionComponent :=
  { RamSessionComponent.bare 30 true 2 [] with parentRam := ⟨0x5000, [], []⟩ }

theorem failed_alloc_not_untouched_sample :
    ∃ s' core', poorSession.alloc 0x6000 .cached false Core.small =
        some (Cap.invalid, s', core') ∧ ¬Untouched poorSession s' := by
  let r := (poorSession.alloc 0x6000 .cached false Core.small).get (by decide)
  have hinvalid : r.1 = Cap.invalid := by decide
  have halloc : poorSession.alloc 0x6000 .cached false Core.small =
      some (Cap.invalid, r.2.1, r.2.2) := hinvalid ▸ (Option.some_get (by decide)).symm
  have hg : 0 < poorSession.granularity := by decide
  exact ⟨r.2.1, r.2.2, halloc, failed_alloc_not_untouched hg halloc⟩

theorem left_behind_at_third :
    ∃ s' core', poorSession.alloc 0x6000 .cached false Core.small =
        some (Cap.invalid, s', core') ∧
      s'.parentState.ramDataspaces = [] ∧
      s'.parentRam.dataspaces = [(⟨103⟩, 0x2000), (⟨102⟩, 0x2000)] ∧
      s'.parentRm = [(⟨100⟩, 0x6000)] ∧ s'.receiver = [⟨100⟩] ∧ s'.mdAlloc.length = 4 ∧
      ¬Untouched poorSession s' := by
  refine ⟨_, _, rfl, rfl, rfl, rfl, rfl, rfl, fun h => ?_⟩
  have hrm := h.regionMaps
  cases hrm

end Rtcr
