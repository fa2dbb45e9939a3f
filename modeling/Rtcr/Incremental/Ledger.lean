import Rtcr.Incremental.Allocation
import Rtcr.Lib.Run

/-!
# Incremental.Ledger — what a RAM session holds at its parent

`alloc` acquires parent dataspaces and region maps, `free` gives them
back. `Balanced` compares the parent's side with the session's list. An
ordinary dataspace is one parent dataspace, acquired and given back
alike. A managed one is given back through the wrong interface: the
dataspace of a region map goes to `_parent_ram.free`, and the region map
itself stays.
-/

namespace Rtcr

open RamSessionComponent

/-! ## The ledger -/

/-- The parent dataspaces an entry stands for. -/
def RamDataspaceInfo.held (info : RamDataspaceInfo) : List Cap :=
  match info.mrmInfo with
  | some mrm => mrm.ddInfos.map (·.cap)
  | none => [info.cap]

/-- The parent region map behind a managed entry. -/
def RamDataspaceInfo.regionMap (info : RamDataspaceInfo) : Option Cap :=
  info.mrmInfo.map (·.regionMapCap)

/-- The parent holds for the session what the session's list says, and
has never been asked to free anything else. -/
structure Balanced (s : RamSessionComponent) : Prop where
  dataspaces : (s.parentRam.dataspaces.map (·.1)).Perm
    (s.parentState.ramDataspaces.flatMap (·.held))
  regionMaps : (s.parentRm.map (·.1)).Perm (s.parentState.ramDataspaces.filterMap (·.regionMap))
  frees : s.parentRam.wildFrees = []

/-- A session that has just been created. -/
structure RamSessionComponent.Created (s : RamSessionComponent) : Prop where
  empty : s.parentState.ramDataspaces = []
  dataspaces : s.parentRam.dataspaces = []
  regionMaps : s.parentRm = []
  frees : s.parentRam.wildFrees = []

inductive RamCall
  | alloc (size : Nat)
  | free (ds : Cap)
  | other

/-- Calls of one session: `alloc` where it succeeds, `free` with any
capability; in between core serves others. -/
inductive RamCallStep : RamSessionComponent × Core → RamCall → RamSessionComponent × Core → Prop
  | alloc {s s' : RamSessionComponent} {core core' : Core} {size : Nat}
      {cacheAttr : CacheAttribute} {bootstrapPhase : Bool} {cap : Cap}
      (h : s.alloc size cacheAttr bootstrapPhase core = some (cap, s', core'))
      (hcap : cap ≠ Cap.invalid) :
      RamCallStep (s, core) (.alloc size) (s', core')
  | free (s : RamSessionComponent) (core : Core) (ds : Cap) :
      RamCallStep (s, core) (.free ds) (s.free ds, core)
  | other {s : RamSessionComponent} {core core' : Core} (h : core.nextBadge ≤ core'.nextBadge) :
      RamCallStep (s, core) .other (s, core')

/-- The entry that `free` finds for the capability, if any, is an
ordinary dataspace. -/
def FindsOrdinary (s : RamSessionComponent) (ds : Cap) : Prop :=
  ∀ info, findByBadge (·.cap.localName) ds.localName s.parentState.ramDataspaces = some info →
    info.mrmInfo = none

/-- No call frees a managed dataspace. -/
def FreesOrdinary (x : RamSessionComponent × Core) : RamCall → Prop
  | .free ds => FindsOrdinary x.1 ds
  | _ => True

/-! ## Acquiring -/

/-- The session holds `caps` more at the parent's RAM session. -/
structure Acquired (caps : List Cap) (s s' : RamSessionComponent) : Prop extends SameLists s s' where
  dataspaces' : s'.parentRam.dataspaces.map (·.1) = caps ++ s.parentRam.dataspaces.map (·.1)
  regionMaps : s'.parentRm = s.parentRm
  frees : s'.parentRam.wildFrees = s.parentRam.wildFrees

theorem Acquired.refl (s : RamSessionComponent) : Acquired [] s s := ⟨⟨rfl, rfl⟩, rfl, rfl, rfl⟩

theorem Acquired.trans {caps₁ caps₂ : List Cap} {s₁ s₂ s₃ : RamSessionComponent}
    (h : Acquired caps₁ s₁ s₂) (h' : Acquired caps₂ s₂ s₃) : Acquired (caps₂ ++ caps₁) s₁ s₃ where
  toSameLists := h.toSameLists.trans h'.toSameLists
  dataspaces' := by rw [h'.dataspaces', h.dataspaces', List.append_assoc]
  regionMaps := h'.regionMaps.trans h.regionMaps
  frees := h'.frees.trans h.frees

theorem acquired_newMd (r : MdRecord) (s : RamSessionComponent) : Acquired [] s (s.newMd r) :=
  ⟨⟨rfl, rfl⟩, rfl, rfl, rfl⟩

theorem parentAlloc_acquired {size : Nat} {s s' : RamSessionComponent} {core core' : Core}
    {cap : Cap} (h : s.parentAlloc size core = some (cap, s', core')) : Acquired [cap] s s' := by
  obtain ⟨-, -, rfl⟩ := parentAlloc_eq_some h
  exact ⟨⟨rfl, rfl⟩, rfl, rfl, rfl⟩

/-- The allocation loop holds one parent dataspace for every designated
dataspace it has added. -/
theorem allocDesignated_acquired {ranges : List (Nat × Nat)} {mrm mrm' : ManagedRegionMapInfo}
    {s s' : RamSessionComponent} {core core' : Core}
    (h : allocDesignated ranges mrm s core = (true, mrm', s', core')) :
    mrm'.regionMapCap = mrm.regionMapCap ∧
      ∃ news, mrm'.ddInfos = news ++ mrm.ddInfos ∧ Acquired (news.map (·.cap)) s s' := by
  induction ranges generalizing mrm s core with
  | nil =>
      simp only [allocDesignated, Prod.mk.injEq] at h
      obtain ⟨-, rfl, rfl, -⟩ := h
      exact ⟨rfl, [], rfl, .refl s⟩
  | cons p ranges ih =>
      obtain ⟨relAddr, size⟩ := p
      unfold allocDesignated at h
      split at h
      · simp at h
      · rename_i cap s₁ core₁ halloc
        obtain ⟨hcap, news, hdds, hacq⟩ := ih h
        refine ⟨hcap, news ++ [.new cap relAddr size], by simp [hdds], ?_⟩
        have hone := (parentAlloc_acquired halloc).trans (acquired_newMd (.designatedDataspaceInfo cap) s₁)
        have hnew : (DesignatedDataspaceInfo.new cap relAddr size).cap = cap := rfl
        rw [List.map_append, List.map_cons, List.map_nil, hnew]
        exact hone.trans hacq

/-- **Allocation keeps the ledger balanced.** -/
theorem Balanced.alloc {size : Nat} {cacheAttr : CacheAttribute} {boot : Bool}
    {s s' : RamSessionComponent} {core core' : Core} {cap : Cap} (hs : Balanced s)
    (h : s.alloc size cacheAttr boot core = some (cap, s', core')) (hcap : cap ≠ Cap.invalid) :
    Balanced s' := by
  unfold RamSessionComponent.alloc at h
  split at h
  · unfold allocManaged at h
    dsimp only at h
    split at h
    · simp only [Option.some.injEq, Prod.mk.injEq] at h
      exact absurd h.1.symm hcap
    · rename_i mrm s₁ core₁ hloop
      obtain ⟨hrm, news, hdds, hacq⟩ := allocDesignated_acquired hloop
      simp only [Option.some.injEq, Prod.mk.injEq] at h
      obtain ⟨-, rfl, -⟩ := h
      rw [List.append_nil] at hdds
      refine ⟨?_, ?_, hacq.frees.trans hs.frees⟩
      · have hlist := hacq.toSameLists.dataspaces
        change (s₁.parentRam.dataspaces.map (·.1)).Perm
          (mrm.ddInfos.map (·.cap) ++ s₁.parentState.ramDataspaces.flatMap (·.held))
        rw [hacq.dataspaces', hdds, hlist]
        exact hs.dataspaces.append_left _
      · have hlist := hacq.toSameLists.dataspaces
        change (s₁.parentRm.map (·.1)).Perm
          (mrm.regionMapCap :: s₁.parentState.ramDataspaces.filterMap (·.regionMap))
        rw [hacq.regionMaps, hrm, hlist]
        exact hs.regionMaps.cons _
  · split at h
    · cases h
    · rename_i ds s₁ core₁ halloc
      have hacq := parentAlloc_acquired halloc
      have hlist := hacq.toSameLists.dataspaces
      simp only [Option.some.injEq, Prod.mk.injEq] at h
      obtain ⟨-, rfl, -⟩ := h
      refine ⟨?_, ?_, hacq.frees.trans hs.frees⟩
      · change (s₁.parentRam.dataspaces.map (·.1)).Perm
          (ds :: s₁.parentState.ramDataspaces.flatMap (·.held))
        rw [hacq.dataspaces', hlist]
        exact hs.dataspaces.cons _
      · change (s₁.parentRm.map (·.1)).Perm
          (s₁.parentState.ramDataspaces.filterMap (·.regionMap))
        rw [hacq.regionMaps, hlist]
        exact hs.regionMaps

/-! ## Giving back -/

/-- A call of `_parent_ram.free` with a dataspace that is held. -/
theorem parentFree_held {cap : Cap} {s : RamSessionComponent}
    (h : cap ∈ s.parentRam.dataspaces.map (·.1)) :
    (s.parentRam.dataspaces.map (·.1)).Perm
        (cap :: (s.parentFree cap).parentRam.dataspaces.map (·.1)) ∧
      (s.parentFree cap).parentRam.wildFrees = s.parentRam.wildFrees ∧
      (s.parentFree cap).parentRm = s.parentRm := by
  unfold parentFree
  split
  · rename_i ds hfind
    have hcap : ds.1 = cap := by simpa using List.find?_some hfind
    have hperm := (List.perm_cons_erase (List.mem_of_find?_eq_some hfind)).map (·.1)
    rw [List.map_cons, hcap] at hperm
    exact ⟨hperm, rfl, rfl⟩
  · rename_i hfind
    obtain ⟨ds, hds, rfl⟩ := List.mem_map.mp h
    simp only [List.find?_eq_none] at hfind
    exact absurd (hfind ds hds) (by simp)

/-- A call of `_parent_ram.free` with anything else. -/
theorem parentFree_wild {cap : Cap} {s : RamSessionComponent}
    (h : cap ∉ s.parentRam.dataspaces.map (·.1)) :
    (s.parentFree cap).parentRam.wildFrees = cap :: s.parentRam.wildFrees := by
  unfold parentFree
  split
  · rename_i ds hfind
    have hcap : ds.1 = cap := by simpa using List.find?_some hfind
    exact absurd (List.mem_map.mpr ⟨ds, List.mem_of_find?_eq_some hfind, hcap⟩) h
  · rfl

/-- Nothing is acquired while a managed dataspace is torn down. -/
theorem parentFree_sublist (cap : Cap) (s : RamSessionComponent) :
    (s.parentFree cap).parentRam.dataspaces.Sublist s.parentRam.dataspaces := by
  unfold parentFree
  split
  · exact List.erase_sublist
  · exact .refl _

theorem destroyDesignated_sublist (dds : List DesignatedDataspaceInfo) (s : RamSessionComponent) :
    (s.destroyDesignated dds).parentRam.dataspaces.Sublist s.parentRam.dataspaces := by
  induction dds generalizing s with
  | nil => exact .refl _
  | cons dd dds ih =>
      have hone := parentFree_sublist dd.cap (s.destroyMd (.designatedDataspaceInfo dd.cap))
      exact (ih _).trans hone

/-- The capability of a managed dataspace is none that the parent's RAM
session has handed out. -/
theorem managed_not_held {n : Nat} {ds : List RamDataspaceInfo} (h : LaidOut n ds)
    {info : RamDataspaceInfo} (hinfo : info ∈ ds) {mrm : ManagedRegionMapInfo}
    (hm : info.mrmInfo = some mrm) : info.cap ∉ ds.flatMap (·.held) := by
  intro hmem
  obtain ⟨d, hd, hcap⟩ := List.mem_flatMap.mp hmem
  cases hdm : d.mrmInfo with
  | none =>
      simp only [RamDataspaceInfo.held, hdm, List.mem_singleton] at hcap
      have heq : d = info := List.inj_on_of_nodup_map h.badges hd hinfo (by rw [hcap])
      rw [heq, hm] at hdm
      cases hdm
  | some mrm' =>
      simp only [RamDataspaceInfo.held, hdm] at hcap
      obtain ⟨dd, hdd, hddcap⟩ := List.mem_map.mp hcap
      have hmem : dd ∈ ds.flatMap (·.dds) :=
        List.mem_flatMap.mpr ⟨d, hd, by simpa [RamDataspaceInfo.dds, hdm] using hdd⟩
      exact h.apart dd hmem info hinfo (by rw [hddcap])

/-- An ordinary dataspace is given back as it was acquired. -/
theorem Balanced.destroyOrdinary {s : RamSessionComponent} (hs : Balanced s) {ds : Cap}
    {info : RamDataspaceInfo}
    (hfind : findByBadge (·.cap.localName) ds.localName s.parentState.ramDataspaces = some info)
    (hm : info.mrmInfo = none) : Balanced (s.destroyRamdsInfo info) := by
  have hbadge : info.cap.localName = ds.localName := (findByBadge_some hfind).2
  have hperm := List.perm_cons_eraseP_of_find? hfind
  rw [← hbadge] at hperm
  unfold destroyRamdsInfo
  rw [hm]
  dsimp only
  set rest := s.parentState.ramDataspaces.eraseP fun r => r.cap.localName == info.cap.localName
  set s₁ := (s.setRamDataspaces rest).destroyMd (.ramDataspaceInfo info.cap)
  have hheld : (s.parentRam.dataspaces.map (·.1)).Perm (info.cap :: rest.flatMap (·.held)) := by
    have hone : info.held = [info.cap] := by simp [RamDataspaceInfo.held, hm]
    have hall := hperm.flatMap_right RamDataspaceInfo.held
    rw [List.flatMap_cons, hone] at hall
    exact hs.dataspaces.trans hall
  have hmem : info.cap ∈ s₁.parentRam.dataspaces.map (·.1) :=
    hheld.mem_iff.mpr List.mem_cons_self
  obtain ⟨hgone, hfrees, hrms⟩ := parentFree_held hmem
  have hlist := (parentFree_sameLists info.cap s₁).dataspaces
  refine ⟨?_, ?_, hfrees.trans hs.frees⟩
  · rw [hlist]
    exact List.Perm.cons_inv (hgone.symm.trans hheld)
  · rw [hlist, hrms]
    have hnone : info.regionMap = none := by simp [RamDataspaceInfo.regionMap, hm]
    have hall := hperm.filterMap RamDataspaceInfo.regionMap
    rw [List.filterMap_cons_none hnone] at hall
    exact hs.regionMaps.trans hall

/-- A managed dataspace ends with a wild free. -/
theorem destroyManaged_wild {n : Nat} {s : RamSessionComponent} (hs : Balanced s)
    (hlaid : LaidOut n s.parentState.ramDataspaces) {info : RamDataspaceInfo}
    (hinfo : info ∈ s.parentState.ramDataspaces) {mrm : ManagedRegionMapInfo}
    (hm : info.mrmInfo = some mrm) :
    info.cap ∈ (s.destroyRamdsInfo info).parentRam.wildFrees := by
  unfold destroyRamdsInfo
  rw [hm]
  dsimp only
  rw [parentFree_wild]
  · exact List.mem_cons_self
  · intro hmem
    have hsub := (destroyDesignated_sublist mrm.ddInfos
      { s.setRamDataspaces (s.parentState.ramDataspaces.eraseP fun r =>
          r.cap.localName == info.cap.localName) with
        receiver := s.receiver.erase mrm.regionMapCap }).map (·.1)
    exact managed_not_held hlaid hinfo hm (hs.dataspaces.mem_iff.mp (hsub.subset hmem))

/-- **A call of `free` keeps the ledger balanced exactly where it finds
no managed dataspace.** -/
theorem Balanced.free_iff {n : Nat} {s : RamSessionComponent} (hs : Balanced s)
    (hlaid : LaidOut n s.parentState.ramDataspaces) (ds : Cap) :
    Balanced (s.free ds) ↔ FindsOrdinary s ds := by
  unfold FindsOrdinary RamSessionComponent.free
  cases hfind : findByBadge (·.cap.localName) ds.localName s.parentState.ramDataspaces with
  | none => exact ⟨fun _ info h => (by cases h), fun _ => hs⟩
  | some info =>
      cases hm : info.mrmInfo with
      | none => exact ⟨fun _ i hi => Option.some.inj hi ▸ hm, fun _ => hs.destroyOrdinary hfind hm⟩
      | some mrm =>
          have hwild := destroyManaged_wild hs hlaid (findByBadge_some hfind).1 hm
          constructor
          · intro hfree
            rw [hfree.frees] at hwild
            cases hwild
          · intro hok
            rw [hok info rfl] at hm
            cases hm

/-! ## Runs -/

theorem RamCallStep.laidOut {x y : RamSessionComponent × Core} {a : RamCall}
    (h : RamCallStep x a y) (hx : LaidOut x.2.nextBadge x.1.parentState.ramDataspaces) :
    LaidOut y.2.nextBadge y.1.parentState.ramDataspaces := by
  cases h with
  | alloc halloc _ =>
      obtain ⟨-, hgrown, hsame | ⟨d, hcons, hnew⟩⟩ := alloc_spec halloc
      · rw [hsame]
        exact hx.mono hgrown.le
      · rw [hcons]
        exact hx.cons hnew hgrown.le
  | free s core ds => exact hx.sublist (free_spec ds s).2
  | other hle => exact hx.mono hle

theorem RamCallStep.balanced {x y : RamSessionComponent × Core} {a : RamCall}
    (h : RamCallStep x a y) (hok : FreesOrdinary x a)
    (hx : LaidOut x.2.nextBadge x.1.parentState.ramDataspaces) (hs : Balanced x.1) :
    Balanced y.1 := by
  cases h with
  | alloc halloc hcap => exact hs.alloc halloc hcap
  | free s core ds => exact (hs.free_iff hx ds).mpr hok
  | other _ => exact hs

theorem RamSessionComponent.Created.balanced {s : RamSessionComponent} (h : s.Created) :
    Balanced s where
  dataspaces := by rw [h.dataspaces, h.empty]; exact .nil
  regionMaps := by rw [h.regionMaps, h.empty]; exact .nil
  frees := h.frees

theorem RamSessionComponent.Created.laidOut {s : RamSessionComponent} (h : s.Created) (n : Nat) :
    LaidOut n s.parentState.ramDataspaces := by
  rw [h.empty]
  exact ⟨by simp, by simp, by simp, by simp, by simp, by simp, by simp⟩

/-- `alloc` of an ordinary dataspace, then `free` of the result. -/
theorem alloc_free_parentRam {size : Nat} {cacheAttr : CacheAttribute} {boot : Bool}
    {s s' : RamSessionComponent} {core core' : Core} {cap : Cap} (hg : s.granularity = 0)
    (h : s.alloc size cacheAttr boot core = some (cap, s', core')) :
    (s'.free cap).parentRam = s.parentRam ∧ (s'.free cap).parentRm = s.parentRm := by
  unfold RamSessionComponent.alloc parentAlloc at h
  rw [hg, if_neg (by omega)] at h
  by_cases hquota : s.parentRam.quota < alignAddr size
  · simp [hquota] at h
  · simp only [hquota, if_false, Option.some.injEq, Prod.mk.injEq] at h
    obtain ⟨rfl, rfl, -⟩ := h
    have hsum : s.parentRam.quota - alignAddr size + alignAddr size = s.parentRam.quota := by omega
    simp [RamSessionComponent.free, findByBadge, setRamDataspaces, destroyRamdsInfo, destroyMd,
      parentFree, newMd, hsum]

/-- **In every run that frees ordinary dataspaces only, the ledger is
balanced after each call**; a call then upsets it exactly when it frees
a managed dataspace, and with no granularity `alloc` followed by `free`
leaves the parent's side as it was. -/
theorem balanced_of_run {s s' : RamSessionComponent} {core core' : Core} (hs : s.Created)
    (hrun : Run RamCallStep FreesOrdinary (s, core) (s', core')) :
    Balanced s' ∧ (∀ ds, Balanced (s'.free ds) ↔ FindsOrdinary s' ds) ∧
      ∀ size cacheAttr boot cap s'' core'', s'.granularity = 0 →
        s'.alloc size cacheAttr boot core' = some (cap, s'', core'') →
          (s''.free cap).parentRam = s'.parentRam ∧ (s''.free cap).parentRm = s'.parentRm := by
  obtain ⟨hlaid, hbal⟩ := hrun.invariant
    (I := fun x => LaidOut x.2.nextBadge x.1.parentState.ramDataspaces ∧ Balanced x.1)
    (fun x a y hx hok hstep => ⟨hstep.laidOut hx.1, hstep.balanced hok hx.1 hx.2⟩)
    ⟨hs.laidOut core.nextBadge, hs.balanced⟩
  refine ⟨hbal, hbal.free_iff hlaid, ?_⟩
  intro size cacheAttr boot cap s'' core'' hg halloc
  exact alloc_free_parentRam hg halloc

/-! ## The small session -/

/-- One page allocated from a session without granularity, then freed;
then a capability it does not know. -/
theorem balanced_of_run_small :
    let s := RamSessionComponent.bare 30 true 0 []
    ∃ s' core', Run RamCallStep FreesOrdinary (s, Core.small) (s', core') ∧ Balanced s' := by
  intro s
  have hcreated : s.Created := ⟨rfl, rfl, rfl, rfl⟩
  let r := (s.alloc 4096 .cached false Core.small).get (by decide)
  have halloc : s.alloc 4096 .cached false Core.small = some r := (Option.some_get _).symm
  have h₁ : Run RamCallStep FreesOrdinary (s, Core.small) (r.2.1, r.2.2) :=
    (Run.refl _).tail (a := .alloc 4096) trivial (.alloc halloc (by decide))
  have h₂ := h₁.tail (a := .free r.1) (by
    intro info hinfo
    have hone : findByBadge (·.cap.localName) r.1.localName r.2.1.parentState.ramDataspaces =
      some ⟨⟨100⟩, 4096, .cached, false, 1, none⟩ := by decide
    rw [hone] at hinfo
    rw [← Option.some.inj hinfo]) (.free _ _ _)
  have h₃ := h₂.tail (a := .free ⟨77⟩) (by
    intro info hinfo
    cases hinfo) (.free _ _ _)
  exact ⟨_, _, h₃, (balanced_of_run hcreated h₃).1⟩

/-- With a granularity of one page, `alloc` of a page and `free` of the
result leave the region map behind and free its dataspace at the
parent's RAM session. -/
theorem not_balanced_managed :
    ¬∀ (s s' : RamSessionComponent) (core core' : Core), s.Created →
      Run RamCallStep (fun _ _ => True) (s, core) (s', core') → Balanced s' := by
  intro hall
  let s := RamSessionComponent.bare 30 true 1 []
  let r := (s.alloc 4096 .cached false Core.small).get (by decide)
  have halloc : s.alloc 4096 .cached false Core.small = some r := (Option.some_get _).symm
  have h₁ : Run RamCallStep (fun _ _ => True) (s, Core.small) (r.2.1, r.2.2) :=
    (Run.refl _).tail (a := .alloc 4096) trivial (.alloc halloc (by decide))
  have h₂ := h₁.tail (a := .free r.1) trivial (.free _ _ _)
  have hbal := hall s _ Core.small _ ⟨rfl, rfl, rfl, rfl⟩ h₂
  have hwild : (r.2.1.free r.1).parentRam.wildFrees = [⟨101⟩] := by decide
  rw [hbal.frees] at hwild
  cases hwild

end Rtcr
