import Rtcr.Incremental.Marks
import Rtcr.Lib.While

/-!
# Incremental.CapMapMarks — reading the capability array leaves no mark

The array may be in a managed dataspace. What is detached there is
attached for the time of reading, and what was attached for that is
noted by its badge only: `_detach_unmark_designated_dataspaces` finds it
again in a second walk.
-/

namespace Rtcr

open List (Forall₂)
open While

/-! ## The two walks -/

/-- The call of `Region_map::attach_at` in
`Designated_dataspace_info::attach`, if it is made. -/
def DesignatedDataspaceInfo.attachCall (dd : DesignatedDataspaceInfo) : List Nat :=
  if dd.attached then [] else [dd.cap.localName]

/-- The call of `Region_map::detach` in
`Designated_dataspace_info::detach`, if it is made. -/
def DesignatedDataspaceInfo.detachCall (dd : DesignatedDataspaceInfo) : List Nat :=
  if dd.attached then [dd.cap.localName] else []

/-- What a walk over the designated dataspaces leaves: they themselves,
the list of badges, and the calls at the parent's region map, each named
by the badge of its dataspace. -/
structure DdWalk where
  ddInfos : List DesignatedDataspaceInfo
  badges : List Nat
  calls : List Nat
deriving DecidableEq

/-- The loop of `_mark_attach_designated_dataspaces`; `badges` is
`result_infos`. -/
def markAttachWalk : List DesignatedDataspaceInfo → List Nat → DdWalk
  | [], badges => ⟨[], badges, []⟩
  | dd :: dds, badges =>
      if !dd.attached then
        let rest := markAttachWalk dds (dd.cap.localName :: badges)
        ⟨dd.attach :: rest.ddInfos, rest.badges, dd.attachCall ++ rest.calls⟩
      else
        let rest := markAttachWalk dds badges
        ⟨dd :: rest.ddInfos, rest.badges, rest.calls⟩

/-- The first loop of `_detach_unmark_designated_dataspaces`. -/
def detachUnmarkWalk (badges : List Nat) : List DesignatedDataspaceInfo → DdWalk
  | [] => ⟨[], badges, []⟩
  | dd :: dds =>
      let rest := detachUnmarkWalk badges dds
      if badges.contains dd.cap.localName then
        ⟨dd.detach :: rest.ddInfos, badges, dd.detachCall ++ rest.calls⟩
      else ⟨dd :: rest.ddInfos, badges, rest.calls⟩

/-- One turn of its second loop, which removes the first badge. -/
def deleteBadge : List Nat → List Nat ⊕ List Nat
  | [] => .inl []
  | _ :: badges => .inr badges

/-- The badges of the designated dataspaces that are detached. -/
def detachedBadges (dds : List DesignatedDataspaceInfo) : List Nat :=
  (dds.filter fun dd => !dd.attached).map (·.cap.localName)

theorem mem_detachedBadges {dds : List DesignatedDataspaceInfo} {b : Nat} :
    b ∈ detachedBadges dds ↔ ∃ dd ∈ dds, dd.attached = false ∧ dd.cap.localName = b := by
  simp [detachedBadges, and_assoc]

theorem detachedBadges_nodup {dds : List DesignatedDataspaceInfo}
    (hnd : (dds.map (·.cap.localName)).Nodup) : (detachedBadges dds).Nodup :=
  hnd.sublist (List.filter_sublist.map _)

/-- **The first walk** attaches what is detached and notes it. -/
theorem markAttachWalk_eq (dds : List DesignatedDataspaceInfo) (badges : List Nat) :
    markAttachWalk dds badges =
      ⟨dds.map (·.attach), (detachedBadges dds).reverse ++ badges, detachedBadges dds⟩ := by
  induction dds generalizing badges with
  | nil => rfl
  | cons dd dds ih =>
      unfold markAttachWalk
      by_cases hon : dd.attached = true
      · simp [ih, hon, detachedBadges, DesignatedDataspaceInfo.attach]
      · simp [ih, hon, detachedBadges, DesignatedDataspaceInfo.attachCall]

/-- **The second walk** detaches what it finds in the list. -/
theorem detachUnmarkWalk_eq (badges : List Nat) (dds : List DesignatedDataspaceInfo) :
    detachUnmarkWalk badges dds =
      ⟨dds.map fun dd => if badges.contains dd.cap.localName then dd.detach else dd, badges,
        (dds.filter fun dd => badges.contains dd.cap.localName && dd.attached).map
          (·.cap.localName)⟩ := by
  induction dds with
  | nil => rfl
  | cons dd dds ih =>
      unfold detachUnmarkWalk
      cases hin : badges.contains dd.cap.localName with
      | true =>
          cases hon : dd.attached with
          | true =>
              simp only [ih, hin, hon, DesignatedDataspaceInfo.detachCall, List.map_cons,
                List.filter_cons, Bool.and_self, if_true, List.cons_append, List.nil_append]
          | false =>
              simp only [ih, hin, hon, DesignatedDataspaceInfo.detachCall, List.map_cons,
                List.filter_cons, Bool.and_false, Bool.false_eq_true, if_true, if_false,
                List.nil_append]
      | false =>
          simp only [ih, hin, List.map_cons, List.filter_cons, Bool.false_and,
            Bool.false_eq_true, if_false]

theorem deleteBadge_endsIn (badges : List Nat) : EndsIn deleteBadge badges [] := by
  induction badges with
  | nil =>
      have hdone : deleteBadge [] = .inl [] := rfl
      exact (endsIn_of_done hdone).mpr rfl
  | cons b badges ih =>
      have hturn : deleteBadge (b :: badges) = .inr badges := rfl
      exact (endsIn_of_turn hturn).mpr ih

/-! ## There and back -/

section RoundTrip

variable {dds : List DesignatedDataspaceInfo}

theorem contains_detachedBadges (hnd : (dds.map (·.cap.localName)).Nodup)
    {dd : DesignatedDataspaceInfo} (hdd : dd ∈ dds) :
    (detachedBadges dds).reverse.contains dd.cap.localName = !dd.attached := by
  rw [Bool.eq_iff_iff, List.contains_iff_mem, List.mem_reverse, mem_detachedBadges]
  constructor
  · rintro ⟨dd', hdd', hoff, he⟩
    have hsame : dd' = dd := List.inj_on_of_nodup_map hnd hdd' hdd he
    rw [← hsame, hoff]
    rfl
  · exact fun hoff => ⟨dd, hdd, by simpa using hoff, rfl⟩

theorem attach_attached (dd : DesignatedDataspaceInfo) : dd.attach.attached = true := by
  unfold DesignatedDataspaceInfo.attach
  split
  · assumption
  · rfl

/-- Attached for the time of reading, detached again. -/
theorem detach_attach {dd : DesignatedDataspaceInfo} (hoff : dd.attached = false)
    (hfree : dd.mapped = false) : dd.attach.detach = dd := by
  obtain ⟨cap, relAddr, size, attached, mapped⟩ := dd
  subst hoff hfree
  rfl

/-- **The round trip**: the second walk leaves what the first has found,
and detaches what the first has attached. -/
theorem detachUnmarkWalk_markAttachWalk (hnd : (dds.map (·.cap.localName)).Nodup)
    (hfree : ∀ dd ∈ dds, dd.attached = false → dd.mapped = false) :
    detachUnmarkWalk (markAttachWalk dds []).badges (markAttachWalk dds []).ddInfos =
      ⟨dds, (markAttachWalk dds []).badges, (markAttachWalk dds []).calls⟩ := by
  simp only [markAttachWalk_eq, detachUnmarkWalk_eq, List.append_nil, DdWalk.mk.injEq, true_and]
  have hcap : ∀ dd : DesignatedDataspaceInfo, dd.attach.cap = dd.cap := fun dd =>
    (evolved_attach dd).cap
  constructor
  · rw [List.map_map]
    refine (List.map_congr_left fun dd hdd => ?_).trans (List.map_id' dds)
    simp only [Function.comp_apply, hcap, contains_detachedBadges hnd hdd]
    cases hon : dd.attached with
    | true => simp [DesignatedDataspaceInfo.attach, hon]
    | false => exact detach_attach hon (hfree dd hdd hon)
  · rw [List.filter_map, List.map_map]
    unfold detachedBadges
    have hfilter : dds.filter ((fun dd => (detachedBadges dds).reverse.contains dd.cap.localName &&
        dd.attached) ∘ DesignatedDataspaceInfo.attach) = dds.filter fun dd => !dd.attached := by
      refine List.filter_congr fun dd hdd => ?_
      simp only [Function.comp_apply, hcap, contains_detachedBadges hnd hdd, attach_attached,
        Bool.and_true]
    exact (congrArg _ hfilter).trans (List.map_congr_left fun dd _ => by
      rw [Function.comp_apply, hcap])

end RoundTrip

/-! ## The region's managed dataspace, and the rest -/

/-- The session `s'` is `s` but for the designated dataspaces and faults
of the managed dataspace that `find_by_badge` finds, if it is `ram`. -/
def ButManaged (ram : Cap) (badge : Nat) (s s' : RamSessionComponent) : Prop :=
  s' = s ∨ s.cap = ram ∧ ∃ before d after mrm mrm',
    s.parentState.ramDataspaces = before ++ d :: after ∧
    (∀ x ∈ before, x.cap.localName ≠ badge) ∧ d.cap.localName = badge ∧
    d.mrmInfo = some mrm ∧ mrm'.regionMapCap = mrm.regionMapCap ∧
    s' = s.setRamDataspaces (before ++ { d with mrmInfo := some mrm' } :: after)

/-- The child `child'` is `child` but for the managed dataspace of the
region, which has the designated dataspaces `dds`. -/
structure OnlyRegion (info : AttachedRegionInfo) (child child' : TargetChild)
    (dds : List DesignatedDataspaceInfo) : Prop where
  region : ∃ mrm', info.managedDataspace child'.ramDataspaces = some mrm' ∧ mrm'.ddInfos = dds
  sessions : Forall₂ (ButManaged child.ram info.attachedDsCap.localName) child.services.ramRoot
    child'.services.ramRoot
  rest : child' = child.mapRamSessions fun _ => child'.services.ramRoot

theorem managedDataspace_modifyManaged {info : AttachedRegionInfo} {child : TargetChild}
    {mrm : ManagedRegionMapInfo} (h : info.managedDataspace child.ramDataspaces = some mrm)
    (f : ManagedRegionMapInfo → ManagedRegionMapInfo) :
    info.managedDataspace
        (child.modifyManaged child.ram info.attachedDsCap.localName f).ramDataspaces =
      some (f mrm) := by
  obtain ⟨d, hfind, hm⟩ := Option.bind_eq_some_iff.mp h
  unfold TargetChild.ramDataspaces at hfind
  split at hfind
  · rename_i s hs
    have hcap : s.cap = child.ram := by simpa using List.find?_some hs
    have hsession : (child.modifyManaged child.ram info.attachedDsCap.localName
        f).services.ramRoot.find? (·.cap == child.ram) =
        some (s.setRamDataspaces (List.modifyFirst (fun i => i.cap.localName ==
          info.attachedDsCap.localName) (fun i => { i with mrmInfo := i.mrmInfo.map f })
          s.parentState.ramDataspaces)) := by
      show (List.map _ child.services.ramRoot).find? _ = _
      rw [List.find?_map]
      have hsame : ((fun x : RamSessionComponent => x.cap == child.ram) ∘ fun x =>
          if x.cap = child.ram then x.setRamDataspaces (List.modifyFirst (fun i => i.cap.localName ==
            info.attachedDsCap.localName) (fun i => { i with mrmInfo := i.mrmInfo.map f })
            x.parentState.ramDataspaces) else x) = fun x => x.cap == child.ram := by
        funext x
        simp only [Function.comp_apply]
        split <;> rfl
      rw [hsame, hs, Option.map_some, if_pos hcap]
    unfold TargetChild.ramDataspaces AttachedRegionInfo.managedDataspace
    have hram : (child.modifyManaged child.ram info.attachedDsCap.localName f).ram = child.ram := rfl
    rw [hram, hsession]
    show (findByBadge _ _ (List.modifyFirst _ _ _)).bind _ = _
    have hfound := List.find?_modifyFirst_self
      (p := fun i : RamDataspaceInfo => i.cap.localName == info.attachedDsCap.localName)
      (f := fun i => { i with mrmInfo := i.mrmInfo.map f }) (fun _ => rfl)
      s.parentState.ramDataspaces
    unfold findByBadge at hfind ⊢
    rw [hfound, hfind]
    simp [hm]
  · cases hfind

theorem butManaged_modifyFirst {s : RamSessionComponent} {ram : Cap} {badge : Nat}
    {f : ManagedRegionMapInfo → ManagedRegionMapInfo} (hcap : s.cap = ram)
    (hf : ∀ m, (f m).regionMapCap = m.regionMapCap) :
    ButManaged ram badge s (s.setRamDataspaces (List.modifyFirst (fun i => i.cap.localName == badge)
      (fun i => { i with mrmInfo := i.mrmInfo.map f }) s.parentState.ramDataspaces)) := by
  cases hfind : s.parentState.ramDataspaces.find? (fun i => i.cap.localName == badge) with
  | none =>
      rw [List.modifyFirst_eq_self fun x hx hp => absurd hp (List.find?_eq_none.mp hfind x hx)]
      exact .inl rfl
  | some d =>
      obtain ⟨before, after, hsplit, hbefore, hmod⟩ :=
        List.modifyFirst_split (f := fun i => { i with mrmInfo := i.mrmInfo.map f }) hfind
      have hbadge : d.cap.localName = badge := by simpa using List.find?_some hfind
      rw [hmod]
      cases hm : d.mrmInfo with
      | none =>
          left
          show s.setRamDataspaces (before ++ { d with mrmInfo := none } :: after) = s
          rw [← hm, ← hsplit]
          rfl
      | some m =>
          exact .inr ⟨hcap, before, d, after, m, f m, hsplit,
            fun x hx => by simpa using hbefore x hx, hbadge, hm, hf m, rfl⟩

theorem modifyManaged_onlyRegion {info : AttachedRegionInfo} {child : TargetChild}
    {mrm : ManagedRegionMapInfo} (h : info.managedDataspace child.ramDataspaces = some mrm)
    {f : ManagedRegionMapInfo → ManagedRegionMapInfo}
    (hf : ∀ m, (f m).regionMapCap = m.regionMapCap) :
    OnlyRegion info child (child.modifyManaged child.ram info.attachedDsCap.localName f)
      (f mrm).ddInfos where
  region := ⟨f mrm, managedDataspace_modifyManaged h f, rfl⟩
  sessions := by
    refine List.forall₂_map_self fun s _ => ?_
    split
    · rename_i hcap
      exact butManaged_modifyFirst hcap hf
    · exact .inl rfl
  rest := rfl

theorem modifyManaged_id (ram : Cap) (badge : Nat) {f : ManagedRegionMapInfo → ManagedRegionMapInfo}
    (hf : ∀ m, f m = m) (child : TargetChild) : child.modifyManaged ram badge f = child := by
  have hfirst : ∀ (p : RamDataspaceInfo → Bool) (infos : List RamDataspaceInfo),
      List.modifyFirst p (fun info => { info with mrmInfo := info.mrmInfo.map f }) infos = infos := by
    refine fun p infos => List.modifyFirst_eq_self fun info _ _ => ?_
    have hmap : info.mrmInfo.map f = info.mrmInfo := by
      rw [funext hf, Option.map_id']
    rw [hmap]
  unfold TargetChild.modifyManaged TargetChild.mapRamSessions modifyCap
  have hroot : child.services.ramRoot.map (fun s => if s.cap = ram then s.setRamDataspaces
      (List.modifyFirst (fun info => info.cap.localName == badge)
        (fun info => { info with mrmInfo := info.mrmInfo.map f }) s.parentState.ramDataspaces)
      else s) = child.services.ramRoot := by
    refine (List.map_congr_left fun s _ => ?_).trans (List.map_id' _)
    rw [hfirst]
    split <;> rfl
  rw [hroot]

/-! ## Reading the capability array -/

/-- The walk of `_mark_attach_designated_dataspaces`. -/
def ManagedRegionMapInfo.markWalk (mrm : ManagedRegionMapInfo) : DdWalk :=
  markAttachWalk mrm.ddInfos []

/-- The walk of `_detach_unmark_designated_dataspaces` that follows, with
the list returned. -/
def ManagedRegionMapInfo.unmarkWalk (mrm : ManagedRegionMapInfo) : DdWalk :=
  detachUnmarkWalk mrm.markWalk.badges mrm.markWalk.ddInfos

/-- The two functions leave what their walks leave. -/
structure WalksOver (info : AttachedRegionInfo) (child : TargetChild)
    (mrm : ManagedRegionMapInfo) : Prop where
  badges : (markAttachDesignatedDataspaces info child).1 = mrm.markWalk.badges
  marked : OnlyRegion info child (markAttachDesignatedDataspaces info child).2
    mrm.markWalk.ddInfos
  unmarked : OnlyRegion info child
    (detachUnmarkDesignatedDataspaces (markAttachDesignatedDataspaces info child).1 info
      (markAttachDesignatedDataspaces info child).2) mrm.unmarkWalk.ddInfos

theorem walksOver {info : AttachedRegionInfo} {child : TargetChild} {mrm : ManagedRegionMapInfo}
    (h : info.managedDataspace child.ramDataspaces = some mrm) : WalksOver info child mrm := by
  have hmark : markAttachDesignatedDataspaces info child = (mrm.marked,
      child.modifyManaged child.ram info.attachedDsCap.localName (·.attachAll)) := by
    unfold markAttachDesignatedDataspaces
    rw [h]
  have hbadges : mrm.markWalk.badges = mrm.marked := by
    unfold ManagedRegionMapInfo.markWalk
    rw [markAttachWalk_eq, List.append_nil]
    rfl
  have hdds : mrm.markWalk.ddInfos = mrm.attachAll.ddInfos := by
    unfold ManagedRegionMapInfo.markWalk
    rw [markAttachWalk_eq]
    rfl
  refine ⟨by rw [hmark, hbadges], ?_, ?_⟩
  · rw [hmark, hdds]
    exact modifyManaged_onlyRegion h fun _ => rfl
  · have hback : mrm.unmarkWalk.ddInfos = (mrm.attachAll.detachBadges mrm.marked).ddInfos := by
      unfold ManagedRegionMapInfo.unmarkWalk
      rw [detachUnmarkWalk_eq, hbadges, hdds]
      rfl
    rw [hmark, hback]
    -- both changes together are one change of the managed dataspace
    have honce := modifyManaged_onlyRegion h
      (f := (fun m => m.detachBadges mrm.marked) ∘ fun m => m.attachAll) fun _ => rfl
    have hroot := modifyManaged_comp child.ram info.attachedDsCap.localName
      (fun m => m.attachAll) (fun m => m.detachBadges mrm.marked) child
    have hchild : detachUnmarkDesignatedDataspaces mrm.marked info (child.modifyManaged child.ram
        info.attachedDsCap.localName (·.attachAll)) = child.modifyManaged child.ram
          info.attachedDsCap.localName ((fun m => m.detachBadges mrm.marked) ∘ fun m =>
            m.attachAll) :=
      congrArg (fun root => child.mapRamSessions fun _ => root) hroot
    rw [hchild]
    exact honce

/-- What reading does to the marks of the managed dataspace `mrm` behind
the region. -/
structure LeavesNoMark (info : AttachedRegionInfo) (child : TargetChild)
    (mrm : ManagedRegionMapInfo) : Prop extends WalksOver info child mrm where
  attached : ∀ dd ∈ mrm.markWalk.ddInfos, dd.attached = true
  restored : mrm.unmarkWalk.ddInfos = mrm.ddInfos
  /-- what is attached was detached, and nothing is attached twice -/
  attaches : mrm.markWalk.calls.Nodup ∧
    ∀ dd ∈ mrm.ddInfos, dd.cap.localName ∈ mrm.markWalk.calls ↔ dd.attached = false
  /-- what is detached was attached for the reading -/
  detaches : mrm.unmarkWalk.calls = mrm.markWalk.calls
  /-- the list is empty when its second loop has ended -/
  emptied : EndsIn deleteBadge mrm.unmarkWalk.badges []

/-- **Reading the capability array leaves no mark**, whatever is attached
at the start; `attach_at` succeeds only where nothing is attached. A
region without a managed dataspace of the session is left alone. -/
theorem markAttach_detachUnmark (info : AttachedRegionInfo) (child : TargetChild) :
    (∀ mrm, info.managedDataspace child.ramDataspaces = some mrm →
      (mrm.ddInfos.map (·.cap.localName)).Nodup →
      (∀ dd ∈ mrm.ddInfos, dd.attached = false → dd.mapped = false) →
      LeavesNoMark info child mrm) ∧
    (info.managedDataspace child.ramDataspaces = none →
      markAttachDesignatedDataspaces info child = ([], child) ∧
        detachUnmarkDesignatedDataspaces [] info child = child) := by
  constructor
  · intro mrm hmrm hnd hfree
    have hround : mrm.unmarkWalk = ⟨mrm.ddInfos, mrm.markWalk.badges, mrm.markWalk.calls⟩ :=
      detachUnmarkWalk_markAttachWalk hnd hfree
    have hcalls : mrm.markWalk.calls = detachedBadges mrm.ddInfos := by
      unfold ManagedRegionMapInfo.markWalk
      rw [markAttachWalk_eq]
    refine ⟨walksOver hmrm, fun dd hdd => ?_, by rw [hround], ⟨?_, ?_⟩, by rw [hround],
      deleteBadge_endsIn _⟩
    · unfold ManagedRegionMapInfo.markWalk at hdd
      rw [markAttachWalk_eq] at hdd
      obtain ⟨dd₀, -, rfl⟩ := List.mem_map.mp hdd
      exact attach_attached dd₀
    · rw [hcalls]
      exact detachedBadges_nodup hnd
    · intro dd hdd
      have hcontains := contains_detachedBadges hnd hdd
      rw [hcalls, ← List.mem_reverse, ← List.contains_iff_mem, hcontains, Bool.not_eq_true']
  · intro hnone
    have hmark : markAttachDesignatedDataspaces info child = ([], child) := by
      unfold markAttachDesignatedDataspaces
      rw [hnone]
    refine ⟨hmark, ?_⟩
    have hid : ∀ m : ManagedRegionMapInfo, m.detachBadges [] = m := fun m => by
      simp [ManagedRegionMapInfo.detachBadges]
    exact modifyManaged_id _ _ hid child

namespace MarksSample

/-- Three designated dataspaces; the child has touched the second since
the last checkpoint. -/
def pages : ManagedRegionMapInfo where
  regionMapCap := ⟨100⟩
  ddInfos := [⟨⟨104⟩, 0x2000, 0x1000, false, false⟩, ⟨⟨103⟩, 0x1000, 0x1000, true, true⟩,
    ⟨⟨102⟩, 0, 0x1000, false, false⟩]
  faults := []

def region : AttachedRegionInfo where
  attachedDsCap := ⟨101⟩
  size := 0x3000
  offset := 0
  relAddr := 0x1000
  executable := false
  bootstrapped := false

def child : TargetChild :=
  TargetChild.small.mapRamSessions fun _ =>
    [.bare 30 true 1 [{ cap := ⟨101⟩, size := 0x3000, cached := .cached, bootstrapped := false
                        timestamp := 1, mrmInfo := some pages }]]

end MarksSample

open MarksSample in
theorem markAttach_detachUnmark_pages :
    (markAttachDesignatedDataspaces region child).1 = [102, 104] ∧ LeavesNoMark region child pages := by
  have hmarks := (markAttach_detachUnmark region child).1 pages (by decide) (by decide) (by decide)
  exact ⟨by decide, hmarks⟩

end Rtcr
