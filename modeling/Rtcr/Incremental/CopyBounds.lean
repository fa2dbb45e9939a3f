import Rtcr.Checkpointer.CopyRam
import Rtcr.Checkpointer.CopySizes
import Rtcr.Incremental.Attachments
import Rtcr.Incremental.ManagedAlloc

/-!
# Incremental.CopyBounds — no copy leaves its dataspaces

`memcpy` checks no bounds. What keeps it inside both dataspaces is how
the work items come about: from entries whose sizes were fixed at some
earlier call (`Checkpointer.CopySizes`), and from the layout of managed
dataspaces. `copies_inside` puts the two together, for every call of a
run.
-/

namespace Rtcr

open Checkpointer

/-! ## Badges -/

/-- The badges of the dataspaces the RAM sessions list. -/
def TargetChild.ramBadges (child : TargetChild) : List Nat :=
  (dataspacesOf child.services.ramRoot).map (·.cap.localName)

/-- Those of managed dataspaces. -/
def TargetChild.managedBadges (child : TargetChild) : List Nat :=
  ((dataspacesOf child.services.ramRoot).filter (·.mrmInfo.isSome)).map (·.cap.localName)

/-- The badges of the dataspaces that are attached somewhere. -/
def TargetChild.attachedBadges (child : TargetChild) : List Nat :=
  child.regionMaps.flatMap fun a => a.parentState.attachedRegions.map (·.attachedDsCap.localName)

/-- At some call the badge is that of a managed dataspace. -/
def EverManaged (calls : List Call) (b : Nat) : Prop :=
  ∃ call ∈ calls, b ∈ call.child.managedBadges

instance (calls : List Call) (b : Nat) : Decidable (EverManaged calls b) :=
  inferInstanceAs (Decidable (∃ call ∈ calls, b ∈ call.child.managedBadges))

/-! ## What core promises -/

/-- Core allocates whole pages: `pages` tells how many bytes those of a
badge's dataspace are. It attaches nothing that is not in them. -/
structure WholePages (pages : Nat → Nat) (child : TargetChild) : Prop where
  whole : ∀ b, pageSize ∣ pages b
  ram : ∀ d ∈ dataspacesOf child.services.ramRoot, pages d.cap.localName = alignAddr d.size
  designated : ∀ dd ∈ ddsOf child.services.ramRoot, pages dd.cap.localName = alignAddr dd.size
  attached : ∀ a ∈ child.regionMaps, ∀ r ∈ a.parentState.attachedRegions,
    ∃ size, r.size = alignAddr size ∧ r.offset + size ≤ pages r.attachedDsCap.localName

/-- A badge denotes one dataspace throughout the calls. A managed one is
no region map and no designated dataspace, it has the layout `alloc` has
given it, and its session lists it from then on: no call finds it
attached before it is listed. -/
structure OneDataspace (calls : List Call) : Prop where
  sessions : ∀ call ∈ calls, (call.child.services.ramRoot.map (·.cap.localName)).Nodup
  layout : ∀ call ∈ calls, ∀ s ∈ call.child.services.ramRoot, ∀ d ∈ s.parentState.ramDataspaces,
    d.mrmInfo.isSome = true → AllocLayout s.granularity d
  regionMaps : ∀ call ∈ calls, ∀ b ∈ call.child.regionMapDataspaces, ¬EverManaged calls b
  designated : ∀ call ∈ calls, ∀ dd ∈ ddsOf call.child.services.ramRoot,
    ¬EverManaged calls dd.cap.localName
  listed : calls.Pairwise fun call later => ∀ b ∈ later.child.managedBadges,
    b ∈ call.child.attachedBadges → b ∈ call.child.ramBadges

/-! ## Listed before attached

`OneDataspace.listed` is what the calls of the child see to: `alloc` lists
a dataspace before anyone has its capability. -/

theorem AttachStep.ramBadges {w w' : AttachState} {e : AttachEvent} (h : AttachStep w e w') :
    w.core.nextBadge ≤ w'.core.nextBadge ∧
      ∀ b ∈ w'.child.ramBadges, b ∈ w.child.ramBadges ∨ w.core.nextBadge ≤ b := by
  cases h with
  | alloc hram halloc =>
      rename_i l₁ l₂ s s' size cacheAttr cap core'
      obtain ⟨-, hgrown, hlist⟩ := alloc_spec halloc
      refine ⟨hgrown.le, fun b hb => ?_⟩
      obtain ⟨d, hd, rfl⟩ := List.mem_map.mp hb
      obtain ⟨x, hx, hdx⟩ := List.mem_flatMap.mp hd
      have hold : ∀ x ∈ w.child.services.ramRoot, d ∈ x.parentState.ramDataspaces →
          d.cap.localName ∈ w.child.ramBadges := fun x hx hdx =>
        List.mem_map_of_mem (List.mem_flatMap.mpr ⟨x, hx, hdx⟩)
      have hcases : x = s' ∨ x ∈ w.child.services.ramRoot := by
        rw [hram]
        exact List.mem_replace hx
      rcases hcases with rfl | hx
      · have hs : s ∈ w.child.services.ramRoot := by rw [hram]; simp
        rcases hlist with hsame | ⟨d', hcons, hnew⟩
        · exact .inl (hold s hs (hsame ▸ hdx))
        · rw [hcons] at hdx
          rcases List.mem_cons.mp hdx with rfl | hdx
          · exact .inr hnew.badge.1
          · exact .inl (hold s hs hdx)
      · exact .inl (hold x hx hdx)
  | free ds hram =>
      rename_i l₁ l₂ s
      refine ⟨le_rfl, fun b hb => .inl ?_⟩
      obtain ⟨d, hd, rfl⟩ := List.mem_map.mp hb
      obtain ⟨x, hx, hdx⟩ := List.mem_flatMap.mp hd
      refine List.mem_map_of_mem ?_
      rw [hram]
      rcases List.mem_replace (a := s) hx with rfl | hx
      · exact List.mem_flatMap.mpr ⟨s, by simp, (free_spec ds s).2.subset hdx⟩
      · exact List.mem_flatMap.mpr ⟨x, hx, hdx⟩
  | attach => exact ⟨le_rfl, fun b hb => .inl hb⟩
  | detach => exact ⟨le_rfl, fun b hb => .inl hb⟩
  | checkpoint =>
      refine ⟨(checkpoint_callsOn w.caller w.state w.child).nextBadge, fun b hb => .inl ?_⟩
      obtain ⟨d', hd', rfl⟩ := List.mem_map.mp hb
      obtain ⟨d, hd, hrel⟩ := List.exists_of_forall₂_right w.ramRel_checkpointed.dataspacesOf hd'
      rw [hrel.cap]
      exact List.mem_map_of_mem hd

/-- Whatever the child does afterwards, a dataspace that is attached now
and listed then is listed now. -/
theorem listed_before_attached {w w' : AttachState}
    (hexist : ∀ b ∈ w.child.attachedBadges, b < w.core.nextBadge)
    (hrun : Run AttachStep (fun _ _ => True) w w') :
    ∀ b ∈ w'.child.ramBadges, b ∈ w.child.attachedBadges → b ∈ w.child.ramBadges := by
  have hinv : w.core.nextBadge ≤ w'.core.nextBadge ∧
      ∀ b ∈ w'.child.ramBadges, b ∈ w.child.ramBadges ∨ w.core.nextBadge ≤ b := by
    refine hrun.invariant (I := fun x => w.core.nextBadge ≤ x.core.nextBadge ∧
      ∀ b ∈ x.child.ramBadges, b ∈ w.child.ramBadges ∨ w.core.nextBadge ≤ b)
      (fun x e y hx _ hstep => ?_) ⟨le_rfl, fun b hb => .inl hb⟩
    obtain ⟨hle, hbadges⟩ := hstep.ramBadges
    refine ⟨hx.1.trans hle, fun b hb => ?_⟩
    rcases hbadges b hb with hold | hnew
    · exact hx.2 b hold
    · exact .inr (hx.1.trans hnew)
  intro b hb hattached
  have hlt := hexist b hattached
  exact (hinv.2 b hb).resolve_right (by omega)

/-! ## Inside both dataspaces -/

/-- The page-rounded size of a copy dataspace, which has been allocated
with the size of its entry. -/
def OrigCopyCountInfo.copyPages (info : OrigCopyCountInfo) : Nat := alignAddr info.size

/-- `memcpy` for the item stays inside the original and inside the copy. -/
structure Inside (pages : Nat → Nat) (ck : Checkpointer) (x : OrigCopyInfo) : Prop where
  orig : x.copySize ≤ pages x.origDsCap.localName
  copy : ∃ info ∈ ck.copyDataspaces, info.copyDsCap = x.copyDsCap ∧
    x.copyRelAddr + x.copySize ≤ info.copyPages

/-- The copy of a managed dataspace is as large as the dataspace itself,
unless no call of `rest` meets the dataspace as a managed one. -/
structure FitsEntry (pages : Nat → Nat) (rest : List Call) (cap : Cap) (size : Nat) : Prop where
  orig : size ≤ pages cap.localName
  copy : alignAddr size = pages cap.localName ∨ ¬EverManaged rest cap.localName

theorem FitsEntry.tail {pages : Nat → Nat} {call : Call} {rest : List Call} {cap : Cap}
    {size : Nat} (h : FitsEntry pages (call :: rest) cap size) :
    FitsEntry pages rest cap size where
  orig := h.orig
  copy := h.copy.imp_right fun hnever ⟨later, hlater, hb⟩ =>
    hnever ⟨later, List.mem_cons_of_mem _ hlater, hb⟩

theorem alignAddr_le {n size : Nat} (h : pageSize ∣ n) (hle : size ≤ n) : alignAddr size ≤ n := by
  obtain ⟨k, rfl⟩ := h
  unfold alignAddr pageSize at *
  omega

/-- A window fits, if its dataspace is not in the list of a session. -/
theorem fitsEntry_window {pages : Nat → Nat} {call : Call} {rest : List Call}
    (hpages : WholePages pages call.child) (hlisted : (call :: rest).Pairwise fun call later =>
      ∀ b ∈ later.child.managedBadges, b ∈ call.child.attachedBadges → b ∈ call.child.ramBadges)
    {a : RegionMapComponent} (ha : a ∈ call.child.regionMaps) {r : AttachedRegionInfo}
    (hr : r ∈ a.parentState.attachedRegions)
    (hnot : r.attachedDsCap.localName ∉ call.child.ramBadges) :
    FitsEntry pages (call :: rest) r.attachedDsCap r.size where
  orig := by
    obtain ⟨size, hsize, hle⟩ := hpages.attached a ha r hr
    rw [hsize]
    exact alignAddr_le (hpages.whole _) (by omega)
  copy := by
    refine .inr ?_
    rintro ⟨later, hlater, hb⟩
    rcases List.mem_cons.mp hlater with rfl | hlater
    · obtain ⟨d, hd, hbadge⟩ := List.mem_map.mp hb
      exact hnot (hbadge ▸ List.mem_map_of_mem (List.mem_of_mem_filter hd))
    · refine hnot ((List.pairwise_cons.mp hlisted).1 later hlater _ hb ?_)
      exact List.mem_flatMap.mpr ⟨a, ha, List.mem_map_of_mem hr⟩

theorem fitsEntry_ram {pages : Nat → Nat} {call : Call} (hpages : WholePages pages call.child)
    (rest : List Call) {d : RamDataspaceInfo} (hd : d ∈ dataspacesOf call.child.services.ramRoot) :
    FitsEntry pages rest d.cap d.size where
  orig := hpages.ram d hd ▸ le_alignAddr d.size
  copy := .inl (hpages.ram d hd).symm

section Run

variable {pages : Nat → Nat} {calls : List Call}

theorem fittingServices (hone : OneDataspace calls) {call : Call} {rest : List Call}
    (hsub : ∀ c ∈ call :: rest, c ∈ calls) (hpages : WholePages pages call.child)
    (hlisted : (call :: rest).Pairwise fun call later =>
      ∀ b ∈ later.child.managedBadges, b ∈ call.child.attachedBadges → b ∈ call.child.ramBadges) :
    FittingServices (FitsEntry pages (call :: rest)) (EverManaged calls) call.child.services := by
  have hcall : call ∈ calls := hsub call List.mem_cons_self
  have hever : ∀ b, EverManaged (call :: rest) b → EverManaged calls b :=
    fun b ⟨c, hc, hb⟩ => ⟨c, hsub c hc, hb⟩
  refine ⟨hone.sessions call hcall, fun s hs d hd => ?_, fun a ha => ?_, fun a ha r hr => ?_⟩
  · exact fitsEntry_ram hpages _ (List.mem_flatMap.mpr ⟨s, hs, hd⟩)
  · exact hone.regionMaps call hcall _ (List.mem_map_of_mem ha)
  · by_cases hram : r.attachedDsCap.localName ∈ call.child.ramBadges
    · by_cases hman : EverManaged calls r.attachedDsCap.localName
      · obtain ⟨d, hd, hbadge⟩ := List.mem_map.mp hram
        obtain ⟨s, hs, hd⟩ := List.mem_flatMap.mp hd
        exact .inr ⟨hman, s, hs, d, hd, hbadge⟩
      · obtain ⟨size, hsize, hle⟩ := hpages.attached a ha r hr
        refine .inl ⟨?_, .inr fun h => hman (hever _ h)⟩
        rw [hsize]
        exact alignAddr_le (hpages.whole _) (by omega)
    · exact .inl (fitsEntry_window hpages hlisted ha hr hram)

/-- What holds before the calls `rest`. -/
abbrev Checkpointer.History.Fitting (pages : Nat → Nat) (calls rest : List Call) (s : History) : Prop :=
  Backed (FitsEntry pages rest) (EverManaged calls) (stateRefs s.state) s.checkpointer

/-- **The run**: entries fit before every call. -/
theorem fitting_of_calls (hpages : ∀ call ∈ calls, WholePages pages call.child)
    (hone : OneDataspace calls) {before rest : List Call} (hsub : ∀ c ∈ before ++ rest, c ∈ calls)
    (hlisted : (before ++ rest).Pairwise fun call later =>
      ∀ b ∈ later.child.managedBadges, b ∈ call.child.attachedBadges → b ∈ call.child.ramBadges)
    {s : History} (h : s.Fitting pages calls (before ++ rest)) :
    (before.foldl History.next s).Fitting pages calls rest := by
  induction before generalizing s with
  | nil => exact h
  | cons call before ih =>
      have hcore : Backed (FitsEntry pages (call :: before ++ rest)) (EverManaged calls)
          (stateRefs s.state) { s.checkpointer with core := call.core } := ⟨h.fits, h.counted⟩
      have hnext := hcore.checkpoint
        (fittingServices hone hsub (hpages call (hsub call List.mem_cons_self)) hlisted)
      refine ih (fun c hc => hsub c (List.mem_cons_of_mem call hc)) (List.pairwise_cons.mp hlisted).2
        ⟨fun info hinfo => (hnext.fits info hinfo).tail, hnext.counted⟩

/-! ## The work list -/

/-- What the replacement of work items keeps: the copy of a managed
dataspace is as large as the dataspace. -/
structure Roomy (pages : Nat → Nat) (child : TargetChild) (ck : Checkpointer) (x : OrigCopyInfo) :
    Prop where
  orig : x.copySize ≤ pages x.origDsCap.localName
  copy : ∃ info ∈ ck.copyDataspaces, info.copyDsCap = x.copyDsCap ∧
    x.copyRelAddr + x.copySize ≤ info.copyPages ∧
    (x.origDsCap.localName ∈ child.managedBadges → info.copyPages = pages x.origDsCap.localName)

theorem roomy_entry {call : Call} {rest : List Call} {ck : Checkpointer}
    (hfits : ∀ info ∈ ck.copyDataspaces, FitsEntry pages (call :: rest) info.origDsCap info.size)
    {x : OrigCopyInfo} (hx : x ∈ createMemoryToCheckpoint ck.copyDataspaces) :
    Roomy pages call.child ck x := by
  unfold createMemoryToCheckpoint at hx
  obtain ⟨info, hinfo, rfl⟩ := List.mem_map.mp (List.mem_reverse.mp hx)
  obtain ⟨horig, hcopy⟩ := hfits info hinfo
  refine ⟨horig, info, hinfo, rfl, ?_, fun hman => ?_⟩
  · rw [Nat.zero_add]
    exact le_alignAddr info.size
  · exact hcopy.resolve_right fun hnever => hnever ⟨call, List.mem_cons_self, hman⟩

/-- A designated dataspace in the place of the managed one it is in. -/
theorem roomy_designated (hone : OneDataspace calls) {call : Call} (hcall : call ∈ calls)
    (hpages : WholePages pages call.child) {d : RamDataspaceInfo}
    (hd : d ∈ dataspacesOf call.child.services.ramRoot) {dd : DesignatedDataspaceInfo}
    (hdd : dd ∈ d.dds) {ck : Checkpointer} {m : OrigCopyInfo} (hm : Roomy pages call.child ck m)
    (hmd : m.origDsCap.localName = d.cap.localName) :
    Roomy pages call.child ck (dd.item m.copyDsCap) := by
  have hman : d.mrmInfo.isSome = true := RamDataspaceInfo.managed_of_mem hdd
  have hmem : dd ∈ ddsOf call.child.services.ramRoot := List.mem_flatMap.mpr ⟨d, hd, hdd⟩
  have hbadge : d.cap.localName ∈ call.child.managedBadges :=
    List.mem_map_of_mem (List.mem_filter.mpr ⟨hd, hman⟩)
  obtain ⟨info, hinfo, hcopy, -, hfull⟩ := hm.copy
  refine ⟨?_, info, hinfo, hcopy, ?_, fun h => ?_⟩
  · show dd.size ≤ pages dd.cap.localName
    rw [hpages.designated dd hmem]
    exact le_alignAddr dd.size
  · obtain ⟨s, hs, hds⟩ := List.mem_flatMap.mp hd
    have hinside := (hone.layout call hcall s hs d hds hman).wellTiled.inside dd hdd
    show dd.relAddr + dd.size ≤ info.copyPages
    rw [hfull (hmd ▸ hbadge), hmd, hpages.ram d hd]
    exact hinside
  · exact absurd ⟨call, hcall, h⟩ (hone.designated call hcall dd hmem)

/-- **Every copy stays inside both dataspaces**, at every call of a run of
one checkpointer. What records there were before name none of the managed
dataspaces of the run. -/
theorem copies_inside (hpages : ∀ call ∈ calls, WholePages pages call.child)
    (hone : OneDataspace calls) {core : Core} {state : TargetState}
    (hstate : ∀ r ∈ stateRefs state, ¬EverManaged calls r.1) {before after : List Call}
    {call : Call} (hcalls : calls = before ++ call :: after) {s : History}
    (hs : s = .afterCalls core state before) {ck : Checkpointer}
    (hck : ck = { s.checkpointer with core := call.core }) :
    ∀ x ∈ ck.workList s.state call.child, Inside pages (ck.prepared s.state call.child).2 x := by
  subst hs hck
  have hall : ∀ c ∈ before ++ call :: after, c ∈ calls := fun c hc => hcalls ▸ hc
  have hcall : call ∈ calls := hall call (by simp)
  have hlisted := hcalls ▸ hone.listed
  -- nothing is known when the run begins
  have hstart : (History.startFrom core state).Fitting pages calls (before ++ call :: after) := by
    refine ⟨fun _ hinfo => absurd hinfo List.not_mem_nil, fun b hb => ?_⟩
    have hzero : RefCount.uses (stateRefs state) b = 0 :=
      RefCount.uses_eq_zero.mpr fun r hr he => hstate r hr (he ▸ hb)
    exact hzero.le
  have hbefore := fitting_of_calls hpages hone hall hlisted hstart
  have hcore : Backed (FitsEntry pages (call :: after)) (EverManaged calls)
      (stateRefs (History.afterCalls core state before).state)
      { (History.afterCalls core state before).checkpointer with core := call.core } :=
    ⟨hbefore.fits, hbefore.counted⟩
  have hprep := hcore.prepared (fittingServices hone (fun c hc => hall c (by simp [hc]))
    (hpages call hcall) (List.pairwise_append.mp hlisted).2.1)
  -- attaching and detaching has moved no designated dataspace
  have hsame := (createCapMapInfos_samePlace call.child.pause call.core).dataspacesOf
  intro x hx
  have hroomy := resolveAll_keeps (fun d' hd' dd' hdd' m hm hmd => by
    obtain ⟨d, hd, hdd⟩ := List.exists_of_forall₂_right hsame hd'
    obtain ⟨dd, hin, hplace⟩ := List.exists_of_forall₂_right hdd.dds hdd'
    have hitem : dd'.item m.copyDsCap = dd.item m.copyDsCap := by
      simp only [DesignatedDataspaceInfo.item, hplace.cap, hplace.relAddr, hplace.size]
    rw [hitem]
    exact roomy_designated hone hcall (hpages call hcall) hd hin hm (hmd.trans (by rw [hdd.cap])))
    (fun x hx => roomy_entry hprep.fits hx) x hx
  obtain ⟨info, hinfo, hcopy, hle, -⟩ := hroomy.copy
  exact ⟨hroomy.orig, info, hinfo, hcopy, hle⟩

end Run

/-! ### A managed dataspace and a window -/

namespace BoundsSample

/-- Two pages for 0x1800 bytes, and the second page of a dataspace from
somewhere else. -/
def child : TargetChild :=
  { TargetChild.small with
    services :=
      { TargetChild.small.services with
        pdRoot := [.bare 10 true []
          [{ attachedDsCap := ⟨31⟩, size := 0x2000, offset := 0, relAddr := 0x1000
             executable := false, bootstrapped := true },
           { attachedDsCap := ⟨50⟩, size := 0x1000, offset := 0x1000, relAddr := 0x8000
             executable := false, bootstrapped := false }]]
        ramRoot := [.bare 30 true 1
          [{ cap := ⟨31⟩, size := 0x1800, cached := .cached, bootstrapped := true, timestamp := 0
             mrmInfo := some ⟨⟨40⟩, [.new ⟨42⟩ 0x1000 0x1000, .new ⟨41⟩ 0 0x1000], []⟩ }]] } }

def call : Call := ⟨child, .small⟩

def pages (b : Nat) : Nat := if b = 31 ∨ b = 50 then 0x2000 else 0x1000

theorem wholePages : WholePages pages child where
  whole b := by
    unfold pages
    split <;> decide
  ram := by decide +kernel
  designated := by decide +kernel
  attached a ha r hr := by
    have hwindow : ∀ a ∈ child.regionMaps, ∀ r ∈ a.parentState.attachedRegions,
        r.size = alignAddr r.size ∧ r.offset + r.size ≤ pages r.attachedDsCap.localName := by
      decide +kernel
    exact ⟨r.size, hwindow a ha r hr⟩

theorem oneDataspace : OneDataspace [call, call] where
  sessions := by decide +kernel
  layout := by
    have hranges : ∀ c ∈ [call, call], ∀ s ∈ c.child.services.ramRoot,
        ∀ d ∈ s.parentState.ramDataspaces, 0 < s.granularity ∧ d.dds.map (·.range) =
          (RamSessionComponent.designatedRanges (pageSize * s.granularity) d.size).reverse := by
      decide +kernel
    intro c hc s hs d hd _
    exact ⟨(hranges c hc s hs d hd).1, (hranges c hc s hs d hd).2⟩
  regionMaps := by decide +kernel
  designated := by decide +kernel
  listed := by decide +kernel

/-- Before the second call. -/
def first : History := .afterCalls .small .empty [call]

def checkpointer : Checkpointer := { first.checkpointer with core := call.core }

end BoundsSample

open BoundsSample in
/-- At the second call. -/
theorem copies_inside_sample : checkpointer.workList first.state child ≠ [] ∧
    ∀ x ∈ checkpointer.workList first.state child,
      Inside pages (checkpointer.prepared first.state child).2 x := by
  refine ⟨by decide +kernel, ?_⟩
  have hpages : ∀ c ∈ [call, call], WholePages pages c.child := by
    intro c hc
    have he : c = call := by simpa using hc
    exact he ▸ wholePages
  have hstate : ∀ r ∈ stateRefs TargetState.empty, ¬EverManaged [call, call] r.1 := by
    simp [stateRefs, TargetState.empty]
  exact @copies_inside pages [call, call] hpages oneDataspace .small .empty hstate [call] [] call
    rfl first rfl checkpointer rfl

end Rtcr
