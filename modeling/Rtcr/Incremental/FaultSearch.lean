import Rtcr.Incremental.Faults
import Rtcr.Intercept.Objects
import Rtcr.Lib.While

/-!
# Incremental.FaultSearch — looking for the faulting region map

The search of the fault handler skips an entry without a region map
before it moves its cursor, so it never gets past one. What saves it is
not in the search: a session creates managed dataspaces or ordinary ones,
never both, and only the managed ones have a fault context.
-/

namespace Rtcr

open RamSessionComponent While

/-! ## The search -/

/-- `Region_map_client::state().type == READY`. -/
def ManagedRegionMapInfo.ready (mrm : ManagedRegionMapInfo) : Bool := mrm.faults.isEmpty

/-- One turn of the loop of `_find_faulting_mrm_info`, whose cursor is
`ramds_info` with what comes behind it. -/
def findFaultingMrmInfo :
    List RamDataspaceInfo → Option ManagedRegionMapInfo ⊕ List RamDataspaceInfo
  | [] => .inl none
  | info :: infos =>
      match info.mrmInfo with
      -- `continue`, with the cursor where it was
      | none => .inr (info :: infos)
      | some mrm => if mrm.ready then .inr infos else .inl (some mrm)

/-- All entries are managed. -/
def AllManaged (infos : List RamDataspaceInfo) : Prop := ∀ info ∈ infos, info.mrmInfo.isSome = true

/-- `mrm` belongs to the first entry whose region map is not `READY`. -/
def FirstFaulting (infos : List RamDataspaceInfo) (mrm : ManagedRegionMapInfo) : Prop :=
  ∃ before info after, infos = before ++ info :: after ∧ info.mrmInfo = some mrm ∧
    mrm.ready = false ∧ ∀ i ∈ before, ∀ m, i.mrmInfo = some m → m.ready = true

theorem findFaultingMrmInfo_unmanaged {info : RamDataspaceInfo} {infos : List RamDataspaceInfo}
    (hm : info.mrmInfo = none) : findFaultingMrmInfo (info :: infos) = .inr (info :: infos) := by
  simp only [findFaultingMrmInfo, hm]

theorem findFaultingMrmInfo_managed {info : RamDataspaceInfo} {infos : List RamDataspaceInfo}
    {mrm : ManagedRegionMapInfo} (hm : info.mrmInfo = some mrm) :
    findFaultingMrmInfo (info :: infos) = if mrm.ready then .inr infos else .inl (some mrm) := by
  simp only [findFaultingMrmInfo, hm]

/-- What a turn does that does not end the search. -/
theorem findFaultingMrmInfo_goes_on {infos infos' : List RamDataspaceInfo}
    (h : findFaultingMrmInfo infos = .inr infos') :
    ∃ info rest, infos = info :: rest ∧
      (info.mrmInfo = none ∧ infos' = infos ∨
        ∃ mrm, info.mrmInfo = some mrm ∧ mrm.ready = true ∧ infos' = rest) := by
  cases infos with
  | nil => cases h
  | cons info infos =>
      refine ⟨info, infos, rfl, ?_⟩
      cases hm : info.mrmInfo with
      | none =>
          rw [findFaultingMrmInfo_unmanaged hm] at h
          exact .inl ⟨rfl, (Sum.inr.inj h).symm⟩
      | some mrm =>
          rw [findFaultingMrmInfo_managed hm] at h
          by_cases hr : mrm.ready = true
          · rw [if_pos hr] at h
            exact .inr ⟨mrm, rfl, hr, (Sum.inr.inj h).symm⟩
          · rw [if_neg hr] at h
            cases h

/-- Behind a managed entry the search goes on with a shorter list. -/
theorem AllManaged.goes_on {infos infos' : List RamDataspaceInfo} (hall : AllManaged infos)
    (h : findFaultingMrmInfo infos = .inr infos') :
    ∃ info mrm, infos = info :: infos' ∧ info.mrmInfo = some mrm ∧ mrm.ready = true := by
  obtain ⟨info, rest, rfl, ⟨hnone, -⟩ | ⟨mrm, hm, hr, rfl⟩⟩ := findFaultingMrmInfo_goes_on h
  · have hsome := hall info (by simp)
    rw [hnone] at hsome
    cases hsome
  · exact ⟨info, mrm, rfl, hm, hr⟩

/-- **Termination**: a search among managed entries ends. -/
theorem AllManaged.endsIn {infos : List RamDataspaceInfo} (hall : AllManaged infos) :
    ∃ result, EndsIn findFaultingMrmInfo infos result := by
  refine exists_endsIn (I := AllManaged) List.length (fun infos infos' hinfos hturn => ?_) hall
  obtain ⟨info, mrm, rfl, -, -⟩ := hinfos.goes_on hturn
  exact ⟨fun i hi => hinfos i (by simp [hi]), by simp⟩

theorem firstFaulting_cons_of_ready {info : RamDataspaceInfo} {infos : List RamDataspaceInfo}
    {mrm m : ManagedRegionMapInfo} (hm : info.mrmInfo = some mrm) (hr : mrm.ready = true) :
    FirstFaulting (info :: infos) m ↔ FirstFaulting infos m := by
  constructor
  · rintro ⟨before, i, after, hsplit, him, hfault, hready⟩
    cases before with
    | nil =>
        -- the first entry is `READY`
        cases hsplit
        obtain rfl : mrm = m := Option.some.inj (hm.symm.trans him)
        rw [hr] at hfault
        cases hfault
    | cons b before =>
        cases hsplit
        exact ⟨before, i, after, rfl, him, hfault, fun j hj => hready j (by simp [hj])⟩
  · rintro ⟨before, i, after, rfl, him, hfault, hready⟩
    refine ⟨info :: before, i, after, rfl, him, hfault, fun j hj m' hm' => ?_⟩
    rcases List.mem_cons.mp hj with rfl | hj
    · obtain rfl : mrm = m' := Option.some.inj (hm.symm.trans hm')
      exact hr
    · exact hready j hj m' hm'

/-- What a search says that has ended. -/
structure Finds (infos : List RamDataspaceInfo) (result : Option ManagedRegionMapInfo) : Prop where
  first : ∀ mrm, result = some mrm ↔ FirstFaulting infos mrm
  none : result = none ↔ ∀ info ∈ infos, ∀ mrm, info.mrmInfo = some mrm → mrm.ready = true

/-- **What it finds**, entry by entry from the end of the list. -/
theorem AllManaged.finds {infos : List RamDataspaceInfo} (hall : AllManaged infos)
    {result : Option ManagedRegionMapInfo} (h : EndsIn findFaultingMrmInfo infos result) :
    Finds infos result := by
  refine h.spec (I := AllManaged) hall (fun infos result hinfos hturn => ?_)
    fun infos infos' hinfos hturn => ?_
  · cases infos with
    | nil =>
        obtain rfl := Sum.inl.inj hturn
        refine ⟨fun mrm => ⟨by simp, ?_⟩, by simp⟩
        rintro ⟨before, i, after, hsplit, -⟩
        simp at hsplit
    | cons info infos =>
        obtain ⟨mrm, hm⟩ := Option.isSome_iff_exists.mp (hinfos info (by simp))
        rw [findFaultingMrmInfo_managed hm] at hturn
        by_cases hr : mrm.ready = true
        · rw [if_pos hr] at hturn
          cases hturn
        · rw [if_neg hr] at hturn
          obtain rfl := Sum.inl.inj hturn
          refine ⟨fun m => ⟨fun he => ?_, ?_⟩, ⟨by simp, fun hready => ?_⟩⟩
          · obtain rfl := Option.some.inj he
            exact ⟨[], info, infos, rfl, hm, by simpa using hr, by simp⟩
          · rintro ⟨before, i, after, hsplit, him, -, hready⟩
            cases before with
            | nil =>
                cases hsplit
                exact hm.symm.trans him
            | cons b before =>
                cases hsplit
                exact absurd (hready info (by simp) mrm hm) hr
          · exact absurd (hready info (by simp) mrm hm) hr
  · obtain ⟨info, mrm, rfl, hm, hr⟩ := hinfos.goes_on hturn
    refine ⟨fun i hi => hinfos i (by simp [hi]), fun result hrest => ⟨fun m => ?_, ?_⟩⟩
    · rw [hrest.first m, firstFaulting_cons_of_ready hm hr]
    · rw [hrest.none]
      constructor
      · intro hready i hi m him
        rcases List.mem_cons.mp hi with rfl | hi
        · obtain rfl : mrm = m := Option.some.inj (hm.symm.trans him)
          exact hr
        · exact hready i hi m him
      · exact fun hready i hi => hready i (by simp [hi])

/-- Where the cursor stands on an ordinary dataspace, it stays. -/
theorem not_endsIn_unmanaged {info : RamDataspaceInfo} {infos : List RamDataspaceInfo}
    {result : Option ManagedRegionMapInfo} (hm : info.mrmInfo = none) :
    ¬EndsIn findFaultingMrmInfo (info :: infos) result :=
  not_endsIn_of_stuck (findFaultingMrmInfo_unmanaged hm)

theorem endsIn_cons_of_ready {info : RamDataspaceInfo} {infos : List RamDataspaceInfo}
    {mrm : ManagedRegionMapInfo} {result : Option ManagedRegionMapInfo}
    (hm : info.mrmInfo = some mrm) (hr : mrm.ready = true) :
    EndsIn findFaultingMrmInfo (info :: infos) result ↔ EndsIn findFaultingMrmInfo infos result :=
  endsIn_of_turn (by rw [findFaultingMrmInfo_managed hm, if_pos hr])

/-- What the search comes back with, by what becomes of the handler that
called it. -/
def SearchedBy (infos : List RamDataspaceInfo) : Except FaultErr (List RamDataspaceInfo) → Prop
  | .ok infos' => ∃ before info after mrm addr waiting,
      infos = before ++ info :: after ∧ info.mrmInfo = some mrm ∧ mrm.faults = addr :: waiting ∧
      infos' = before ++ { info with mrmInfo := some (mrm.attachByAddr addr) } :: after ∧
      EndsIn findFaultingMrmInfo infos (some mrm)
  | .error .nullPointer => EndsIn findFaultingMrmInfo infos none
  | .error .endlessLoop => ∀ result, ¬EndsIn findFaultingMrmInfo infos result

/-- Behind a `READY` region map the handler does what it does to the
rest. -/
theorem SearchedBy.cons {info : RamDataspaceInfo} {infos : List RamDataspaceInfo}
    {mrm : ManagedRegionMapInfo} {r : Except FaultErr (List RamDataspaceInfo)}
    (hm : info.mrmInfo = some mrm) (hr : mrm.ready = true) (h : SearchedBy infos r) :
    SearchedBy (info :: infos) (r.map (info :: ·)) := by
  cases r with
  | ok infos' =>
      obtain ⟨before, i, after, m, addr, waiting, rfl, him, hw, rfl, hret⟩ := h
      exact ⟨info :: before, i, after, m, addr, waiting, rfl, him, hw, rfl,
        (endsIn_cons_of_ready hm hr).mpr hret⟩
  | error e =>
      cases e with
      | nullPointer =>
          have hret : EndsIn findFaultingMrmInfo infos none := h
          exact (endsIn_cons_of_ready hm hr).mpr hret
      | endlessLoop =>
          intro result hret
          exact h result ((endsIn_cons_of_ready hm hr).mp hret)

/-- **The handler and its search**: `_handle_fault` attaches in the region
map found, has a null pointer where none is found, and does not come back
where the search does not. -/
theorem handleFault_searchedBy (infos : List RamDataspaceInfo) :
    SearchedBy infos (handleFault infos) := by
  induction infos with
  | nil =>
      have hdone : findFaultingMrmInfo [] = .inl none := rfl
      exact (endsIn_of_done hdone).mpr rfl
  | cons info infos ih =>
      cases hm : info.mrmInfo with
      | none =>
          simp only [handleFault, hm]
          exact fun result => not_endsIn_unmanaged hm
      | some mrm =>
          cases hf : mrm.faults with
          | nil =>
              have hr : mrm.ready = true := by simp [ManagedRegionMapInfo.ready, hf]
              simp only [handleFault, hm, hf]
              exact ih.cons hm hr
          | cons addr waiting =>
              have hr : ¬mrm.ready = true := by simp [ManagedRegionMapInfo.ready, hf]
              simp only [handleFault, hm, hf]
              refine ⟨[], info, infos, mrm, addr, waiting, rfl, hm, hf, rfl, ?_⟩
              refine (endsIn_of_done ?_).mpr rfl
              rw [findFaultingMrmInfo_managed hm, if_neg hr]

/-! ## What a session does -/

inductive RamUse
  | alloc (size : Nat)
  | free (ds : Cap)
  | regionMaps
  | other

/-- A session from call to call. An `alloc` may fail, with an invalid
capability or with an exception. In between the region maps change (their
faults and what is attached in them), and the session gets quota. -/
inductive RamUseStep : RamSessionComponent × Core → RamUse → RamSessionComponent × Core → Prop
  | alloc {s s' : RamSessionComponent} {core core' : Core} {size : Nat}
      {cacheAttr : CacheAttribute} {bootstrapPhase : Bool} {cap : Cap}
      (h : s.alloc size cacheAttr bootstrapPhase core = some (cap, s', core')) :
      RamUseStep (s, core) (.alloc size) (s', core')
  | quotaExceeded {s : RamSessionComponent} {core : Core} {size : Nat}
      {cacheAttr : CacheAttribute} {bootstrapPhase : Bool}
      (h : s.alloc size cacheAttr bootstrapPhase core = none) :
      RamUseStep (s, core) (.alloc size) (s, core)
  | free (s : RamSessionComponent) (core : Core) (ds : Cap) :
      RamUseStep (s, core) (.free ds) (s.free ds, core)
  | regionMaps (s : RamSessionComponent) (core : Core)
      (f : ManagedRegionMapInfo → ManagedRegionMapInfo) :
      RamUseStep (s, core) .regionMaps (s.mapManaged f, core)
  | other {s s' : RamSessionComponent} (core core' : Core)
      (hlist : s'.parentState.ramDataspaces = s.parentState.ramDataspaces)
      (hg : s'.granularity = s.granularity) (hreceiver : s'.receiver = s.receiver) :
      RamUseStep (s, core) .other (s', core')

/-- **The invariant**: all entries are managed or none is, and fault
contexts exist with managed ones only. -/
structure OneKind (s : RamSessionComponent) : Prop where
  entries : ∀ info ∈ s.parentState.ramDataspaces,
    info.mrmInfo.isSome = decide (s.granularity > 0)
  contexts : s.granularity = 0 → s.receiver = []

theorem alloc_receiver {size : Nat} {cacheAttr : CacheAttribute} {boot : Bool}
    {s s' : RamSessionComponent} {core core' : Core} {cap : Cap}
    (h : s.alloc size cacheAttr boot core = some (cap, s', core')) (hg : s.granularity = 0) :
    s'.receiver = s.receiver := by
  unfold RamSessionComponent.alloc at h
  rw [if_neg (by omega)] at h
  split at h
  · cases h
  · rename_i ds s₁ core₁ halloc
    simp only [Option.some.injEq, Prod.mk.injEq] at h
    obtain ⟨-, rfl, -⟩ := h
    obtain ⟨-, -, rfl⟩ := parentAlloc_eq_some halloc
    rfl

/-- `free` dissolves the context of one region map at most. -/
theorem free_receiver (ds : Cap) (s : RamSessionComponent) :
    (s.free ds).receiver.Sublist s.receiver := by
  unfold RamSessionComponent.free
  split
  · rename_i info _
    unfold destroyRamdsInfo
    dsimp only
    rw [parentFree_eq]
    cases info.mrmInfo with
    | none => exact .refl _
    | some mrm =>
        show ((RamSessionComponent.destroyDesignated _ _).receiver).Sublist _
        obtain ⟨parentRam, mdAlloc, hdds⟩ := destroyDesignated_eq mrm.ddInfos _
        rw [hdds]
        exact List.erase_sublist
  · exact .refl _

theorem create_oneKind (g : Genode) (granularity : Nat) (boot : Bool) (args : String)
    (core : Core) : OneKind (RamSessionComponent.create g granularity boot args core).1 :=
  ⟨by simp [RamSessionComponent.create], fun _ => rfl⟩

/-- **One step** keeps a session to one kind of dataspace. -/
theorem RamUseStep.oneKind {x y : RamSessionComponent × Core} {a : RamUse} (h : RamUseStep x a y)
    (hx : OneKind x.1) : OneKind y.1 := by
  cases h with
  | alloc halloc =>
      obtain ⟨hg, hlist⟩ := alloc_served halloc
      constructor
      · show ∀ info ∈ _, _
        rw [hg]
        intro info hinfo
        rcases hlist with hsame | ⟨d, hcons, hd, -⟩
        · exact hx.entries info (hsame ▸ hinfo)
        · rw [hcons] at hinfo
          rcases List.mem_cons.mp hinfo with rfl | hinfo
          · exact hd.managed
          · exact hx.entries info hinfo
      · intro hzero
        rw [hg] at hzero
        exact (alloc_receiver halloc hzero).trans (hx.contexts hzero)
  | quotaExceeded _ => exact hx
  | free s core ds =>
      constructor
      · show ∀ info ∈ _, _
        rw [free_granularity]
        exact fun info hinfo => hx.entries info ((free_spec ds s).2.subset hinfo)
      · intro hzero
        rw [free_granularity] at hzero
        have hsub := free_receiver ds s
        rw [hx.contexts hzero] at hsub
        exact List.sublist_nil.mp hsub
  | regionMaps s core f =>
      refine ⟨fun info hinfo => ?_, hx.contexts⟩
      obtain ⟨d, hd, rfl⟩ := List.mem_map.mp hinfo
      show (d.mrmInfo.map f).isSome = _
      rw [Option.isSome_map]
      exact hx.entries d hd
  | other core core' hlist hg hreceiver =>
      constructor
      · show ∀ info ∈ _, _
        rw [hg, hlist]
        exact hx.entries
      · intro hzero
        rw [hg] at hzero
        exact hreceiver.trans (hx.contexts hzero)

/-- A session with a fault context has managed dataspaces only. -/
theorem OneKind.allManaged {s : RamSessionComponent} (h : OneKind s) {regionMap : Cap}
    (hcontext : regionMap ∈ s.receiver) : AllManaged s.parentState.ramDataspaces := by
  intro info hinfo
  have hg : s.granularity > 0 := by
    by_contra hzero
    rw [h.contexts (by omega)] at hcontext
    cases hcontext
  rw [h.entries info hinfo]
  exact decide_eq_true hg

/-- **The search ends and finds the first**: at any point of a session's
life at which its fault handler can receive a signal, all entries are
managed, and the search comes back with the first region map that is not
`READY`, if there is one. -/
theorem findFaultingMrmInfo_of_run (g : Genode) (granularity : Nat) (boot : Bool) (args : String)
    (core₀ : Core) {s : RamSessionComponent} {core : Core}
    (hrun : Run RamUseStep (fun _ _ => True)
      (RamSessionComponent.create g granularity boot args core₀) (s, core))
    {regionMap : Cap} (hcontext : regionMap ∈ s.receiver) :
    AllManaged s.parentState.ramDataspaces ∧
      ∃ result, EndsIn findFaultingMrmInfo s.parentState.ramDataspaces result ∧
        Finds s.parentState.ramDataspaces result := by
  have hkind : OneKind s := hrun.invariant (I := fun x => OneKind x.1)
    (fun x a y hx _ hstep => hstep.oneKind hx) (create_oneKind g granularity boot args core₀)
  have hall := hkind.allManaged hcontext
  obtain ⟨result, hret⟩ := hall.endsIn
  exact ⟨hall, result, hret, hall.finds hret⟩

/-! ## Two pages, the older one faulting -/

namespace SearchSample

def genode : Genode := ⟨fun _ => 0, fun args _ => args, fun _ => 0⟩

def new : RamSessionComponent × Core :=
  RamSessionComponent.create genode 1 false "" Core.small

/-- The new session with quota for both. -/
def rich : RamSessionComponent :=
  { new.1 with parentRam := { new.1.parentRam with quota := 0x4000 } }

def older : Cap × RamSessionComponent × Core :=
  (rich.alloc 4096 .cached false new.2).get (by decide)

def newer : Cap × RamSessionComponent × Core :=
  (older.2.1.alloc 4096 .cached false older.2.2).get (by decide)

def faulting : RamSessionComponent :=
  newer.2.1.mapManaged fun mrm =>
    if mrm.regionMapCap = ⟨101⟩ then { mrm with faults := [0] } else mrm

theorem used : Run RamUseStep (fun _ _ => True) new (faulting, newer.2.2) := by
  have holder : rich.alloc 4096 .cached false new.2 = some older := (Option.some_get _).symm
  have hnewer : older.2.1.alloc 4096 .cached false older.2.2 = some newer :=
    (Option.some_get _).symm
  have hrich : Run RamUseStep (fun _ _ => True) new (rich, new.2) :=
    (Run.refl new).tail (a := .other) trivial (.other new.2 new.2 rfl rfl rfl)
  have halloc := (hrich.tail (a := .alloc 4096) trivial (.alloc holder)).tail (a := .alloc 4096)
    trivial (.alloc hnewer)
  exact halloc.tail (a := .regionMaps) trivial (.regionMaps _ _ _)

end SearchSample

open SearchSample in
theorem findFaultingMrmInfo_of_run_pages :
    (⟨101⟩ : Cap) ∈ faulting.receiver ∧ AllManaged faulting.parentState.ramDataspaces ∧
      ∃ result, EndsIn findFaultingMrmInfo faulting.parentState.ramDataspaces result ∧
        Finds faulting.parentState.ramDataspaces result := by
  have hcontext : (⟨101⟩ : Cap) ∈ faulting.receiver := by decide
  exact ⟨hcontext, findFaultingMrmInfo_of_run genode 1 false "" Core.small used hcontext⟩

end Rtcr
