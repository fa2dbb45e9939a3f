import Rtcr.Target.Memory

/-!
# Target.MemoryRequests — what a request does to RAM sessions and memory

`RamChange` lists what can become of the RAM sessions, `Step.ramChange`
and `Step.grown` say that a request does nothing else. A restoration is
left out: it writes the stored contents.
-/

namespace Rtcr

open ByteStore Fallible Pieces Reconcile
open List (Forall₂)

/-- The RAM sessions before and after a request. -/
inductive RamChange (core core' : Core) :
    List RamSessionComponent → ChildRequest → List RamSessionComponent → Prop
  | steady {ram ram' : List RamSessionComponent} {request : ChildRequest}
      (h : request.changesDataspaces = false) (hram : RamRel Evolved ram ram') :
      RamChange core core' ram request ram'
  | opened {ram : List RamSessionComponent} {s : RamSessionComponent} {request : ChildRequest}
      (h : request.changesDataspaces = false) (hs : s.parentState.ramDataspaces = []) :
      RamChange core core' ram request (s :: ram)
  | allocFails {ram ram' : List RamSessionComponent} (cap : Cap) (size : Nat)
      (cacheAttr : CacheAttribute) (hram : RamRel Evolved ram ram') :
      RamChange core core' ram (.ram cap (.alloc size cacheAttr)) ram'
  | alloc {s s' : RamSessionComponent} {d : RamDataspaceInfo} {size : Nat}
      (before after : List RamSessionComponent) (cacheAttr : CacheAttribute)
      (hcap : s'.cap = s.cap)
      (hds : s'.parentState.ramDataspaces = d :: s.parentState.ramDataspaces)
      (hnew : NewDataspace core.nextBadge core'.nextBadge d) (hsize : d.size = size)
      (hzero : ∀ p ∈ d.pieces, ∀ i, core'.bytes p.name i = 0) :
      RamChange core core' (before ++ s :: after) (.ram s.cap (.alloc size cacheAttr))
        (before ++ s' :: after)
  | freeNothing {ram : List RamSessionComponent} {cap : Cap} (ds : Cap)
      (hnone : ∀ s ∈ ram, s.cap ≠ cap) : RamChange core core' ram (.ram cap (.free ds)) ram
  | free {s s' : RamSessionComponent} (before after : List RamSessionComponent) (ds : Cap)
      (hcap : s'.cap = s.cap)
      (hds : s'.parentState.ramDataspaces =
        s.parentState.ramDataspaces.eraseP (·.cap.localName == ds.localName)) :
      RamChange core core' (before ++ s :: after) (.ram s.cap (.free ds)) (before ++ s' :: after)
  | close (ram : List RamSessionComponent) (cap : Cap) :
      RamChange core core' ram (.close .ram cap) (ram.eraseP (·.cap == cap))
  | closeRefused (ram : List RamSessionComponent) (cap : Cap) :
      RamChange core core' ram (.close .ram cap) ram

/-! ## RAM sessions -/

section Ram

variable {boot : Bool} {core core' : Core} {s s' : RamSessionComponent} {cap : Cap}

/-- What the allocation loop adds is zero. -/
theorem allocDesignated_zero {ranges : List (Nat × Nat)} {mrm mrm' : ManagedRegionMapInfo}
    {complete : Bool} (hmrm : ∀ dd ∈ mrm.ddInfos, dd.cap.localName < core.nextBadge ∧
      ∀ i, core.bytes dd.cap.localName i = 0)
    (h : RamSessionComponent.allocDesignated ranges mrm s core = (complete, mrm', s', core')) :
    ∀ dd ∈ mrm'.ddInfos, ∀ i, core'.bytes dd.cap.localName i = 0 := by
  induction ranges generalizing mrm s core with
  | nil =>
      cases h
      exact fun dd hdd => (hmrm dd hdd).2
  | cons p ranges ih =>
      unfold RamSessionComponent.allocDesignated at h
      split at h
      · cases h
        exact fun dd hdd => (hmrm dd hdd).2
      · rename_i halloc
        obtain ⟨rfl, -, rfl⟩ := parentAlloc_spec halloc
        refine ih (fun dd hdd => ?_) h
        rcases List.mem_cons.mp hdd with rfl | hdd
        · exact ⟨Nat.lt_succ_self _, fun i => fill_self _ _ _ i⟩
        · obtain ⟨hlt, hzero⟩ := hmrm dd hdd
          exact ⟨hlt.trans (Nat.lt_succ_self _), fun i => (fill_ne hlt.ne _ _ i).trans (hzero i)⟩

/-- **Allocation**: what is new has the size asked for and is zero. -/
theorem alloc_zero {size : Nat} {cacheAttr : CacheAttribute}
    (h : s.alloc size cacheAttr boot core = some (cap, s', core')) {d : RamDataspaceInfo}
    (hds : s'.parentState.ramDataspaces = d :: s.parentState.ramDataspaces) :
    d.size = size ∧ ∀ p ∈ d.pieces, ∀ i, core'.bytes p.name i = 0 := by
  unfold RamSessionComponent.alloc at h
  split at h
  · dsimp only [RamSessionComponent.allocManaged] at h
    split at h
    · rename_i hloop
      cases h
      obtain ⟨-, hstate, -⟩ := allocDesignated_keeps hloop
      rw [hstate] at hds
      exact absurd (congrArg List.length hds) (by simp [RamSessionComponent.newMd])
    · rename_i hloop
      cases h
      obtain ⟨-, hstate, -⟩ := allocDesignated_keeps hloop
      obtain ⟨rfl, -⟩ := List.cons.inj hds
      refine ⟨rfl, fun p hp i => ?_⟩
      obtain ⟨dd, hdd, rfl⟩ := List.mem_map.mp hp
      exact allocDesignated_zero (fun _ hdd => absurd hdd List.not_mem_nil) hloop dd hdd i
  · split at h
    · cases h
    · rename_i halloc
      obtain ⟨rfl, rfl, rfl⟩ := parentAlloc_eq_some halloc
      cases h
      obtain ⟨rfl, -⟩ := List.cons.inj hds
      refine ⟨rfl, fun p hp i => ?_⟩
      obtain rfl := List.mem_singleton.mp hp
      exact fill_self _ _ _ i

theorem RamSessionComponent.free_dataspaces (ds : Cap) (s : RamSessionComponent) :
    (s.free ds).parentState.ramDataspaces =
      s.parentState.ramDataspaces.eraseP (·.cap.localName == ds.localName) := by
  unfold free
  split
  · rename_i info hfind
    have hinfo : info.cap.localName = ds.localName := (findByBadge_some hfind).2
    rw [(destroyRamdsInfo_sameLists info s).dataspaces, hinfo]
    rfl
  · rename_i hnone
    rw [List.eraseP_of_forall_not]
    intro d hd hdd
    exact findByBadge_eq_none.mp hnone (List.mem_map.mpr ⟨d, hd, by simpa using hdd⟩)

theorem RamSessionComponent.faultAt_rel (ds : Cap) (addr : Nat) (s : RamSessionComponent) :
    SessionRel Evolved s (s.faultAt ds addr) := by
  refine ⟨rfl, List.forall₂_modifyFirst (fun d _ => .refl Evolved.refl d) fun d _ => ?_⟩
  apply DataspaceRel.mapManaged
  intro mrm _
  split <;> exact List.forall₂_same.mpr fun dd _ => .refl dd

/-- Steps of one session that keep its dataspaces. -/
theorem RamSessionComponent.serve_rel (request : RamRequest) (core : Core)
    (halloc : ∀ size cacheAttr, request ≠ .alloc size cacheAttr) (hfree : ∀ ds, request ≠ .free ds)
    (s : RamSessionComponent) :
    SessionRel Evolved s (s.serve boot request core).1 ∧ (s.serve boot request core).2 = core := by
  have hrefl : SessionRel Evolved s s := .refl Evolved.refl s
  cases request with
  | refAccount cap => exact ⟨⟨rfl, hrefl.dataspaces⟩, rfl⟩
  | quota quota => exact ⟨⟨rfl, hrefl.dataspaces⟩, rfl⟩
  | alloc size cacheAttr => exact absurd rfl (halloc size cacheAttr)
  | free ds => exact absurd rfl (hfree ds)
  | fault ds addr => exact ⟨s.faultAt_rel ds addr, rfl⟩
  | handleFault =>
      unfold serve
      dsimp only
      split
      · rename_i infos hrun
        exact ⟨⟨rfl, handleFault_evolved hrun⟩, rfl⟩
      · exact ⟨hrefl, rfl⟩

theorem RamSessionComponent.serve_grown (request : RamRequest) (s : RamSessionComponent)
    (core : Core) : Grown core (s.serve boot request core).2 := by
  cases request with
  | alloc size cacheAttr =>
      unfold serve
      dsimp only
      cases halloc : s.alloc size cacheAttr boot core with
      | none => exact .refl _
      | some x => exact (alloc_spec halloc).2.1
  | handleFault =>
      unfold serve
      dsimp only
      split <;> exact .refl _
  | _ => exact .refl _

/-- **A request to a RAM session**. -/
theorem RamChange.serve (before after : List RamSessionComponent) (s : RamSessionComponent)
    (request : RamRequest) (core : Core) :
    RamChange core (s.serve boot request core).2 (before ++ s :: after) (.ram s.cap request)
      (before ++ (s.serve boot request core).1 :: after) := by
  have hrefl : ∀ ram, RamRel Evolved ram ram := RamRel.refl Evolved.refl
  cases request with
  | alloc size cacheAttr =>
      cases halloc : s.alloc size cacheAttr boot core with
      | none =>
          simp only [RamSessionComponent.serve, halloc, Option.map_none, Option.getD_none]
          exact .allocFails s.cap size cacheAttr (hrefl _)
      | some x =>
          obtain ⟨cap, s', core'⟩ := x
          obtain ⟨hcap, -, hsame | ⟨d, hds, hnew⟩⟩ := alloc_spec halloc
          · simp only [RamSessionComponent.serve, halloc, Option.map_some, Option.getD_some]
            refine .allocFails s.cap size cacheAttr (List.rel_append (hrefl before) (.cons ?_
              (hrefl after)))
            refine ⟨hcap, ?_⟩
            rw [hsame]
            exact (SessionRel.refl Evolved.refl s).dataspaces
          · simp only [RamSessionComponent.serve, halloc, Option.map_some, Option.getD_some]
            obtain ⟨hsize, hzero⟩ := alloc_zero halloc hds
            exact .alloc before after cacheAttr hcap hds hnew hsize hzero
  | free ds => exact .free before after ds (free_spec ds s).1 (s.free_dataspaces ds)
  | _ =>
      refine .steady rfl (List.rel_append (hrefl before) (.cons ?_ (hrefl after)))
      exact (s.serve_rel _ core (by simp) (by simp)).1

end Ram

/-! ## Lists -/

/-- The object that is asked, if there is one. -/
theorem serveAt_cases {α : Type} (cap : α → Cap) (c : Cap) (f : α → Core → α × Core) (l : List α)
    (core : Core) : ((∀ x ∈ l, cap x ≠ c) ∧ MonitoredChild.serveAt cap c f l core = (l, core)) ∨
      ∃ before x after, l = before ++ x :: after ∧ cap x = c ∧
        MonitoredChild.serveAt cap c f l core =
          (before ++ (f x core).1 :: after, (f x core).2) := by
  unfold MonitoredChild.serveAt
  induction l with
  | nil => exact .inl ⟨by simp, rfl⟩
  | cons x l ih =>
      unfold updateFirst
      by_cases hx : cap x = c
      · rw [if_pos (by simpa using hx)]
        exact .inr ⟨[], x, l, rfl, hx, rfl⟩
      · rw [if_neg (by simpa using hx)]
        rcases ih with ⟨hnone, hl⟩ | ⟨before, y, after, rfl, hy, hl⟩
        · rw [hl]
          exact .inl ⟨List.forall_mem_cons.mpr ⟨hx, hnone⟩, rfl⟩
        · rw [hl]
          exact .inr ⟨x :: before, y, after, rfl, hy, rfl⟩

theorem RamChange.serveAt {boot : Bool} (cap : Cap) (request : RamRequest)
    (ram : List RamSessionComponent) (core : Core) :
    RamChange core
      (MonitoredChild.serveAt (·.cap) cap (RamSessionComponent.serve boot request) ram core).2 ram
      (.ram cap request)
      (MonitoredChild.serveAt (·.cap) cap (RamSessionComponent.serve boot request) ram core).1 := by
  have hrefl : ∀ ram, RamRel Evolved ram ram := RamRel.refl Evolved.refl
  rcases serveAt_cases (·.cap) cap (RamSessionComponent.serve boot request) ram core with
    ⟨hnone, hl⟩ | ⟨before, s, after, rfl, rfl, hl⟩
  · rw [hl]
    cases request with
    | alloc size cacheAttr => exact .allocFails cap size cacheAttr (hrefl _)
    | free ds => exact .freeNothing ds hnone
    | _ => exact .steady rfl (hrefl _)
  · rw [hl]
    exact .serve before after s request core

theorem serveAt_grown {α : Type} {cap : α → Cap} (c : Cap) {f : α → Core → α × Core}
    (hf : ∀ x core, Grown core (f x core).2) (l : List α) (core : Core) :
    Grown core (MonitoredChild.serveAt cap c f l core).2 := by
  rcases serveAt_cases cap c f l core with ⟨-, hl⟩ | ⟨_, x, _, -, -, hl⟩
  · rw [hl]
    exact .refl core
  · rw [hl]
    exact hf x core

/-! ## Requests -/

namespace MonitoredChild

variable {g : Genode} {m m' : MonitoredChild}

def ram (m : MonitoredChild) : List RamSessionComponent := m.child.services.ramRoot

/-- Without a state to restore a session request opens a session at
most. -/
theorem openSession_created {name args : String} (h : m.openSession g name args = .ok m')
    (hnone : m.restorer = none) : ∃ m₁ : MonitoredChild, m₁.core = m.core ∧ m₁.ram = m.ram ∧
      (m' = m₁ ∨ ∃ service, m' = m₁.createSession g args service) := by
  obtain ⟨m₁, hhook, hcases⟩ := openSession_cases h
  have hend : (m.endBootstrap name).core = m.core ∧ (m.endBootstrap name).ram = m.ram ∧
      (m.endBootstrap name).restorer = none := by
    unfold endBootstrap
    split <;> exact ⟨rfl, rfl, hnone⟩
  have hm₁ : m₁ = m.endBootstrap name := by
    unfold hook at hhook
    rw [hend.2.2] at hhook
    split at hhook <;> exact (Except.ok.inj hhook).symm
  have hlookup : (m₁.lookup name).2.core = m.core ∧ (m₁.lookup name).2.ram = m.ram := by
    rw [hm₁, ← hend.1, ← hend.2.1]
    unfold lookup
    split
    · exact ⟨rfl, rfl⟩
    · unfold findCustom
      split_ifs <;> exact ⟨rfl, rfl⟩
  refine ⟨_, hlookup.1, hlookup.2, ?_⟩
  rcases hcases with ⟨service, -, rfl⟩ | ⟨-, -, rfl⟩
  · exact .inr ⟨service, rfl⟩
  · exact .inl rfl

theorem createSession_grown (g : Genode) (args : String) (service : CustomService)
    (m : MonitoredChild) : Grown m.core (m.createSession g args service).core := by
  have hnew : ∀ {core' : Core}, m.core.nextBadge ≤ core'.nextBadge →
      core'.bytes = m.core.bytes → Grown m.core core' := fun hle hbytes => ⟨hle, fun b _ => by rw [hbytes]⟩
  cases service with
  | pd => exact hnew (PdSessionComponent.create_gains true m.core g args).le rfl
  | _ => exact hnew (Nat.le_succ _) rfl

/-- **A request** leaves the memory alone that there is. -/
theorem Step.grown {request : ChildRequest} (h : m.Step g request m') (hnone : m.restorer = none)
    (helse : ∀ a b c bytes, request ≠ .elsewhere a b c bytes) : Grown m.core m'.core := by
  unfold Step at h
  cases request with
  | session name args =>
      obtain ⟨m₁, hcore, -, rfl | ⟨service, rfl⟩⟩ := openSession_created h hnone
      · rw [hcore]
        exact .refl _
      · rw [← hcore]
        exact createSession_grown ..
  | upgrade service cap args =>
      cases h
      cases service <;> exact .refl _
  | close service cap =>
      cases h
      unfold close
      cases service <;> dsimp only <;> try split
      all_goals exact .refl _
  | pd cap request =>
      cases h
      apply serveAt_grown
      intro pd core
      cases request <;> first | exact .refl _ | exact ⟨Nat.le_succ _, fun _ _ => rfl⟩
  | cpu cap request =>
      cases h
      apply serveAt_grown
      intro s core
      cases request with
      | createThread pdSessionCap name affinity weight utcb =>
          unfold CpuSessionComponent.serve
          dsimp only
          split
          · exact grown_newCap core
          · exact .refl _
      | _ => exact .refl _
  | ram cap request =>
      cases h
      exact serveAt_grown _ (fun s core => s.serve_grown request core) _ _
  | rm cap request =>
      unfold serve at h
      dsimp only at h
      split at h
      · cases h
        apply serveAt_grown
        intro s core
        cases request with
        | create size => exact (grown_newCap core).trans (grown_newCap _)
        | regionMap cap request => exact .refl _
      · cases h
        exact .refl _
  | timer cap request =>
      cases h
      exact .refl _
  | capMapInfo addr =>
      cases h
      exact .refl _
  | elsewhere a b c bytes => exact absurd rfl (helse a b c bytes)

/-- **What becomes of the RAM sessions**. -/
theorem Step.ramChange {request : ChildRequest} (h : m.Step g request m')
    (hnone : m.restorer = none) : RamChange m.core m'.core m.ram request m'.ram := by
  have hrefl : ∀ ram, RamRel Evolved ram ram := RamRel.refl Evolved.refl
  unfold Step at h
  cases request with
  | session name args =>
      obtain ⟨m₁, -, hram, rfl | ⟨service, rfl⟩⟩ := openSession_created h hnone
      · rw [hram]
        exact .steady rfl (hrefl _)
      · rw [← hram]
        cases service with
        | ram => exact .opened rfl rfl
        | _ => exact .steady rfl (hrefl _)
  | upgrade service cap args =>
      cases h
      cases service with
      | ram =>
          apply RamChange.steady rfl
          exact List.forall₂_modifyFirst (fun s _ => .refl Evolved.refl s) fun s _ =>
            ⟨rfl, (SessionRel.refl Evolved.refl s).dataspaces⟩
      | _ => exact .steady rfl (hrefl _)
  | close service cap =>
      cases h
      cases service with
      | ram =>
          unfold close
          dsimp only
          split
          · exact .closeRefused _ cap
          · exact .close _ cap
      | pd =>
          apply RamChange.steady rfl
          unfold close
          dsimp only
          split <;> exact hrefl _
      | cpu =>
          apply RamChange.steady rfl
          unfold close
          dsimp only
          split <;> exact hrefl _
      | _ => exact .steady rfl (hrefl _)
  | ram cap request =>
      cases h
      exact .serveAt cap request _ _
  | rm cap request =>
      unfold serve at h
      dsimp only at h
      split at h <;> cases h <;> exact .steady rfl (hrefl _)
  | _ =>
      cases h
      exact .steady rfl (hrefl _)

end MonitoredChild

end Rtcr
