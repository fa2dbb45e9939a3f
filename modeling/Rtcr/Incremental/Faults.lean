import Rtcr.Incremental.Ledger
import Rtcr.Incremental.Marks

/-!
# Incremental.Faults — page faults, their signals, and the handler

A fault sends one signal, a run of the handler attaches one designated
dataspace, and that may resolve many faults. So there are never fewer
signals than faults, and there may be more. The handler relies on a
faulting region map whenever it is called; a signal too many makes it
use one that it has not found.
-/

namespace Rtcr

open RamSessionComponent

/-! ## Faulting region maps -/

/-- The addresses at which threads wait in the dataspace. -/
def RamDataspaceInfo.faults (info : RamDataspaceInfo) : List Nat :=
  match info.mrmInfo with
  | some mrm => mrm.faults
  | none => []

/-- All threads that wait. -/
def faultsOf (infos : List RamDataspaceInfo) : List Nat := infos.flatMap (·.faults)

/-- Some region map is not `READY`. -/
def Faulting (infos : List RamDataspaceInfo) : Prop := ∃ info ∈ infos, info.faults ≠ []

/-- One call of `_handle_fault` has attached designated dataspace `dd`,
which contains the address of a pending fault, and changed nothing else
but to let the threads go on that waited for it. -/
def Resolves (infos infos' : List RamDataspaceInfo) : Prop :=
  ∃ l₁ info l₂ mrm addr dds₁ dd dds₂, infos = l₁ ++ info :: l₂ ∧ info.mrmInfo = some mrm ∧
    addr ∈ mrm.faults ∧ mrm.ddInfos = dds₁ ++ dd :: dds₂ ∧ dd.contains addr = true ∧
    infos' = l₁ ++ { info with
      mrmInfo := some (ManagedRegionMapInfo.resumeFaulters { mrm with
        ddInfos := dds₁ ++ { dd with mapped := true, attached := true } :: dds₂ }) } :: l₂

/-- A call of `_handle_fault` does no harm: it resolves a fault, or there
is none and nothing changes. -/
def HandlesWell (infos : List RamDataspaceInfo) : Prop :=
  ∃ infos', handleFault infos = .ok infos' ∧
    (Resolves infos infos' ∨ ¬Faulting infos ∧ infos' = infos)

/-! ## Steps -/

/-- The session's dataspaces, the signals on their way to the handler
(named by the region map of their context) and the calls of
`_handle_fault` that are left of the delivery at work. -/
structure FaultState where
  infos : List RamDataspaceInfo
  pending : List Cap
  num : Nat

inductive FaultEvent
  | fault (regionMap : Cap) (addr : Nat)
  | spurious (regionMap : Cap)
  | deliver (regionMap : Cap) (num : Nat)
  | handleFault
  | detach

/-- Detach the designated dataspaces that `p` selects. -/
def detachSelected (p : DesignatedDataspaceInfo → Bool) (info : RamDataspaceInfo) :
    RamDataspaceInfo :=
  { info with mrmInfo := info.mrmInfo.map fun mrm =>
      { mrm with ddInfos := mrm.ddInfos.map fun dd => if p dd then dd.detach else dd } }

inductive FaultStep : FaultState → FaultEvent → FaultState → Prop
  /-- A thread touches a page that is detached; in which order core lists
  the waiting threads is left open. -/
  | fault {l₁ l₂ : List RamDataspaceInfo} {info : RamDataspaceInfo} {mrm : ManagedRegionMapInfo}
      {dd : DesignatedDataspaceInfo} {addr : Nat} {faults : List Nat} {pending : List Cap}
      {num : Nat} (hm : info.mrmInfo = some mrm) (hdd : dd ∈ mrm.ddInfos)
      (haddr : dd.contains addr = true) (hoff : dd.mapped = false)
      (hfaults : faults.Perm (addr :: mrm.faults)) :
      FaultStep ⟨l₁ ++ info :: l₂, pending, num⟩ (.fault mrm.regionMapCap addr)
        ⟨l₁ ++ { info with mrmInfo := some { mrm with faults := faults } } :: l₂,
          mrm.regionMapCap :: pending, num⟩
  | spurious (infos : List RamDataspaceInfo) (pending : List Cap) (num : Nat) (rm : Cap) :
      FaultStep ⟨infos, pending, num⟩ (.spurious rm) ⟨infos, rm :: pending, num⟩
  /-- `wait_for_signal` returns; signals of one context may be merged. -/
  | deliver {infos : List RamDataspaceInfo} {pending rest : List Cap} {rm : Cap} {num : Nat}
      (h : pending.Perm (List.replicate num rm ++ rest)) :
      FaultStep ⟨infos, pending, 0⟩ (.deliver rm num) ⟨infos, rest, num⟩
  | handleFault {infos infos' : List RamDataspaceInfo} {pending : List Cap} {num : Nat}
      (h : handleFault infos = .ok infos') :
      FaultStep ⟨infos, pending, num + 1⟩ .handleFault ⟨infos', pending, num⟩
  /-- The end of an incremental checkpoint. -/
  | detach (infos : List RamDataspaceInfo) (pending : List Cap) (num : Nat)
      (p : DesignatedDataspaceInfo → Bool) :
      FaultStep ⟨infos, pending, num⟩ .detach ⟨infos.map (detachSelected p), pending, num⟩

/-- `_handle_fault` is called only while some region map is faulting. -/
def CalledForFault (st : FaultState) : FaultEvent → Prop
  | .handleFault => Faulting st.infos
  | _ => True

/-- What is asked of the handler in a state: its next call does no harm,
and when all signals are consumed nobody waits. -/
structure FaultsServed (st : FaultState) : Prop where
  call : 0 < st.num → HandlesWell st.infos
  quiet : st.num = 0 → st.pending = [] → ¬Faulting st.infos

/-! ## What `alloc` builds -/

/-- Higher addresses come first, and ranges do not overlap. -/
def Descending (dds : List DesignatedDataspaceInfo) : Prop :=
  dds.Pairwise fun x y => y.relAddr + y.size ≤ x.relAddr

/-- An entry of a session with or without managed dataspaces. -/
structure ServedEntry (managed : Bool) (info : RamDataspaceInfo) : Prop where
  managed : info.mrmInfo.isSome = managed
  sorted : Descending info.dds
  marks : ∀ dd ∈ info.dds, dd.mapped = dd.attached
  /-- who waits, waits for a page that is not there -/
  blocked : ∀ addr ∈ info.faults, ∃ dd ∈ info.dds, dd.contains addr = true ∧ dd.mapped = false

/-- The ranges `alloc` computes ascend. -/
theorem designatedRanges_ascending (dsSize size : Nat) :
    (designatedRanges dsSize size).Pairwise fun p q => p.1 + p.2 ≤ q.1 := by
  unfold designatedRanges
  rw [List.pairwise_append]
  refine ⟨?_, ?_, ?_⟩
  · rw [List.pairwise_map]
    refine List.pairwise_lt_range.imp fun {i j} hij => ?_
    have hmul : dsSize * (i + 1) ≤ dsSize * j := Nat.mul_le_mul_left _ hij
    rw [Nat.mul_add, Nat.mul_one] at hmul
    exact hmul
  · split
    · exact List.pairwise_singleton ..
    · exact .nil
  · intro p hp q hq
    obtain ⟨i, hi, rfl⟩ := List.mem_map.mp hp
    split at hq
    · obtain rfl := List.mem_singleton.mp hq
      have hmul : dsSize * (i + 1) ≤ dsSize * (size / dsSize) :=
        Nat.mul_le_mul_left _ (List.mem_range.mp hi)
      rw [Nat.mul_add, Nat.mul_one, Nat.mul_comm dsSize (size / dsSize)] at hmul
      exact hmul
    · cases hq

theorem allocDesignated_frame {ranges : List (Nat × Nat)} {mrm mrm' : ManagedRegionMapInfo}
    {s s' : RamSessionComponent} {core core' : Core} {ok : Bool}
    (h : allocDesignated ranges mrm s core = (ok, mrm', s', core')) :
    mrm'.faults = mrm.faults ∧ s'.granularity = s.granularity := by
  induction ranges generalizing mrm s core with
  | nil =>
      simp only [allocDesignated, Prod.mk.injEq] at h
      obtain ⟨-, rfl, rfl, -⟩ := h
      exact ⟨rfl, rfl⟩
  | cons p ranges ih =>
      unfold allocDesignated at h
      split at h
      · simp only [Prod.mk.injEq] at h
        obtain ⟨-, rfl, rfl, -⟩ := h
        exact ⟨rfl, rfl⟩
      · rename_i cap s₁ core₁ halloc
        obtain ⟨hfaults, hg⟩ := ih h
        obtain ⟨-, -, rfl⟩ := parentAlloc_eq_some halloc
        exact ⟨hfaults, hg⟩

/-- Every entry `alloc` adds is one the handler can serve, with nobody
waiting. -/
theorem alloc_served {size : Nat} {cacheAttr : CacheAttribute} {boot : Bool}
    {s s' : RamSessionComponent} {core core' : Core} {cap : Cap}
    (h : s.alloc size cacheAttr boot core = some (cap, s', core')) :
    s'.granularity = s.granularity ∧
      (s'.parentState.ramDataspaces = s.parentState.ramDataspaces ∨
        ∃ d, s'.parentState.ramDataspaces = d :: s.parentState.ramDataspaces ∧
          ServedEntry (decide (s.granularity > 0)) d ∧ d.faults = []) := by
  unfold RamSessionComponent.alloc at h
  by_cases hg : s.granularity > 0
  · rw [if_pos hg] at h
    unfold allocManaged at h
    dsimp only at h
    split at h
    · -- a designated dataspace could not be made: nothing is listed
      rename_i hloop
      simp only [Option.some.injEq, Prod.mk.injEq] at h
      obtain ⟨-, rfl, -⟩ := h
      exact ⟨(allocDesignated_frame hloop).2, .inl (allocDesignated_spec hloop).1.dataspaces⟩
    · rename_i mrm s₁ core₁ hloop
      obtain ⟨hfaults, hgran⟩ := allocDesignated_frame hloop
      obtain ⟨hsame, -, hnews⟩ := allocDesignated_spec hloop
      obtain ⟨news, hdds, hnew⟩ := hnews rfl
      simp only [Option.some.injEq, Prod.mk.injEq] at h
      obtain ⟨-, rfl, -⟩ := h
      refine ⟨hgran, .inr ⟨_, congrArg (_ :: ·) hsame.dataspaces, ?_, hfaults⟩⟩
      rw [List.append_nil] at hdds
      refine ⟨by simp [hg], ?_, fun dd hdd => ?_, fun addr haddr => ?_⟩
      · -- the loop inserts at the head, at rising addresses
        change Descending mrm.ddInfos
        have hasc := designatedRanges_ascending (pageSize * s.granularity) size
        rw [← List.pairwise_reverse, ← hnew.ranges, List.pairwise_map] at hasc
        rw [hdds]
        exact hasc
      · change dd ∈ mrm.ddInfos at hdd
        obtain ⟨hatt, hmap⟩ := hnew.attached dd (hdds ▸ hdd)
        rw [hatt, hmap]
      · change addr ∈ mrm.faults at haddr
        rw [hfaults] at haddr
        cases haddr
  · rw [if_neg hg] at h
    split at h
    · cases h
    · rename_i ds s₁ core₁ halloc
      have hsame := (parentAlloc_spec halloc).2.1
      simp only [Option.some.injEq, Prod.mk.injEq] at h
      obtain ⟨-, rfl, -⟩ := h
      refine ⟨?_, .inr ⟨_, congrArg (_ :: ·) hsame.dataspaces, ?_, rfl⟩⟩
      · obtain ⟨-, -, rfl⟩ := parentAlloc_eq_some halloc
        rfl
      · exact ⟨by simp [hg], .nil, by simp [RamDataspaceInfo.dds], by simp [RamDataspaceInfo.faults]⟩

theorem free_granularity (ds : Cap) (s : RamSessionComponent) :
    (s.free ds).granularity = s.granularity := by
  have hdds : ∀ dds (s : RamSessionComponent),
      (s.destroyDesignated dds).granularity = s.granularity := by
    intro dds s
    obtain ⟨parentRam, mdAlloc, h⟩ := destroyDesignated_eq dds s
    rw [h]
  unfold RamSessionComponent.free
  split
  · rename_i info _
    unfold destroyRamdsInfo
    dsimp only
    rw [parentFree_eq]
    cases info.mrmInfo with
    | none => rfl
    | some mrm => exact hdds mrm.ddInfos _
  · rfl

/-- What the handler finds in a session after any calls. -/
theorem served_of_calls {s s' : RamSessionComponent} {core core' : Core} (hs : s.Created)
    (hrun : Run RamCallStep (fun _ _ => True) (s, core) (s', core')) :
    ∃ managed, ∀ info ∈ s'.parentState.ramDataspaces, ServedEntry managed info ∧
      info.faults = [] := by
  have hinv := hrun.invariant
    (I := fun x => ∀ info ∈ x.1.parentState.ramDataspaces,
      ServedEntry (decide (x.1.granularity > 0)) info ∧ info.faults = [])
    (fun x a y hx _ hstep => ?_) (by simp [hs.empty])
  · exact ⟨_, hinv⟩
  · cases hstep with
    | alloc halloc _ =>
        obtain ⟨hg, hsame | ⟨d, hcons, hd⟩⟩ := alloc_served halloc
        · rw [hg, hsame]
          exact hx
        · rw [hg, hcons]
          intro info hinfo
          rcases List.mem_cons.mp hinfo with rfl | hinfo
          · exact hd
          · exact hx info hinfo
    | free s core ds =>
        rw [free_granularity]
        exact fun info hinfo => hx info ((free_spec ds s).2.subset hinfo)
    | other _ => exact hx

/-! ## One call of the handler -/

/-- Of the designated dataspaces whose range test succeeds, the one that
contains the address comes first. -/
theorem modifyFirst_covers {dds : List DesignatedDataspaceInfo} (h : Descending dds)
    {dd : DesignatedDataspaceInfo} (hdd : dd ∈ dds) {addr : Nat} (haddr : dd.contains addr = true)
    (f : DesignatedDataspaceInfo → DesignatedDataspaceInfo) :
    ∃ dds₁ dds₂, dds = dds₁ ++ dd :: dds₂ ∧
      List.modifyFirst (·.covers addr) f dds = dds₁ ++ f dd :: dds₂ := by
  simp only [DesignatedDataspaceInfo.contains, Bool.and_eq_true, decide_eq_true_eq] at haddr
  induction dds with
  | nil => cases hdd
  | cons x dds ih =>
      obtain ⟨hx, hrest⟩ := List.pairwise_cons.mp h
      rcases List.mem_cons.mp hdd with rfl | hmem
      · refine ⟨[], dds, rfl, ?_⟩
        have hcov : dd.covers addr = true := by
          simp only [DesignatedDataspaceInfo.covers, Bool.and_eq_true, decide_eq_true_eq]
          omega
        simp [List.modifyFirst, hcov]
      · have hlow := hx dd hmem
        have hcov : ¬x.covers addr = true := by
          simp only [DesignatedDataspaceInfo.covers, Bool.and_eq_true, decide_eq_true_eq]
          omega
        obtain ⟨dds₁, dds₂, hsplit, hmod⟩ := ih hrest hmem
        exact ⟨x :: dds₁, dds₂, by rw [hsplit]; rfl, by simp [List.modifyFirst, hcov, hmod]⟩

theorem faulting_cons {info : RamDataspaceInfo} {infos : List RamDataspaceInfo} :
    Faulting (info :: infos) ↔ info.faults ≠ [] ∨ Faulting infos := by
  simp [Faulting]

/-- Where a region map is faulting, the handler resolves a fault. -/
theorem handleFault_resolves {infos : List RamDataspaceInfo}
    (h : ∀ info ∈ infos, ServedEntry true info) (hf : Faulting infos) :
    ∃ infos', handleFault infos = .ok infos' ∧ Resolves infos infos' := by
  induction infos with
  | nil =>
      obtain ⟨info, hinfo, -⟩ := hf
      cases hinfo
  | cons info infos ih =>
      have hinfo := h info (by simp)
      obtain ⟨mrm, hm⟩ := Option.isSome_iff_exists.mp hinfo.managed
      have hfaults : info.faults = mrm.faults := by simp [RamDataspaceInfo.faults, hm]
      have hdds : info.dds = mrm.ddInfos := by simp [RamDataspaceInfo.dds, hm]
      cases hw : mrm.faults with
      | nil =>
          -- the search goes on behind a `READY` region map
          rw [faulting_cons, hfaults, hw] at hf
          obtain ⟨infos', hok, hres⟩ := ih (fun i hi => h i (by simp [hi])) (hf.resolve_left (by simp))
          obtain ⟨l₁, i, l₂, m, addr, dds₁, dd, dds₂, rfl, him, haddr, hsplit, hcon, rfl⟩ := hres
          refine ⟨info :: _, by simp only [handleFault, hm, hw, hok, Except.map]; rfl, ?_⟩
          exact ⟨info :: l₁, i, l₂, m, addr, dds₁, dd, dds₂, rfl, him, haddr, hsplit, hcon, rfl⟩
      | cons addr waiting =>
          obtain ⟨dd, hdd, hcon, hoff⟩ := hinfo.blocked addr (by rw [hfaults, hw]; simp)
          have hatt : dd.attached = false := by rw [← hinfo.marks dd hdd, hoff]
          obtain ⟨dds₁, dds₂, hsplit, hmod⟩ := modifyFirst_covers hinfo.sorted hdd hcon
            DesignatedDataspaceInfo.attach
          rw [hdds] at hsplit hmod
          refine ⟨{ info with mrmInfo := some (mrm.attachByAddr addr) } :: infos,
            by simp only [handleFault, hm, hw], ?_⟩
          refine ⟨[], info, infos, mrm, addr, dds₁, dd, dds₂, rfl, hm, by simp [hw], hsplit, hcon, ?_⟩
          simp only [ManagedRegionMapInfo.attachByAddr, hmod, DesignatedDataspaceInfo.attach, hatt]
          rfl

/-- Where no region map is faulting, the handler does not come back in
good order. -/
theorem handleFault_ne_ok {infos : List RamDataspaceInfo} (hf : ¬Faulting infos)
    (infos' : List RamDataspaceInfo) : handleFault infos ≠ .ok infos' := by
  induction infos generalizing infos' with
  | nil =>
      intro h
      cases h
  | cons info infos ih =>
      rw [faulting_cons, not_or, not_not] at hf
      intro h
      unfold handleFault at h
      split at h
      · cases h
      · rename_i mrm hm
        have hfaults : mrm.faults = [] := by simpa [RamDataspaceInfo.faults, hm] using hf.1
        rw [hfaults] at h
        cases hrec : handleFault infos with
        | error e => simp [hrec, Except.map] at h
        | ok rest => exact ih hf.2 rest hrec

theorem not_faulting_of_unmanaged {infos : List RamDataspaceInfo}
    (h : ∀ info ∈ infos, ServedEntry false info) : ¬Faulting infos := by
  rintro ⟨info, hinfo, hf⟩
  have hm : info.mrmInfo = none := by simpa using (h info hinfo).managed
  exact hf (by simp [RamDataspaceInfo.faults, hm])

/-- **One call**: it does no harm exactly where some region map is
faulting. -/
theorem handlesWell_iff {managed : Bool} {infos : List RamDataspaceInfo}
    (h : ∀ info ∈ infos, ServedEntry managed info) : HandlesWell infos ↔ Faulting infos := by
  constructor
  · rintro ⟨infos', hok, -⟩
    by_contra hf
    exact handleFault_ne_ok hf infos' hok
  · intro hf
    cases managed with
    | true =>
        obtain ⟨infos', hok, hres⟩ := handleFault_resolves h hf
        exact ⟨infos', hok, .inl hres⟩
    | false => exact absurd hf (not_faulting_of_unmanaged h)

/-! ## What the steps keep -/

/-- The invariant: the entries are as `alloc` built them but for marks
and faults, and no fault is without a signal. -/
structure FaultInv (managed : Bool) (st : FaultState) : Prop where
  entries : ∀ info ∈ st.infos, ServedEntry managed info
  signals : (faultsOf st.infos).length ≤ st.pending.length + st.num

theorem faultsOf_append (l₁ l₂ : List RamDataspaceInfo) :
    faultsOf (l₁ ++ l₂) = faultsOf l₁ ++ faultsOf l₂ := List.flatMap_append

theorem faultsOf_cons (info : RamDataspaceInfo) (infos : List RamDataspaceInfo) :
    faultsOf (info :: infos) = info.faults ++ faultsOf infos := List.flatMap_cons

theorem not_faulting_iff {infos : List RamDataspaceInfo} :
    ¬Faulting infos ↔ faultsOf infos = [] := by
  simp [Faulting, faultsOf]

theorem descending_map {f : DesignatedDataspaceInfo → DesignatedDataspaceInfo}
    (hf : ∀ dd, SamePlace dd (f dd)) {dds : List DesignatedDataspaceInfo} (h : Descending dds) :
    Descending (dds.map f) := by
  unfold Descending
  rw [List.pairwise_map]
  refine h.imp fun {x y} hxy => ?_
  rw [(hf x).relAddr, (hf y).relAddr, (hf y).size]
  exact hxy

theorem contains_samePlace {dd dd' : DesignatedDataspaceInfo} (h : SamePlace dd dd') (addr : Nat) :
    dd'.contains addr = dd.contains addr := by
  simp only [DesignatedDataspaceInfo.contains, h.relAddr, h.size]

/-- A resolved fault leaves fewer faults, and nobody waits for a page
that is there. -/
theorem Resolves.entries {managed : Bool} {infos infos' : List RamDataspaceInfo}
    (h : Resolves infos infos') (hs : ∀ info ∈ infos, ServedEntry managed info) :
    (∀ info ∈ infos', ServedEntry managed info) ∧
      (faultsOf infos').length < (faultsOf infos).length := by
  obtain ⟨l₁, info, l₂, mrm, addr, dds₁, dd, dds₂, rfl, hm, haddr, hsplit, hcon, rfl⟩ := h
  have hinfo := hs info (by simp)
  have hdds : info.dds = dds₁ ++ dd :: dds₂ := by simp [RamDataspaceInfo.dds, hm, hsplit]
  have hfaults : info.faults = mrm.faults := by simp [RamDataspaceInfo.faults, hm]
  set dd' : DesignatedDataspaceInfo := { dd with mapped := true, attached := true } with hdd'
  set mrm' := ManagedRegionMapInfo.resumeFaulters { mrm with ddInfos := dds₁ ++ dd' :: dds₂ }
    with hmrm'
  have hnew : mrm'.faults = mrm.faults.filter fun a =>
      !(dds₁ ++ dd' :: dds₂).any fun x => x.mapped && x.contains a := rfl
  constructor
  · intro i hi
    rcases List.mem_append.mp hi with hi | hi
    · exact hs i (by simp [hi])
    rcases List.mem_cons.mp hi with rfl | hi
    swap
    · exact hs i (by simp [hi])
    refine ⟨?_, ?_, ?_, ?_⟩
    · rw [← hinfo.managed, hm]
      rfl
    · have hsorted := hinfo.sorted
      rw [hdds] at hsorted
      change Descending (dds₁ ++ dd' :: dds₂)
      simp only [Descending, List.pairwise_append, List.pairwise_cons, List.mem_cons,
        forall_eq_or_imp] at hsorted ⊢
      exact hsorted
    · intro x hx
      change x ∈ dds₁ ++ dd' :: dds₂ at hx
      have hmarks := hinfo.marks
      rw [hdds] at hmarks
      rcases List.mem_append.mp hx with hx | hx
      · exact hmarks x (by simp [hx])
      · rcases List.mem_cons.mp hx with rfl | hx
        · rfl
        · exact hmarks x (by simp [hx])
    · intro a ha
      change a ∈ mrm'.faults at ha
      change ∃ x ∈ dds₁ ++ dd' :: dds₂, x.contains a = true ∧ x.mapped = false
      rw [hnew] at ha
      obtain ⟨hwait, habsent⟩ := List.mem_filter.mp ha
      obtain ⟨x, hx, hxcon, -⟩ := hinfo.blocked a (hfaults ▸ hwait)
      -- the place of `x` is still there, and the page is not
      have hplace : ∃ y ∈ dds₁ ++ dd' :: dds₂, y.contains a = true := by
        rw [hdds] at hx
        rcases List.mem_append.mp hx with hx | hx
        · exact ⟨x, by simp [hx], hxcon⟩
        · rcases List.mem_cons.mp hx with rfl | hx
          · exact ⟨dd', by simp, hxcon⟩
          · exact ⟨x, by simp [hx], hxcon⟩
      obtain ⟨y, hy, hycon⟩ := hplace
      refine ⟨y, hy, hycon, ?_⟩
      simp only [Bool.not_eq_true', List.any_eq_false] at habsent
      simpa [hycon] using habsent y hy
  · have hless : mrm'.faults.length < mrm.faults.length := by
      rw [hnew]
      refine List.length_filter_lt_length_iff_exists.mpr ⟨addr, haddr, ?_⟩
      have hthere : (dd'.mapped && dd'.contains addr) = true := hcon
      have hany : ((dds₁ ++ dd' :: dds₂).any fun x => x.mapped && x.contains addr) = true :=
        List.any_eq_true.mpr ⟨dd', by simp, hthere⟩
      simp [hany]
    simp only [faultsOf_append, faultsOf_cons, List.length_append, hfaults]
    change (faultsOf l₁).length + (mrm'.faults.length + (faultsOf l₂).length) < _
    omega

/-- One thread more waits for a page that is not there. -/
theorem ServedEntry.fault {managed : Bool} {info : RamDataspaceInfo} (h : ServedEntry managed info)
    {mrm : ManagedRegionMapInfo} (hm : info.mrmInfo = some mrm) {dd : DesignatedDataspaceInfo}
    (hdd : dd ∈ mrm.ddInfos) {addr : Nat} (haddr : dd.contains addr = true)
    (hoff : dd.mapped = false) {faults : List Nat} (hfaults : faults.Perm (addr :: mrm.faults)) :
    ServedEntry managed { info with mrmInfo := some { mrm with faults := faults } } := by
  have hdds : info.dds = mrm.ddInfos := by simp [RamDataspaceInfo.dds, hm]
  have hold : info.faults = mrm.faults := by simp [RamDataspaceInfo.faults, hm]
  refine ⟨?_, ?_, ?_, ?_⟩
  · rw [← h.managed, hm]
    rfl
  · exact hdds ▸ h.sorted
  · exact hdds ▸ h.marks
  · intro a ha
    change a ∈ faults at ha
    change ∃ x ∈ mrm.ddInfos, x.contains a = true ∧ x.mapped = false
    rcases List.mem_cons.mp (hfaults.mem_iff.mp ha) with rfl | ha
    · exact ⟨dd, hdd, haddr, hoff⟩
    · exact hdds ▸ h.blocked a (hold ▸ ha)

/-- Detaching keeps everybody waiting. -/
theorem ServedEntry.detach {managed : Bool} {info : RamDataspaceInfo}
    (h : ServedEntry managed info) (p : DesignatedDataspaceInfo → Bool) :
    ServedEntry managed (detachSelected p info) ∧
      (detachSelected p info).faults = info.faults := by
  set f : DesignatedDataspaceInfo → DesignatedDataspaceInfo := fun dd =>
    if p dd then dd.detach else dd with hf
  have hplace : ∀ dd, SamePlace dd (f dd) := by
    intro dd
    by_cases hp : p dd = true
    · rw [hf]
      simpa only [hp, if_true] using samePlace_detach dd
    · rw [hf]
      simpa only [if_neg hp] using (Evolved.refl dd).toSamePlace
  have hdds : (detachSelected p info).dds = info.dds.map f := by
    unfold RamDataspaceInfo.dds detachSelected
    cases info.mrmInfo <;> rfl
  have hfaults : (detachSelected p info).faults = info.faults := by
    unfold RamDataspaceInfo.faults detachSelected
    cases info.mrmInfo <;> rfl
  refine ⟨⟨?_, ?_, ?_, ?_⟩, hfaults⟩
  · rw [← h.managed]
    exact Option.isSome_map
  · rw [hdds]
    exact descending_map hplace h.sorted
  · rw [hdds]
    intro dd' hdd'
    obtain ⟨dd, hdd, rfl⟩ := List.mem_map.mp hdd'
    exact (hplace dd).marks (h.marks dd hdd)
  · rw [hdds, hfaults]
    intro addr haddr
    obtain ⟨dd, hdd, hcon, hoff⟩ := h.blocked addr haddr
    refine ⟨f dd, List.mem_map_of_mem hdd, ?_, ?_⟩
    · rw [contains_samePlace (hplace dd), hcon]
    · have hatt : dd.attached = false := by rw [← h.marks dd hdd, hoff]
      by_cases hp : p dd = true
      · simp [hf, hp, DesignatedDataspaceInfo.detach, hatt, hoff]
      · simp [hf, hp, hoff]

/-- **One step**: no fault is without a signal. -/
theorem FaultStep.inv {managed : Bool} {st st' : FaultState} {e : FaultEvent}
    (h : FaultStep st e st') (hok : CalledForFault st e) (hst : FaultInv managed st) :
    FaultInv managed st' := by
  cases h with
  | fault hm hdd haddr hoff hfaults =>
      rename_i l₁ l₂ info mrm dd addr faults pending num
      have hsig := hst.signals
      have hlen := hfaults.length_eq
      have hold : info.faults = mrm.faults := by simp [RamDataspaceInfo.faults, hm]
      constructor
      · intro i hi
        rcases List.mem_append.mp hi with hi | hi
        · exact hst.entries i (by simp [hi])
        · rcases List.mem_cons.mp hi with rfl | hi
          · exact (hst.entries info (by simp)).fault hm hdd haddr hoff hfaults
          · exact hst.entries i (by simp [hi])
      · simp only [faultsOf_append, faultsOf_cons, List.length_append, List.length_cons, hold]
          at hsig hlen ⊢
        change (faultsOf l₁).length + (faults.length + (faultsOf l₂).length) ≤ _
        omega
  | spurious infos pending num rm =>
      refine ⟨hst.entries, ?_⟩
      have hsig := hst.signals
      simp only [List.length_cons] at hsig ⊢
      omega
  | deliver hperm =>
      refine ⟨hst.entries, ?_⟩
      have hsig := hst.signals
      have hlen := hperm.length_eq
      simp only [List.length_append, List.length_replicate] at hsig hlen ⊢
      omega
  | handleFault hrun =>
      rename_i infos infos' pending num
      cases managed with
      | false => exact absurd hok (not_faulting_of_unmanaged hst.entries)
      | true =>
          -- one signal is taken, and at least one fault is gone
          obtain ⟨infos'', hrun', hres⟩ := handleFault_resolves hst.entries hok
          obtain rfl : infos'' = infos' := Except.ok.inj (hrun'.symm.trans hrun)
          obtain ⟨hentries, hless⟩ := hres.entries hst.entries
          have hsig := hst.signals
          refine ⟨hentries, ?_⟩
          change (faultsOf infos'').length < (faultsOf infos).length at hless
          change (faultsOf infos'').length ≤ pending.length + num
          change (faultsOf infos).length ≤ pending.length + (num + 1) at hsig
          omega
  | detach infos pending num p =>
      constructor
      · intro i hi
        obtain ⟨info, hinfo, rfl⟩ := List.mem_map.mp hi
        exact ((hst.entries info hinfo).detach p).1
      · have hsame : faultsOf (infos.map (detachSelected p)) = faultsOf infos := by
          unfold faultsOf
          rw [List.flatMap_map]
          refine List.flatMap_congr fun info hinfo => ?_
          exact ((hst.entries info hinfo).detach p).2
        rw [hsame]
        exact hst.signals

/-- **In every run in which the handler is called for faults only, no
fault is lost**: when all signals are consumed nobody waits. And at every
point a call does no harm exactly where some region map is faulting. -/
theorem faults_served_of_run {s s' : RamSessionComponent} {core core' : Core} {st : FaultState}
    (hs : s.Created) (hcalls : Run RamCallStep (fun _ _ => True) (s, core) (s', core'))
    (hrun : Run FaultStep CalledForFault ⟨s'.parentState.ramDataspaces, [], 0⟩ st) :
    (HandlesWell st.infos ↔ Faulting st.infos) ∧
      (st.num = 0 → st.pending = [] → ¬Faulting st.infos) := by
  obtain ⟨managed, hserved⟩ := served_of_calls hs hcalls
  have hstart : FaultInv managed ⟨s'.parentState.ramDataspaces, [], 0⟩ := by
    refine ⟨fun info hinfo => (hserved info hinfo).1, ?_⟩
    have hnone : faultsOf s'.parentState.ramDataspaces = [] :=
      List.flatMap_eq_nil_iff.mpr fun info hinfo => (hserved info hinfo).2
    rw [hnone]
    exact Nat.zero_le _
  have hinv := hrun.invariant (fun x e y hx hok hstep => hstep.inv hok hx) hstart
  refine ⟨handlesWell_iff hinv.entries, fun hnum hpending => ?_⟩
  have hsig := hinv.signals
  rw [hnum, hpending] at hsig
  rw [not_faulting_iff]
  exact List.eq_nil_of_length_eq_zero (Nat.le_zero.mp hsig)

/-! ## Two threads, one page -/

namespace FaultSample

/-- A managed dataspace of one page. -/
def entry (attached : Bool) (faults : List Nat) : RamDataspaceInfo where
  cap := ⟨101⟩
  size := 4096
  cached := .cached
  bootstrapped := false
  timestamp := 1
  mrmInfo := some ⟨⟨100⟩, [⟨⟨102⟩, 0, 4096, attached, attached⟩], faults⟩

/-- The session after the allocation of the page. -/
theorem session :
    let s := RamSessionComponent.bare 30 true 1 []
    ∃ s' core', Run RamCallStep (fun _ _ => True) (s, Core.small) (s', core') ∧
      s'.parentState.ramDataspaces = [entry true []] := by
  intro s
  let r := (s.alloc 4096 .cached false Core.small).get (by decide)
  have halloc : s.alloc 4096 .cached false Core.small = some r := (Option.some_get _).symm
  have hrun : Run RamCallStep (fun _ _ => True) (s, Core.small) (r.2.1, r.2.2) :=
    (Run.refl _).tail (a := .alloc 4096) trivial (.alloc halloc (by decide))
  exact ⟨r.2.1, r.2.2, hrun, by decide⟩

theorem detach : FaultStep ⟨[entry true []], [], 0⟩ .detach ⟨[entry false []], [], 0⟩ :=
  .detach _ _ _ fun _ => true

theorem fault (faults : List Nat) (pending : List Cap) {addr : Nat} (h : addr < 4096) :
    FaultStep ⟨[entry false faults], pending, 0⟩ (.fault ⟨100⟩ addr)
      ⟨[entry false (addr :: faults)], ⟨100⟩ :: pending, 0⟩ :=
  @FaultStep.fault [] [] (entry false faults) ⟨⟨100⟩, [⟨⟨102⟩, 0, 4096, false, false⟩], faults⟩
    ⟨⟨102⟩, 0, 4096, false, false⟩ addr _ _ _ rfl (List.mem_singleton.mpr rfl)
    (by simp [DesignatedDataspaceInfo.contains, h]) rfl (.refl _)

theorem handled (pending : List Cap) (num : Nat) :
    FaultStep ⟨[entry false [4, 0]], pending, num + 1⟩ .handleFault
      ⟨[entry true []], pending, num⟩ :=
  .handleFault (by rfl)

/-- Two threads wait for the page, and both signals are delivered. -/
theorem delivered {P : FaultState → FaultEvent → Prop} (hP : ∀ st e, e ≠ .handleFault → P st e)
    (num : Nat) (pending : List Cap)
    (hsig : [⟨100⟩, ⟨100⟩].Perm (List.replicate num (⟨100⟩ : Cap) ++ pending)) :
    Run FaultStep P ⟨[entry true []], [], 0⟩ ⟨[entry false [4, 0]], pending, num⟩ := by
  have h₁ : Run FaultStep P ⟨[entry true []], [], 0⟩ ⟨[entry false []], [], 0⟩ :=
    (Run.refl _).tail (hP _ _ (by simp)) detach
  have h₂ := h₁.tail (hP _ _ (by simp)) (fault [] [] (show 0 < 4096 by decide))
  have h₃ := h₂.tail (hP _ _ (by simp)) (fault [0] _ (show 4 < 4096 by decide))
  exact h₃.tail (hP _ _ (by simp)) (.deliver hsig)

end FaultSample

open FaultSample in
/-- One signal is still on its way when the fault it was sent for has
been resolved. -/
theorem faults_served_of_run_page :
    ∃ st, Run FaultStep CalledForFault ⟨[entry true []], [], 0⟩ st ∧
      (HandlesWell st.infos ↔ Faulting st.infos) ∧
      (st.num = 0 → st.pending = [] → ¬Faulting st.infos) := by
  obtain ⟨s', core', hcalls, hlist⟩ := session
  have hok : ∀ st e, e ≠ .handleFault → CalledForFault st e := by
    intro st e he
    cases e with
    | handleFault => exact absurd rfl he
    | _ => trivial
  have hsig : [⟨100⟩, ⟨100⟩].Perm (List.replicate 1 (⟨100⟩ : Cap) ++ [⟨100⟩]) := .refl _
  have hfaulting : CalledForFault ⟨[entry false [4, 0]], [⟨100⟩], 1⟩ .handleFault :=
    ⟨_, List.mem_singleton.mpr rfl, by simp [RamDataspaceInfo.faults, entry]⟩
  have hrun := (delivered hok 1 [⟨100⟩] hsig).tail hfaulting (handled _ 0)
  have hcreated : (RamSessionComponent.bare 30 true 1 []).Created := ⟨rfl, rfl, rfl, rfl⟩
  exact ⟨_, hrun, faults_served_of_run hcreated hcalls (by rw [hlist]; exact hrun)⟩

open FaultSample in
/-- Both signals in one delivery: the second call finds no faulting
region map and uses it all the same. -/
theorem surplus_signal_harmful :
    ¬∀ (s s' : RamSessionComponent) (core core' : Core) (st : FaultState), s.Created →
      Run RamCallStep (fun _ _ => True) (s, core) (s', core') →
      Run FaultStep (fun _ _ => True) ⟨s'.parentState.ramDataspaces, [], 0⟩ st →
      FaultsServed st := by
  intro hall
  obtain ⟨s', core', hcalls, hlist⟩ := session
  have hsig : [⟨100⟩, ⟨100⟩].Perm (List.replicate 2 (⟨100⟩ : Cap) ++ []) := .refl _
  have hrun := (delivered (P := fun _ _ => True) (fun _ _ _ => trivial) 2 [] hsig).tail
    (a := .handleFault) trivial (handled _ 1)
  have hcreated : (RamSessionComponent.bare 30 true 1 []).Created := ⟨rfl, rfl, rfl, rfl⟩
  obtain ⟨infos', herr, -⟩ := (hall _ _ _ _ _ hcreated hcalls (by rw [hlist]; exact hrun)).call
    (by decide)
  have hnull : handleFault [entry true []] = .error .nullPointer := rfl
  rw [hnull] at herr
  cases herr

end Rtcr
