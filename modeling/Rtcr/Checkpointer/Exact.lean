import Rtcr.Checkpointer.Steps

/-!
# Checkpointer.Exact — the record lists are the child's object lists

`Exact old new s`: in every list of the checkpoint, at every level of
nesting, the badges are the badges of the child's list, each once, and a
record that was stored before under its badge is the same record with
the same copy dataspace.
-/

namespace Rtcr.Checkpointer

open Reconcile

variable {χ τ υ : Type}

/-- The same record as before, if there was one. -/
def Kept (addr : τ → RecordAddr) (old : Option τ) (new : τ) (_ : χ) : Prop :=
  ∀ t, old = some t → addr new = addr t

/-- A nested list as it was before: empty for a new record. -/
def before (sub : τ → List υ) (old : Option τ) : List υ :=
  match old with
  | some t => sub t
  | none => []

/-- The same record with the same copy dataspace. -/
def KeptRamDataspace (old : Option StoredRamDataspaceInfo) (new : StoredRamDataspaceInfo)
    (_ : RamDataspaceInfo) : Prop :=
  ∀ t, old = some t → new.addr = t.addr ∧ new.memoryContent = t.memoryContent

/-- A RAM session record and its dataspaces. -/
structure ExactRamSession (old : Option StoredRamSessionInfo) (new : StoredRamSessionInfo)
    (c : RamSessionComponent) : Prop where
  kept : Kept (·.addr) old new c
  dataspaces : Mirror (·.badge) (·.cap.localName) KeptRamDataspace
    (before (·.storedRamdsInfos) old) new.storedRamdsInfos c.parentState.ramDataspaces

/-- A PD session record, its lists and its region maps. -/
structure ExactPdSession (old : Option StoredPdSessionInfo) (new : StoredPdSessionInfo)
    (c : PdSessionComponent) : Prop where
  kept : Kept (·.addr) old new c
  nativeCaps : Mirror (·.badge) (·.cap.localName) (Kept (·.addr))
    (before (·.storedNativeCapInfos) old) new.storedNativeCapInfos c.parentState.nativeCaps
  sources : Mirror (·.badge) (·.cap.localName) (Kept (·.addr))
    (before (·.storedSourceInfos) old) new.storedSourceInfos c.parentState.signalSources
  contexts : Mirror (·.badge) (·.cap.localName) (Kept (·.addr))
    (before (·.storedContextInfos) old) new.storedContextInfos c.parentState.signalContexts
  /-- the region maps are part of the record -/
  areas : SameAreas new c

/-- A CPU session record and its threads. -/
structure ExactCpuSession (old : Option StoredCpuSessionInfo) (new : StoredCpuSessionInfo)
    (c : CpuSessionComponent) : Prop where
  kept : Kept (·.addr) old new c
  threads : Mirror (·.badge) (·.cap.localName) (Kept (·.addr))
    (before (·.storedCpuThreadInfos) old) new.storedCpuThreadInfos c.parentState.cpuThreads

/-- An RM session record and its region maps. -/
structure ExactRmSession (old : Option StoredRmSessionInfo) (new : StoredRmSessionInfo)
    (c : RmSessionComponent) : Prop where
  kept : Kept (·.addr) old new c
  regionMaps : Mirror (·.badge) (·.cap.localName) (Kept (·.addr))
    (before (·.storedRegionMapInfos) old) new.storedRegionMapInfos c.parentState.regionMaps

/-- **The records mirror the objects**, list by list. -/
structure Exact (old new : TargetState) (s : CustomServices) : Prop where
  ram : Mirror (·.badge) (·.cap.localName) ExactRamSession old.ramSessions new.ramSessions
    s.ramRoot
  pd : Mirror (·.badge) (·.cap.localName) ExactPdSession old.pdSessions new.pdSessions s.pdRoot
  cpu : Mirror (·.badge) (·.cap.localName) ExactCpuSession old.cpuSessions new.cpuSessions
    s.cpuRoot
  rm : Mirror (·.badge) (·.cap.localName) ExactRmSession old.rmSessions new.rmSessions
    (sessionInfos s.rmRoot)
  log : Mirror (·.badge) (·.cap.localName) (Kept (·.addr)) old.logSessions new.logSessions
    (sessionInfos s.logRoot)
  timer : Mirror (·.badge) (·.cap.localName) (Kept (·.addr)) old.timerSessions new.timerSessions
    (sessionInfos s.timerRoot)

/-! ## From the steps -/

/-- An update that stays in place keeps the record. -/
theorem Step.kept {addr : τ → RecordAddr} {fresh : χ → τ → Prop} {updated : τ → χ → τ → Prop}
    (hu : ∀ t c t', updated t c t' → addr t' = addr t) {old : Option τ} {new : τ} {c : χ}
    (h : Step fresh updated old new c) : Kept addr old new c := by
  rintro t rfl
  obtain ⟨base, rfl, hupd⟩ := h
  exact hu _ c new hupd

theorem Base.before {fresh : τ → Prop} (sub : τ → List υ) (hfresh : ∀ t, fresh t → sub t = [])
    {old : Option τ} {base : τ} (h : Base fresh old base) : sub base = before sub old := by
  cases old with
  | none => exact hfresh base h
  | some t =>
      obtain rfl := h
      rfl

theorem exactRamSession_of_step {capMap : List BadgeKcapInfo}
    {old : Option StoredRamSessionInfo} {new : StoredRamSessionInfo} {c : RamSessionComponent}
    (h : Step (FreshRamSession capMap) (UpdatedRamSession capMap) old new c) :
    ExactRamSession old new c := by
  refine ⟨h.kept fun t c t' hu => by rw [hu.1], ?_⟩
  obtain ⟨base, hbase, hupd⟩ := h
  rw [← hbase.before (·.storedRamdsInfos) (by rintro t ⟨n, rfl⟩; rfl)]
  refine hupd.2.imp fun o t _ d _ hstep => ?_
  rintro u rfl
  obtain ⟨b, rfl, rfl⟩ := hstep
  exact ⟨rfl, rfl⟩

theorem exactPdSession_of_step {capMap : List BadgeKcapInfo}
    {old : Option StoredPdSessionInfo} {new : StoredPdSessionInfo} {c : PdSessionComponent}
    (h : Step (FreshPdSession capMap) (UpdatedPdSession capMap) old new c) :
    ExactPdSession old new c := by
  have hkept : Kept (·.addr) old new c :=
    h.kept fun t c t' hu => congrArg (·.addr) hu.session
  obtain ⟨base, hbase, hupd⟩ := h
  have hcaps := hbase.before (·.storedNativeCapInfos) (by rintro t ⟨n, rfl⟩; rfl)
  have hsources := hbase.before (·.storedSourceInfos) (by rintro t ⟨n, rfl⟩; rfl)
  have hcontexts := hbase.before (·.storedContextInfos) (by rintro t ⟨n, rfl⟩; rfl)
  refine ⟨hkept, ?_, ?_, ?_, ?_⟩
  · rw [← hcaps]
    exact hupd.nativeCaps.imp fun _ _ _ _ _ hs => hs.kept fun _ _ _ hu => by rw [hu]
  · rw [← hsources]
    exact hupd.sources.imp fun _ _ _ _ _ hs => hs.kept fun _ _ _ hu => by rw [hu]
  · rw [← hcontexts]
    exact hupd.contexts.imp fun _ _ _ _ _ hs => hs.kept fun _ _ _ hu => by rw [hu]
  · rw [SameAreas, ← hupd.areas]
    simp only [storedAreas, List.map_cons, List.map_nil]
    rw [hupd.addressSpace, hupd.stackArea, hupd.linkerArea]

theorem exactCpuSession_of_step {capMap : List BadgeKcapInfo}
    {old : Option StoredCpuSessionInfo} {new : StoredCpuSessionInfo} {c : CpuSessionComponent}
    (h : Step (FreshCpuSession capMap) (UpdatedCpuSession capMap) old new c) :
    ExactCpuSession old new c := by
  refine ⟨h.kept fun t c t' hu => by rw [hu.session], ?_⟩
  obtain ⟨base, hbase, hupd⟩ := h
  rw [← hbase.before (·.storedCpuThreadInfos) (by rintro t ⟨n, rfl⟩; rfl)]
  exact hupd.threads.imp fun _ _ _ _ _ hs => hs.kept fun _ _ _ hu => by rw [hu]; rfl

theorem exactRmSession_of_step {capMap : List BadgeKcapInfo}
    {old : Option StoredRmSessionInfo} {new : StoredRmSessionInfo} {c : RmSessionComponent}
    (h : Step (FreshRmSession capMap) (UpdatedRmSession capMap) old new c) :
    ExactRmSession old new c := by
  refine ⟨h.kept fun t c t' hu => by rw [hu.session], ?_⟩
  obtain ⟨base, hbase, hupd⟩ := h
  rw [← hbase.before (·.storedRegionMapInfos) (by rintro t ⟨n, rfl⟩; rfl)]
  exact hupd.regionMaps.imp fun _ _ _ _ _ hs => hs.kept fun _ _ _ hu => by rw [hu]

/-- **The prepare phase keeps exactly the child's objects.** -/
theorem prepare_exact (ck : Checkpointer) (st : TargetState) (s : CustomServices)
    (hst : DistinctRecords st) (hs : DistinctObjects s) (hcons : Consistent st s) :
    Exact st (prepare s st ck).1 s := by
  have h := prepare_step ck rfl hst hs hcons
  exact
    { ram := h.ram.imp fun _ _ _ _ _ => exactRamSession_of_step
      pd := h.pd.imp fun _ _ _ _ _ => exactPdSession_of_step
      cpu := h.cpu.imp fun _ _ _ _ _ => exactCpuSession_of_step
      rm := h.rm.imp fun _ _ _ _ _ => exactRmSession_of_step
      log := h.log.imp fun _ _ _ _ _ hs => hs.kept fun _ _ _ hu => by rw [hu]
      timer := h.timer.imp fun _ _ _ _ _ hs => hs.kept fun _ _ _ hu => by rw [hu]; rfl }

/-- The records of the small child after its first prepare phase. -/
def smallRecords : TargetState × Checkpointer :=
  prepare TargetChild.small.services .empty (new Core.small)

/-- They are kept by the next one. -/
theorem prepare_exact_small :
    Exact smallRecords.1 (prepare TargetChild.small.services smallRecords.1 smallRecords.2).1
      TargetChild.small.services :=
  prepare_exact smallRecords.2 smallRecords.1 TargetChild.small.services (by decide) (by decide)
    (by decide)

end Rtcr.Checkpointer
