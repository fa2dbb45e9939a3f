import Rtcr.Checkpointer.Phases

/-!
# Checkpointer.Calls — one call, in terms of the child it is given

Between the child a call is given and the one its records are prepared
from lie a pause and the reading of the capability array. Neither shows
in anything but the paused flags and the insides of managed dataspaces
(`SameObjects`), so what a call needs can be asked of the child it is
given.
-/

namespace Rtcr

open Reconcile

/-! ## The same objects -/

theorem RamSessionComponent.cap_of_outline {c c' : RamSessionComponent}
    (h : c'.outline = c.outline) : c'.cap = c.cap := congrArg (·.cap) h

theorem RamSessionComponent.dataspaces_of_outline {c c' : RamSessionComponent}
    (h : c'.outline = c.outline) :
    c'.parentState.ramDataspaces.map RamDataspaceInfo.outline =
      c.parentState.ramDataspaces.map RamDataspaceInfo.outline :=
  congrArg (·.parentState.ramDataspaces) h

theorem RamDataspaceInfo.cap_of_outline {d d' : RamDataspaceInfo} (h : d'.outline = d.outline) :
    d'.cap = d.cap := congrArg (·.cap) h

theorem RamDataspaceInfo.managed_of_outline {d d' : RamDataspaceInfo}
    (h : d'.outline = d.outline) : d'.mrmInfo.isSome = d.mrmInfo.isSome := by
  have hm := congrArg (fun d => d.mrmInfo.isSome) h
  simpa [RamDataspaceInfo.outline] using hm

theorem SameOutline.badges {r r' : List RamSessionComponent} (h : SameOutline r r') :
    r'.map (·.cap.localName) = r.map (·.cap.localName) :=
  List.map_eq_of_map_eq (fun _ _ he => congrArg (·.cap.localName) he) h

theorem RamSessionComponent.dataspaceBadges_of_outline {c c' : RamSessionComponent}
    (h : c'.outline = c.outline) :
    c'.parentState.ramDataspaces.map (·.cap.localName) =
      c.parentState.ramDataspaces.map (·.cap.localName) :=
  List.map_eq_of_map_eq (fun _ _ he => congrArg (·.cap.localName) he) (dataspaces_of_outline h)

theorem CpuSessionComponent.threads_of_resume {c c' : CpuSessionComponent}
    (h : c'.resumeThreads = c.resumeThreads) :
    c'.parentState.cpuThreads.map CpuThreadComponent.resume =
      c.parentState.cpuThreads.map CpuThreadComponent.resume :=
  congrArg (·.parentState.cpuThreads) h

theorem CpuSessionComponent.threadBadges_of_resume {c c' : CpuSessionComponent}
    (h : c'.resumeThreads = c.resumeThreads) :
    c'.parentState.cpuThreads.map (·.cap.localName) =
      c.parentState.cpuThreads.map (·.cap.localName) :=
  List.map_eq_of_map_eq (fun _ _ he => congrArg (·.cap.localName) he) (threads_of_resume h)

theorem CpuSessionComponent.badges_of_resume {cs cs' : List CpuSessionComponent}
    (h : cs'.map (·.resumeThreads) = cs.map (·.resumeThreads)) :
    cs'.map (·.cap.localName) = cs.map (·.cap.localName) :=
  List.map_eq_of_map_eq (fun _ _ he => congrArg (·.cap.localName) he) h

theorem CpuSessionComponent.resume_pauseThreads (c : CpuSessionComponent) :
    c.pauseThreads.resumeThreads = c.resumeThreads := by
  simp only [pauseThreads, resumeThreads, mapThreads, List.map_map]
  rfl

theorem RamSessionComponent.outline_mapManaged
    (f : ManagedRegionMapInfo → ManagedRegionMapInfo) (s : RamSessionComponent) :
    (s.mapManaged f).outline = s.outline := by
  have h : (s.mapManaged f).parentState.ramDataspaces.map RamDataspaceInfo.outline =
      s.parentState.ramDataspaces.map RamDataspaceInfo.outline := by
    show List.map _ (List.map _ _) = _
    rw [List.map_map]
    exact List.map_congr_left fun info _ => info.outline_map f
  exact congrArg (fun l => s.setRamDataspaces l) h

theorem sameOutline_detach (ramRoot : List RamSessionComponent) :
    SameOutline ramRoot (detachDesignatedDataspaces ramRoot) := by
  unfold SameOutline detachDesignatedDataspaces
  rw [List.map_map]
  exact List.map_congr_left fun s _ => s.outline_mapManaged _

namespace Checkpointer

/-- The same objects, up to paused flags and to which designated
dataspaces are attached. -/
structure SameObjects (s s' : CustomServices) : Prop where
  ram : SameOutline s.ramRoot s'.ramRoot
  cpu : s'.cpuRoot.map (·.resumeThreads) = s.cpuRoot.map (·.resumeThreads)
  pd : s'.pdRoot = s.pdRoot
  rm : s'.rmRoot = s.rmRoot
  log : s'.logRoot = s.logRoot
  timer : s'.timerRoot = s.timerRoot

theorem SameObjects.distinct {s s' : CustomServices} (h : SameObjects s s')
    (hs : DistinctObjects s) : DistinctObjects s' where
  ram := h.ram.badges ▸ hs.ram
  ramDataspaces c' hc' := by
    obtain ⟨c, hc, he⟩ := List.exists_of_map_eq h.ram hc'
    exact RamSessionComponent.dataspaceBadges_of_outline he ▸ hs.ramDataspaces c hc
  pd := h.pd ▸ hs.pd
  pdLists := h.pd ▸ hs.pdLists
  cpu := CpuSessionComponent.badges_of_resume h.cpu ▸ hs.cpu
  threads c' hc' := by
    obtain ⟨c, hc, he⟩ := List.exists_of_map_eq h.cpu hc'
    exact CpuSessionComponent.threadBadges_of_resume he ▸ hs.threads c hc
  rm := h.rm ▸ hs.rm
  regionMaps := h.rm ▸ hs.regionMaps
  log := h.log ▸ hs.log
  timer := h.timer ▸ hs.timer

theorem SameObjects.consistent {s s' : CustomServices} (h : SameObjects s s') {st : TargetState}
    (hst : Consistent st s) : Consistent st s' where
  areas := h.pd ▸ hst.areas
  rm := h.rm ▸ hst.rm
  log := h.log ▸ hst.log
  timer := h.timer ▸ hst.timer

/-- The records of a call are prepared from the objects it is given. -/
theorem prepareChild_sameObjects (ck : Checkpointer) (child : TargetChild) :
    SameObjects child.services (ck.prepareChild child).services := by
  have houtline := createCapMapInfos_outline child.pause ck.core
  have hservices := createCapMapInfos_services child.pause ck.core
  unfold prepareChild
  refine ⟨houtline, ?_, ?_, ?_, ?_, ?_⟩
  · rw [hservices]
    simp only [TargetChild.pause, TargetChild.mapCpuSessions, modifyCap, List.map_map]
    refine List.map_congr_left fun c _ => ?_
    simp only [Function.comp_apply]
    split
    · exact c.resume_pauseThreads
    · rfl
  all_goals
    rw [hservices]
    rfl

theorem SameObjects.detach {s s' : CustomServices} (h : SameObjects s s') :
    SameObjects s { s' with ramRoot := detachDesignatedDataspaces s'.ramRoot } :=
  ⟨(sameOutline_detach s'.ramRoot).trans h.ram, h.cpu, h.pd, h.rm, h.log, h.timer⟩

/-- The child after a call that returns or throws. -/
theorem checkpoint_child (ck : Checkpointer) (st : TargetState) (child : TargetChild) :
    (ck.checkpoint st child).child = ck.prepareChild child ∨
      (ck.checkpoint st child).child =
        (ck.prepareChild child).mapRamSessions detachDesignatedDataspaces := by
  unfold checkpoint prepareChild
  dsimp only
  rcases createCapMapInfos child.pause ck.core with ⟨e | capMap, child'⟩
  · exact .inl rfl
  · exact .inr rfl

theorem checkpoint_sameObjects (ck : Checkpointer) (st : TargetState) (child : TargetChild) :
    SameObjects child.services (ck.checkpoint st child).child.services := by
  have h := ck.prepareChild_sameObjects child
  rcases checkpoint_child ck st child with he | he
  · rw [he]
    exact h
  · rw [he]
    exact h.detach

/-- Core after `core`: more badges, as many numbers for dataspaces. -/
structure CallsOn (core core' : Core) : Prop where
  nextBadge : core.nextBadge ≤ core'.nextBadge
  ramDataspaceCount : core'.ramDataspaceCount = core.ramDataspaceCount

theorem stable_callsOn (core : Core) : Stable fun ck => CallsOn core ck.core where
  newRecord _ h := h
  destroyRecord _ _ h := h
  useCopyDataspace excluded cap size ck h := by
    unfold useCopyDataspace
    split
    · exact h
    · split
      · exact h
      · exact ⟨h.nextBadge.trans (Nat.le_succ _), h.ramDataspaceCount⟩
  dropCopyDataspace badge ck h := by
    unfold dropCopyDataspace
    split
    · split <;> exact h
    · exact h
  regionMap _ _ h := h

theorem copyMemory_callsOn (infos : List OrigCopyInfo) (core : Core) :
    CallsOn core (copyMemory infos core).2 := by
  induction infos generalizing core with
  | nil => exact ⟨le_rfl, rfl⟩
  | cons info infos ih =>
      unfold copyMemory
      split
      · exact ih core
      · unfold copyContent
        split_ifs
        · have h := ih { core with bytes := ByteStore.blit info.toCopy core.bytes }
          exact ⟨h.nextBadge, h.ramDataspaceCount⟩
        · exact ⟨le_rfl, rfl⟩

theorem checkpoint_callsOn (ck : Checkpointer) (st : TargetState) (child : TargetChild) :
    CallsOn ck.core (ck.checkpoint st child).checkpointer.core := by
  unfold checkpoint
  dsimp only
  rcases createCapMapInfos child.pause ck.core with ⟨e | capMap, child'⟩
  · exact ⟨le_rfl, rfl⟩
  · have hstart : CallsOn ck.core (ck.setUp child' capMap).core := ⟨le_rfl, rfl⟩
    have hprep := (stable_callsOn ck.core).prepare child'.services
      { st with capIdxAllocAddr := child.capMapInfo } hstart
    have hcopy := copyMemory_callsOn ((prepare child'.services
      { st with capIdxAllocAddr := child.capMapInfo } (ck.setUp child' capMap)).2.memoryToCheckpoint
        child') (prepare child'.services
      { st with capIdxAllocAddr := child.capMapInfo } (ck.setUp child' capMap)).2.core
    have hboth : CallsOn ck.core _ :=
      ⟨hprep.nextBadge.trans hcopy.nextBadge, hcopy.ramDataspaceCount.trans hprep.ramDataspaceCount⟩
    unfold takeSnapshot
    dsimp only
    split <;> exact hboth

/-! ## Distinct records -/

theorem PrepareStep.distinct {capMap : List BadgeKcapInfo} {old new : TargetState}
    {s : CustomServices} (h : PrepareStep capMap old new s) : DistinctRecords new where
  ram := h.ram.nodup
  ramDataspaces t ht := by
    obtain ⟨c, -, -, base, -, -, hsub⟩ := h.ram.each t ht
    exact hsub.nodup
  pd := h.pd.nodup
  pdLists t ht := by
    obtain ⟨c, -, -, base, -, hupd⟩ := h.pd.each t ht
    exact ⟨hupd.nativeCaps.nodup, hupd.sources.nodup, hupd.contexts.nodup⟩
  cpu := h.cpu.nodup
  threads t ht := by
    obtain ⟨c, -, -, base, -, hupd⟩ := h.cpu.each t ht
    exact hupd.threads.nodup
  rm := h.rm.nodup
  regionMaps t ht := by
    obtain ⟨c, -, -, base, -, hupd⟩ := h.rm.each t ht
    exact hupd.regionMaps.nodup
  log := h.log.nodup
  timer := h.timer.nodup

/-- The prepare phase of a call, for records and objects with distinct
badges. -/
theorem prepared_step {ck : Checkpointer} {st : TargetState} {child : TargetChild}
    (hst : DistinctRecords st) (hs : DistinctObjects child.services)
    (hcons : Consistent st child.services) :
    PrepareStep (child.capabilityMap ck.core) st (ck.prepared st child).1
      (ck.prepareChild child).services := by
  have hsame := ck.prepareChild_sameObjects child
  have hst' : DistinctRecords { st with capIdxAllocAddr := child.capMapInfo } :=
    ⟨hst.ram, hst.ramDataspaces, hst.pd, hst.pdLists, hst.cpu, hst.threads, hst.rm,
      hst.regionMaps, hst.log, hst.timer⟩
  have hcons' : Consistent { st with capIdxAllocAddr := child.capMapInfo }
      (ck.prepareChild child).services :=
    ⟨(hsame.consistent hcons).areas, (hsame.consistent hcons).rm, (hsame.consistent hcons).log,
      (hsame.consistent hcons).timer⟩
  have hstep := prepare_step (ck.setUp (ck.prepareChild child) (child.capabilityMap ck.core))
    rfl hst' (hsame.distinct hs) hcons'
  exact ⟨hstep.ram, hstep.pd, hstep.cpu, hstep.rm, hstep.log, hstep.timer⟩

/-- **A returning call is one prepare phase.** -/
theorem checkpoint_step {ck : Checkpointer} {st : TargetState} {child : TargetChild}
    (h : (ck.checkpoint st child).thrown = none) (hst : DistinctRecords st)
    (hs : DistinctObjects child.services) (hcons : Consistent st child.services) :
    PrepareStep (child.capabilityMap ck.core) st (ck.checkpoint st child).state
      (ck.prepareChild child).services := by
  rw [(checkpoint_returns h).1]
  exact prepared_step hst hs hcons

end Checkpointer

end Rtcr
