import Rtcr.Target.Bootstrap
import Rtcr.Target.StoredEntries

/-!
# Target.Checkpoints — a child and a checkpointer over whole runs

A child asks for what it likes, and between any two of its requests the
checkpointer may be called. Badges come from one counter, roots stay, and
what is set once stays set. So what the prepare phase needs of the child
and of its own records holds at every call (`Records.step`), and every
call that returns leaves exactly the child's objects (`exact_of_run`).
-/

namespace Rtcr

open Checkpointer Fallible Fresh Reconcile Simulation

/-! ## A call of `checkpoint` -/

section Call

variable {s s' s'' : CustomServices}

theorem RamSessionComponent.outline_entries (s : RamSessionComponent) :
    s.outline.entries = s.entries := by
  have hlist : (s.parentState.ramDataspaces.map RamDataspaceInfo.outline).map (·.entry) =
      s.parentState.ramDataspaces.map (·.entry) := by
    rw [List.map_map]
    refine List.map_congr_left fun d _ => ?_
    simp [RamDataspaceInfo.entry, RamDataspaceInfo.outline]
  exact congrArg (fun l : List Entry => {s.entry} + (l : Multiset Entry)) hlist

theorem CpuSessionComponent.resumeThreads_entries (s : CpuSessionComponent) :
    s.resumeThreads.entries = s.entries := by
  show _ + entriesOf _ (s.parentState.cpuThreads.map CpuThreadComponent.resume) = _
  unfold entriesOf
  rw [List.map_map]
  rfl

/-- The same objects have the same entries. -/
theorem Checkpointer.SameObjects.entries (h : SameObjects s s') : s'.entries = s.entries := by
  unfold CustomServices.entries
  rw [h.pd, h.rm, h.log, h.timer,
    total_of_map_eq RamSessionComponent.outline_entries h.ram,
    total_of_map_eq CpuSessionComponent.resumeThreads_entries h.cpu]

/-- A mirror of objects is one of what differs from them in nothing that
`f` sees. -/
theorem mirror_of_map_eq {τ χ α : Type} {key : τ → Nat} {ckey : χ → Nat}
    {rel : Option τ → τ → χ → Prop} {old new : List τ} {cs cs' : List χ} {f : χ → α}
    (h : Mirror key ckey rel old new cs') (hmap : cs'.map f = cs.map f)
    (hkey : ∀ c c', f c' = f c → ckey c' = ckey c)
    (hrel : ∀ o t c c', f c' = f c → rel o t c' → rel o t c) : Mirror key ckey rel old new cs where
  keys := List.map_eq_of_map_eq (fun c' c he => hkey c c' he) hmap ▸ h.keys
  nodup := h.nodup
  each t ht := by
    obtain ⟨c', hc', hname, hr⟩ := h.each t ht
    obtain ⟨c, hc, he⟩ := List.exists_of_map_eq hmap hc'
    exact ⟨c, hc, (hkey c c' he).symm.trans hname, hrel _ t c c' he hr⟩

theorem Checkpointer.Exact.of_sameObjects {old new : TargetState} (h : Exact old new s')
    (hsame : SameObjects s s') : Exact old new s where
  ram := by
    refine mirror_of_map_eq h.ram hsame.ram (fun _ _ he => congrArg (·.cap.localName) he) ?_
    intro o t c c' he hr
    exact ⟨hr.kept, mirror_of_map_eq hr.dataspaces (RamSessionComponent.dataspaces_of_outline he)
      (fun _ _ he => congrArg (·.cap.localName) he) fun _ _ _ _ _ hr => hr⟩
  pd := hsame.pd ▸ h.pd
  cpu := by
    refine mirror_of_map_eq h.cpu hsame.cpu (fun _ _ he => congrArg (·.cap.localName) he) ?_
    intro o t c c' he hr
    exact ⟨hr.kept, mirror_of_map_eq hr.threads (CpuSessionComponent.threads_of_resume he)
      (fun _ _ he => congrArg (·.cap.localName) he) fun _ _ _ _ _ hr => hr⟩
  rm := hsame.rm ▸ h.rm
  log := hsame.log ▸ h.log
  timer := hsame.timer ▸ h.timer

end Call

/-! ## Runs with checkpoints -/

/-- A child, and the checkpointer with the state it fills. -/
structure Monitoring where
  monitored : MonitoredChild
  checkpointer : Checkpointer
  state : TargetState

inductive MonitoringEvent
  | request (request : ChildRequest)
  | checkpoint

namespace Monitoring

/-- Nothing is stored yet. -/
def start (m : MonitoredChild) : Monitoring := ⟨m, .new m.core, .empty⟩

/-- The checkpointer sees core as it is. -/
def caller (x : Monitoring) : Checkpointer := { x.checkpointer with core := x.monitored.core }

/-- `checkpoint()`, of the child as it is. -/
def result (x : Monitoring) : CheckpointResult := x.caller.checkpoint x.state x.monitored.child

def checkpointed (x : Monitoring) : Monitoring where
  monitored :=
    { x.monitored with child := x.result.child, core := x.result.checkpointer.core }
  checkpointer := x.result.checkpointer
  state := x.result.state

/-- A request that is answered, or a call of `checkpoint()`, whether it
returns or throws. -/
inductive Step (g : Genode) : Monitoring → MonitoringEvent → Monitoring → Prop
  | request {x : Monitoring} {request : ChildRequest} {m : MonitoredChild}
      (h : x.monitored.Step g request m) : Step g x (.request request) { x with monitored := m }
  | checkpoint (x : Monitoring) : Step g x .checkpoint x.checkpointed

/-- What the prepare phase needs, in terms of what no request undoes. -/
structure Records (x : Monitoring) : Prop where
  distinct : Numbered Entry.badge x.monitored.core.nextBadge x.monitored.entries
  records : DistinctRecords x.state
  below : ∀ t ∈ x.state.entries, t.badge < x.monitored.core.nextBadge
  known : Matching x.state.entries x.monitored.entries
  rmRoot : x.monitored.child.services.rmRoot = none → x.state.rmSessions = []
  logRoot : x.monitored.child.services.logRoot = none → x.state.logSessions = []
  timerRoot : x.monitored.child.services.timerRoot = none → x.state.timerSessions = []

variable {g : Genode} {x x' : Monitoring}

/-- The records of PD sessions agree with the sessions on the region
maps. -/
theorem Records.consistent (h : Records x) : Consistent x.state x.monitored.child.services where
  areas t ht c hc hkey := by
    have hrecord : t.entry ∈ x.state.entries := Multiset.mem_of_le
      ((le_total ht).trans (Multiset.le_add_right _ _))
      (Multiset.mem_add.mpr (.inl (Multiset.mem_singleton_self _)))
    have hobject : c.entry ∈ x.monitored.entries := Multiset.mem_of_le
      ((le_total hc).trans x.monitored.child.services.pd_le)
      (Multiset.mem_add.mpr (.inl (Multiset.mem_singleton_self _)))
    have hsame := congrArg Entry.profile (h.known _ hrecord _ hobject hkey.symm)
    simp only [PdSessionComponent.entry, StoredPdSessionInfo.entry, StoredSessionInfo.entry,
      Profile.session.injEq] at hsame
    exact hsame.2.2.symm
  rm := h.rmRoot
  log := h.logRoot
  timer := h.timerRoot

theorem records_start {m : MonitoredChild} (h : MonitoredChild.Started g m) :
    Records (start m) where
  distinct := h.bootstrapping.distinct
  records := by
    change DistinctRecords .empty
    decide
  below _ ht := absurd ht (Multiset.notMem_zero _)
  known := .zero _
  rmRoot _ := rfl
  logRoot _ := rfl
  timerRoot _ := rfl

/-- **A request**: new entries have badges that no record has. -/
theorem Records.request {request : ChildRequest} {m : MonitoredChild} (h : Records x)
    (hstep : x.monitored.Step g request m) : Records { x with monitored := m } := by
  obtain ⟨-, -, hgain⟩ := hstep.gains
  have hroots := hstep.roots
  refine ⟨Grows.numbered hgain h.distinct, h.records,
    fun t ht => (h.below t ht).trans_le hgain.le, fun t ht => ?_, h.rmRoot ∘ hroots.rm,
    h.logRoot ∘ hroots.log, h.timerRoot ∘ hroots.timer⟩
  refine Grows.forall_mem hgain (h.known t ht) fun e hge _ _ hkey => ?_
  have hlt := h.below t ht
  omega

/-- **The prepare phase** of a call, from what holds before it. -/
theorem Records.prepared (h : Records x) :
    PrepareStep (x.monitored.child.capabilityMap x.monitored.core) x.state
      (x.caller.prepared x.state x.monitored.child).1
      (x.caller.prepareChild x.monitored.child).services := by
  have hobjects : DistinctObjects x.monitored.child.services :=
    distinctObjects_of_entries h.distinct
  have hstep : PrepareStep (x.monitored.child.capabilityMap x.caller.core) x.state
      (x.caller.prepared x.state x.monitored.child).1
      (x.caller.prepareChild x.monitored.child).services :=
    prepared_step h.records hobjects h.consistent
  exact hstep

/-- What the records say afterwards. -/
theorem Records.prepared_entries (h : Records x) :
    (x.caller.prepared x.state x.monitored.child).1.entries = x.monitored.entries := by
  have hsame : (x.caller.prepareChild x.monitored.child).services.entries =
      x.monitored.entries := (prepareChild_sameObjects x.caller x.monitored.child).entries
  have hprep := h.prepared.entries (n := x.monitored.core.nextBadge)
    (by rw [hsame]; exact h.distinct) (by rw [hsame]; exact h.known)
  rw [hprep, hsame]

theorem checkpointed_entries (x : Monitoring) :
    x.checkpointed.monitored.entries = x.monitored.entries :=
  (checkpoint_sameObjects ..).entries

/-- **A call**, whether it returns or throws. -/
theorem Records.checkpointed (h : Records x) : Records x.checkpointed := by
  have hcore := checkpoint_callsOn x.caller x.state x.monitored.child
  have hsame := checkpoint_sameObjects x.caller x.state x.monitored.child
  have hdistinct : Numbered Entry.badge x.checkpointed.monitored.core.nextBadge
      x.monitored.entries :=
    (Grows.of_le (P := fun _ => True) hcore.nextBadge le_rfl).numbered h.distinct
  rcases checkpoint_cases x.caller x.state x.monitored.child with ⟨hstate, -⟩ | ⟨hstate, -⟩
  · -- the records are as before
    have hst : x.checkpointed.state =
        { x.state with capIdxAllocAddr := x.monitored.child.capMapInfo } := hstate
    refine ⟨?_, ?_, ?_, ?_, ?_, ?_, ?_⟩
    · rw [checkpointed_entries]
      exact hdistinct
    · rw [hst]
      exact ⟨h.records.ram, h.records.ramDataspaces, h.records.pd, h.records.pdLists,
        h.records.cpu, h.records.threads, h.records.rm, h.records.regionMaps, h.records.log,
        h.records.timer⟩
    · rw [hst]
      exact fun t ht => (h.below t ht).trans_le hcore.nextBadge
    · rw [hst, checkpointed_entries]
      exact h.known
    · rw [hst]
      exact hsame.rm ▸ h.rmRoot
    · rw [hst]
      exact hsame.log ▸ h.logRoot
    · rw [hst]
      exact hsame.timer ▸ h.timerRoot
  · -- the records are those of the prepare phase
    have hprep := h.prepared
    have hchild := prepareChild_sameObjects x.caller x.monitored.child
    have hst : x.checkpointed.state = (x.caller.prepared x.state x.monitored.child).1 := hstate
    refine ⟨?_, ?_, ?_, ?_, ?_, ?_, ?_⟩
    · rw [checkpointed_entries]
      exact hdistinct
    · rw [hst]
      exact hprep.distinct
    · rw [hst, h.prepared_entries]
      exact hdistinct.below
    · rw [hst, h.prepared_entries, checkpointed_entries]
      exact .refl h.distinct
    · rw [hst]
      intro hnone
      have hroot := hchild.rm.trans (hsame.rm.symm.trans hnone)
      have hkeys := hprep.rm.keys
      rw [hroot] at hkeys
      exact List.map_eq_nil_iff.mp hkeys.eq_nil
    · rw [hst]
      intro hnone
      have hroot := hchild.log.trans (hsame.log.symm.trans hnone)
      have hkeys := hprep.log.keys
      rw [hroot] at hkeys
      exact List.map_eq_nil_iff.mp hkeys.eq_nil
    · rw [hst]
      intro hnone
      have hroot := hchild.timer.trans (hsame.timer.symm.trans hnone)
      have hkeys := hprep.timer.keys
      rw [hroot] at hkeys
      exact List.map_eq_nil_iff.mp hkeys.eq_nil

theorem Records.step {event : MonitoringEvent} (h : Records x) (hstep : Step g x event x') :
    Records x' := by
  cases hstep with
  | request hreq => exact h.request hreq
  | checkpoint => exact h.checkpointed

theorem records_of_run {m : MonitoredChild} {events : List MonitoringEvent}
    (hm : MonitoredChild.Started g m) (h : Steps (Step g) (start m) events x) : Records x :=
  h.invariant (I := Records) (fun _ _ _ hx hstep => hx.step hstep) (records_start hm)

end Monitoring

end Rtcr
