import Rtcr.Checkpointer.Calls
import Rtcr.Checkpointer.Threads

/-!
# Checkpointer.RunStates — what a checkpoint does to paused threads

A thread is paused by the child or by the checkpointer, and both go
through the same thread object: the record cannot tell them apart, and
nothing resumes the threads at the end of a call.
`checkpoint_transparent_iff`: a call goes unnoticed exactly if it finds
all threads it would pause paused already.
-/

namespace Rtcr

open Reconcile

/-- The recorded paused flag and the one at core. -/
def CpuThreadComponent.runState (t : CpuThreadComponent) : Cap × Bool × Bool :=
  (t.cap, t.parentState.paused, t.parent.paused)

def CpuSessionComponent.runStates (s : CpuSessionComponent) : Cap × List (Cap × Bool × Bool) :=
  (s.cap, s.parentState.cpuThreads.map (·.runState))

/-- The run states of all threads of the child. -/
def TargetChild.runStates (child : TargetChild) : List (Cap × List (Cap × Bool × Bool)) :=
  child.services.cpuRoot.map (·.runStates)

theorem CpuThreadComponent.pause_runState_iff (t : CpuThreadComponent) :
    t.pause.runState = t.runState ↔ t.Paused := by
  constructor
  · intro h
    have hflags : (true, true) = (t.parentState.paused, t.parent.paused) := congrArg Prod.snd h
    rw [Prod.mk.injEq] at hflags
    exact ⟨hflags.2.symm, hflags.1.symm⟩
  · rintro ⟨hcore, hrecord⟩
    show (t.cap, true, true) = (t.cap, t.parentState.paused, t.parent.paused)
    rw [hcore, hrecord]

/-- A paused thread is not changed by another pause. -/
theorem CpuThreadComponent.Paused.pause_eq {t : CpuThreadComponent} (h : t.Paused) :
    t.pause = t := by
  have hcore : { t.parent with paused := true } = t.parent := by rw [← h.1]
  have hrecord : { t.parentState with paused := true } = t.parentState := by rw [← h.2]
  unfold CpuThreadComponent.pause
  rw [hcore, hrecord]

theorem CpuSessionComponent.pauseThreads_runStates_iff (s : CpuSessionComponent) :
    s.pauseThreads.runStates = s.runStates ↔ s.AllPaused := by
  unfold runStates
  show (s.cap, (s.parentState.cpuThreads.map CpuThreadComponent.pause).map (·.runState)) =
    (s.cap, s.parentState.cpuThreads.map (·.runState)) ↔ _
  rw [Prod.mk.injEq, List.map_map, List.map_inj_left]
  simp only [true_and, Function.comp_apply, CpuThreadComponent.pause_runState_iff]
  rfl

theorem CpuSessionComponent.AllPaused.pauseThreads_eq {s : CpuSessionComponent}
    (h : s.AllPaused) : s.pauseThreads = s := by
  have hthreads : s.parentState.cpuThreads.map CpuThreadComponent.pause =
      s.parentState.cpuThreads := by
    conv_rhs => rw [← List.map_id s.parentState.cpuThreads]
    exact List.map_congr_left fun t ht => (h t ht).pause_eq
  unfold pauseThreads mapThreads
  rw [hthreads]

/-- The child's own session is paused already. -/
def TargetChild.CpuPaused (child : TargetChild) : Prop :=
  ∀ s ∈ child.services.cpuRoot, s.cap = child.cpu → s.AllPaused

instance (child : TargetChild) : Decidable child.CpuPaused :=
  inferInstanceAs (Decidable (∀ s ∈ child.services.cpuRoot, s.cap = child.cpu → s.AllPaused))

theorem TargetChild.pause_runStates_iff (child : TargetChild) :
    child.pause.runStates = child.runStates ↔ child.CpuPaused := by
  unfold runStates CpuPaused
  show (modifyCap (·.cap) child.cpu CpuSessionComponent.pauseThreads child.services.cpuRoot).map
    (·.runStates) = _ ↔ _
  unfold modifyCap
  rw [List.map_map, List.map_inj_left]
  refine forall₂_congr fun s _ => ?_
  rw [Function.comp_apply]
  by_cases h : s.cap = child.cpu
  · rw [if_pos h, s.pauseThreads_runStates_iff]
    exact ⟨fun hp _ => hp, fun hp => hp h⟩
  · rw [if_neg h]
    exact ⟨fun _ he => absurd he h, fun _ => rfl⟩

theorem TargetChild.CpuPaused.pause_cpuRoot {child : TargetChild} (h : child.CpuPaused) :
    child.pause.services.cpuRoot = child.services.cpuRoot := by
  show modifyCap (·.cap) child.cpu CpuSessionComponent.pauseThreads child.services.cpuRoot = _
  unfold modifyCap
  conv_rhs => rw [← List.map_id child.services.cpuRoot]
  refine List.map_congr_left fun s hs => ?_
  by_cases he : s.cap = child.cpu
  · rw [if_pos he, (h s hs he).pauseThreads_eq]
    rfl
  · rw [if_neg he]
    rfl

namespace Checkpointer

theorem createCapMapInfos_cpuRoot (child : TargetChild) (core : Core) :
    (createCapMapInfos child core).2.services.cpuRoot = child.services.cpuRoot := by
  rw [createCapMapInfos_services]

/-- However the call ends, the child's threads are as `pause` has left
them. -/
theorem checkpoint_cpuRoot (ck : Checkpointer) (st : TargetState) (child : TargetChild) :
    (ck.checkpoint st child).child.services.cpuRoot = child.pause.services.cpuRoot := by
  have hkept := createCapMapInfos_cpuRoot child.pause ck.core
  unfold checkpoint
  dsimp only
  split
  · rename_i hmap
    rw [hmap] at hkept
    exact hkept
  · rename_i hmap
    rw [hmap] at hkept
    exact hkept

/-- Every thread record the call has written carries the flag the thread
had before the call. A call that cannot read the capability array writes
none. -/
def WritesFlags (ck : Checkpointer) (st : TargetState) (child : TargetChild) : Prop :=
  child.CapMapReadable → ∀ t ∈ (ck.checkpoint st child).state.cpuSessions,
    ∃ s ∈ child.services.cpuRoot, s.cap.localName = t.badge ∧
      ∀ u ∈ t.storedCpuThreadInfos, ∃ c ∈ s.parentState.cpuThreads,
        c.cap.localName = u.badge ∧ u.paused = c.parentState.paused

/-- The child cannot tell from its threads that there was a call, nor can
the one who restores it. -/
structure Transparent (ck : Checkpointer) (st : TargetState) (child : TargetChild) : Prop where
  records : WritesFlags ck st child
  threads : (ck.checkpoint st child).child.runStates = child.runStates

/-- The records are those of the paused child. -/
theorem checkpoint_state_of_readable {ck : Checkpointer} {st : TargetState} {child : TargetChild}
    (h : child.CapMapReadable) : (ck.checkpoint st child).state = (ck.prepared st child).1 := by
  obtain ⟨capMap, hok⟩ := (createCapMapInfos_ok_iff child.pause ck.core).mpr h
  obtain rfl := createCapMapInfos_eq_ok hok
  unfold checkpoint prepared prepareChild
  dsimp only
  split
  · rename_i hmap
    rw [hmap] at hok
    cases hok
  · rename_i hmap
    rw [hmap] at hok
    cases hok
    rw [hmap]
    rfl

theorem writesFlags_of_cpuPaused {ck : Checkpointer} {st : TargetState} {child : TargetChild}
    (hst : DistinctRecords st) (hs : DistinctObjects child.services)
    (hcons : Consistent st child.services) (h : child.CpuPaused) : WritesFlags ck st child := by
  intro hread t ht
  rw [checkpoint_state_of_readable hread] at ht
  have hroot : (ck.prepareChild child).services.cpuRoot = child.services.cpuRoot :=
    (createCapMapInfos_cpuRoot child.pause ck.core).trans h.pause_cpuRoot
  obtain ⟨s, hmem, hbadge, base, -, hupd⟩ := (prepared_step hst hs hcons).cpu.each t ht
  rw [hroot] at hmem
  refine ⟨s, hmem, hbadge, fun u hu => ?_⟩
  obtain ⟨c, hc, hcu, base', -, rfl⟩ := hupd.threads.each u hu
  exact ⟨c, hc, hcu, rfl⟩

/-- **A call goes unnoticed** exactly if it finds every thread it pauses
paused already. -/
theorem checkpoint_transparent_iff {ck : Checkpointer} {st : TargetState} {child : TargetChild}
    (hst : DistinctRecords st) (hs : DistinctObjects child.services)
    (hcons : Consistent st child.services) : Transparent ck st child ↔ child.CpuPaused := by
  have hthreads : (ck.checkpoint st child).child.runStates = child.pause.runStates := by
    unfold TargetChild.runStates
    rw [checkpoint_cpuRoot]
  constructor
  · intro h
    exact child.pause_runStates_iff.mp (hthreads ▸ h.threads)
  · intro h
    exact ⟨writesFlags_of_cpuPaused hst hs hcons h,
      hthreads.trans (child.pause_runStates_iff.mpr h)⟩

/-- The small child after it has been paused from outside. -/
theorem checkpoint_transparent_paused :
    Transparent (new Core.small) .empty TargetChild.small.pause :=
  (checkpoint_transparent_iff (by decide) (by decide) (by decide)).mpr (by decide)

/-- The running thread of the small child is recorded as paused, and
stays paused. -/
theorem checkpoint_not_transparent : ¬Transparent (new Core.small) .empty TargetChild.small := by
  intro h
  have hrun := h.threads
  unfold TargetChild.runStates at hrun
  rw [checkpoint_cpuRoot] at hrun
  exact absurd hrun (by decide)

end Checkpointer

end Rtcr
