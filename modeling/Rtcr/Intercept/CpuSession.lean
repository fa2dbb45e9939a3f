import Rtcr.OnlineStorage

/-!
# CpuSession — pausing and resuming the threads of a session

`Cpu_session_component::pause_threads` goes through the custom thread
objects, whose `pause` pauses the thread at core and records the fact.
`Target_child::pause` calls it for the session `_resources.cpu`.
-/

namespace Rtcr

/-- Apply `f` to the element that carries the capability. -/
def modifyCap {α : Type} (cap : α → Cap) (c : Cap) (f : α → α) (l : List α) : List α :=
  l.map fun x => if cap x = c then f x else x

def CpuThreadComponent.pause (t : CpuThreadComponent) : CpuThreadComponent :=
  { t with
    parent := { t.parent with paused := true }
    parentState := { t.parentState with paused := true } }

def CpuThreadComponent.resume (t : CpuThreadComponent) : CpuThreadComponent :=
  { t with
    parent := { t.parent with paused := false }
    parentState := { t.parentState with paused := false } }

/-- Apply `f` to every thread of the session. -/
def CpuSessionComponent.mapThreads (f : CpuThreadComponent → CpuThreadComponent)
    (s : CpuSessionComponent) : CpuSessionComponent :=
  { s with parentState := { s.parentState with cpuThreads := s.parentState.cpuThreads.map f } }

def CpuSessionComponent.pauseThreads (s : CpuSessionComponent) : CpuSessionComponent :=
  s.mapThreads CpuThreadComponent.pause

def CpuSessionComponent.resumeThreads (s : CpuSessionComponent) : CpuSessionComponent :=
  s.mapThreads CpuThreadComponent.resume

def TargetChild.mapCpuSessions (f : List CpuSessionComponent → List CpuSessionComponent)
    (child : TargetChild) : TargetChild :=
  { child with services := { child.services with cpuRoot := f child.services.cpuRoot } }

/-- `Target_child::pause`. -/
def TargetChild.pause (child : TargetChild) : TargetChild :=
  child.mapCpuSessions (modifyCap (·.cap) child.cpu CpuSessionComponent.pauseThreads)

/-- `Target_child::resume`. -/
def TargetChild.resume (child : TargetChild) : TargetChild :=
  child.mapCpuSessions (modifyCap (·.cap) child.cpu CpuSessionComponent.resumeThreads)

/-- The thread has been paused: core does not run it, and the record
says so. -/
def CpuThreadComponent.Paused (t : CpuThreadComponent) : Prop :=
  t.parent.paused = true ∧ t.parentState.paused = true

instance (t : CpuThreadComponent) : Decidable t.Paused := inferInstanceAs (Decidable (_ ∧ _))

/-- Every thread of the session has been paused. -/
def CpuSessionComponent.AllPaused (s : CpuSessionComponent) : Prop :=
  ∀ t ∈ s.parentState.cpuThreads, t.Paused

instance (s : CpuSessionComponent) : Decidable s.AllPaused :=
  inferInstanceAs (Decidable (∀ t ∈ s.parentState.cpuThreads, t.Paused))

/-- The whole child stands still: every thread of every session in
`cpu_root`'s list. -/
def TargetChild.StandsStill (child : TargetChild) : Prop :=
  ∀ s ∈ child.services.cpuRoot, s.AllPaused

instance (child : TargetChild) : Decidable child.StandsStill :=
  inferInstanceAs (Decidable (∀ s ∈ child.services.cpuRoot, s.AllPaused))

theorem CpuSessionComponent.pauseThreads_allPaused (s : CpuSessionComponent) :
    s.pauseThreads.AllPaused := by
  intro t ht
  simp only [pauseThreads, mapThreads, List.mem_map] at ht
  obtain ⟨u, -, rfl⟩ := ht
  exact ⟨rfl, rfl⟩

/-- **What `pause` achieves**: the child stands still afterwards exactly
if the sessions other than `_resources.cpu` stood still before. -/
theorem TargetChild.pause_standsStill_iff (child : TargetChild) :
    child.pause.StandsStill ↔
      ∀ s ∈ child.services.cpuRoot, s.cap ≠ child.cpu → s.AllPaused := by
  simp only [StandsStill, pause, mapCpuSessions, modifyCap, List.forall_mem_map]
  refine forall₂_congr fun s _ => ?_
  by_cases h : s.cap = child.cpu
  · simp [h, s.pauseThreads_allPaused]
  · simp [h]

end Rtcr
