import Rtcr.Checkpointer.Checkpoint

/-!
# Checkpointer.Threads — the child's threads during a checkpoint

`checkpoint` reads the register states of the threads of every session
in `cpu_root`'s list, but pauses through `Target_child::pause`. Here is
what that means for the child the snapshot is taken from.
-/

namespace Rtcr

/-- Changes of the RAM sessions leave the CPU sessions alone. -/
@[simp] theorem TargetChild.mapRamSessions_standsStill
    (f : List RamSessionComponent → List RamSessionComponent) (child : TargetChild) :
    (child.mapRamSessions f).StandsStill ↔ child.StandsStill := Iff.rfl

@[simp] theorem TargetChild.pause_capRegion (child : TargetChild) :
    child.pause.capRegion = child.capRegion := rfl

/-- The call gets past `_create_cap_map_infos`: the child's capability
array lies in an attached region with a dataspace. -/
def TargetChild.CapMapReadable (child : TargetChild) : Prop :=
  ∃ info, child.capRegion = some info ∧ attachable info.attachedDsCap = true

instance (child : TargetChild) : Decidable child.CapMapReadable :=
  decidable_of_iff (child.capRegion.any (attachable ·.attachedDsCap) = true) <| by
    simp [TargetChild.CapMapReadable, Option.any_eq_true]

theorem createCapMapInfos_standsStill (child : TargetChild) (core : Core) :
    (createCapMapInfos child core).2.StandsStill ↔ child.StandsStill :=
  createCapMapInfos_keeps (P := fun c => c.StandsStill ↔ child.StandsStill) core Iff.rfl
    (fun _ => Iff.rfl) fun _ _ _ h => h

/-- The call reaches the snapshot exactly if the capability array can be
read. -/
theorem createCapMapInfos_ok_iff (child : TargetChild) (core : Core) :
    (∃ capMap, (createCapMapInfos child core).1 = .ok capMap) ↔ child.CapMapReadable := by
  unfold createCapMapInfos TargetChild.CapMapReadable
  cases child.capRegion with
  | none => simp
  | some info => by_cases h : attachable info.attachedDsCap = true <;> simp [h]

namespace Checkpointer

/-- The snapshot sees the paused child, twice, or is never taken. -/
theorem checkpoint_observed (ck : Checkpointer) (state : TargetState) (child : TargetChild) :
    (child.CapMapReadable ∧ ∃ c₁ c₂, (ck.checkpoint state child).observed = [c₁, c₂] ∧
      (c₁.StandsStill ↔ child.pause.StandsStill) ∧ (c₂.StandsStill ↔ child.pause.StandsStill)) ∨
    (¬child.CapMapReadable ∧ (ck.checkpoint state child).observed = []) := by
  have hok := createCapMapInfos_ok_iff child.pause ck.core
  have hstill := createCapMapInfos_standsStill child.pause ck.core
  rcases hmap : createCapMapInfos child.pause ck.core with ⟨e | capMap, child'⟩
  · right
    refine ⟨fun hr => ?_, by simp only [checkpoint, hmap]⟩
    obtain ⟨capMap, hc⟩ := hok.mpr hr
    simp [hmap] at hc
  · left
    rw [hmap] at hok hstill
    refine ⟨hok.mp ⟨capMap, rfl⟩, child', child'.mapRamSessions detachDesignatedDataspaces, ?_,
      hstill, hstill⟩
    simp only [checkpoint, hmap, takeSnapshot]

/-- A call that cannot read the capability array throws before anything is
prepared. -/
theorem checkpoint_of_unreadable {ck : Checkpointer} {state : TargetState} {child : TargetChild}
    (h : ¬child.CapMapReadable) :
    (ck.checkpoint state child).state = { state with capIdxAllocAddr := child.capMapInfo } ∧
      (ck.checkpoint state child).checkpointer = ck := by
  have hok := createCapMapInfos_ok_iff child.pause ck.core
  unfold checkpoint
  dsimp only
  rcases hmap : createCapMapInfos child.pause ck.core with ⟨e | capMap, child'⟩
  · exact ⟨rfl, rfl⟩
  · rw [hmap] at hok
    exact absurd (hok.mp ⟨capMap, rfl⟩) h

/-- The child stands still while the snapshot is taken, if there is one,
exactly if `pause` made it stand still. -/
theorem forall_observed_standsStill (ck : Checkpointer) (state : TargetState)
    (child : TargetChild) :
    (∀ c ∈ (ck.checkpoint state child).observed, c.StandsStill) ↔
      (child.CapMapReadable → child.pause.StandsStill) := by
  rcases ck.checkpoint_observed state child with ⟨hr, c₁, c₂, hobs, h₁, h₂⟩ | ⟨hr, hobs⟩
  · simp [hobs, h₁, h₂, hr]
  · simp [hobs, hr]

/-- **The whole child stands still** whenever `checkpoint` reads register
states or copies memory, exactly if the CPU sessions other than
`_resources.cpu` were paused before the call. -/
theorem checkpoint_standsStill_iff (ck : Checkpointer) (state : TargetState)
    (child : TargetChild) :
    (∀ c ∈ (ck.checkpoint state child).observed, c.StandsStill) ↔
      (child.CapMapReadable →
        ∀ s ∈ child.services.cpuRoot, s.cap ≠ child.cpu → s.AllPaused) := by
  rw [forall_observed_standsStill, child.pause_standsStill_iff]

/-- The small child with a second CPU session, in which a thread runs. -/
def twoCpuSessions : TargetChild :=
  { TargetChild.small with
    services :=
      { TargetChild.small.services with
        cpuRoot :=
          .bare 22 false [.running 23 "worker" false] :: TargetChild.small.services.cpuRoot } }

/-- The thread of the second session runs while the snapshot of the
whole child is taken. -/
theorem checkpoint_not_standsStill :
    ¬∀ c ∈ ((new Core.small).checkpoint TargetState.empty twoCpuSessions).observed,
      c.StandsStill := by
  rw [forall_observed_standsStill]
  intro h
  have hr : twoCpuSessions.CapMapReadable := ⟨_, rfl, rfl⟩
  exact absurd (h hr) (by decide)

end Checkpointer

end Rtcr
