import Rtcr.Checkpointer.Calls
import Rtcr.Checkpointer.Current

/-!
# Checkpointer.History — records that stay current over many calls

Between two calls the child does what it likes; a call is given the
child and core as they are then. The records are current after every
call of a run in which the child was steady from call to call
(`current_of_run`). A child that upgrades a session is not
(`upgrade_not_stored`).
-/

namespace Rtcr.Checkpointer

open Reconcile

variable {m m₁ m₂ : List BadgeKcapInfo}

/-! ## What the paused flags and designated dataspaces do not change -/

theorem SteadyRamDataspace.of_outline {d₁ d d' : RamDataspaceInfo} (he : d'.outline = d.outline)
    (h : SteadyRamDataspace m₁ m₂ d₁ d) : SteadyRamDataspace m₁ m₂ d₁ d' where
  kcap := RamDataspaceInfo.cap_of_outline he ▸ h.kcap
  bootstrapped := h.bootstrapped.trans (congrArg (·.bootstrapped) he).symm
  size := h.size.trans (congrArg (·.size) he).symm
  cached := h.cached.trans (congrArg (·.cached) he).symm
  managed := h.managed.trans (RamDataspaceInfo.managed_of_outline he).symm
  timestamp := h.timestamp.trans (congrArg (·.timestamp) he).symm

theorem SteadyRamSession.of_outline {c₁ c c' : RamSessionComponent} (he : c'.outline = c.outline)
    (h : SteadyRamSession m₁ m₂ c₁ c) : SteadyRamSession m₁ m₂ c₁ c' where
  kcap := RamSessionComponent.cap_of_outline he ▸ h.kcap
  bootstrapped := h.bootstrapped.trans (congrArg (·.parentState.bootstrapped) he).symm
  creationArgs := h.creationArgs.trans (congrArg (·.parentState.creationArgs) he).symm
  upgradeArgs := h.upgradeArgs.trans (congrArg (·.parentState.upgradeArgs) he).symm
  dataspaces d₁ hd₁ d' hd' hkey := by
    obtain ⟨d, hd, hde⟩ := List.exists_of_map_eq (RamSessionComponent.dataspaces_of_outline he) hd'
    have hcap : d'.cap.localName = d.cap.localName := congrArg (·.cap.localName) hde
    exact (h.dataspaces d₁ hd₁ d hd (hkey.trans hcap)).of_outline hde

theorem SteadyCpuThread.of_resume {d₁ d d' : CpuThreadComponent} (he : d'.resume = d.resume)
    (h : SteadyCpuThread m₁ m₂ d₁ d) : SteadyCpuThread m₁ m₂ d₁ d' where
  kcap := h.kcap.trans (congrArg (fun t => kcapOf m₂ t.cap) he).symm
  bootstrapped := h.bootstrapped.trans (congrArg (·.parentState.bootstrapped) he).symm
  pdSession := h.pdSession.trans (congrArg (·.parentState.pdSessionCap.localName) he).symm
  name := h.name.trans (congrArg (·.parentState.name) he).symm
  weight := h.weight.trans (congrArg (·.parentState.weight) he).symm
  utcb := h.utcb.trans (congrArg (·.parentState.utcb) he).symm

theorem SteadyCpuSession.of_resume {c₁ c c' : CpuSessionComponent}
    (he : c'.resumeThreads = c.resumeThreads) (h : SteadyCpuSession m₁ m₂ c₁ c) :
    SteadyCpuSession m₁ m₂ c₁ c' where
  kcap := h.kcap.trans (congrArg (fun s => kcapOf m₂ s.cap) he).symm
  bootstrapped := h.bootstrapped.trans (congrArg (·.parentState.bootstrapped) he).symm
  creationArgs := h.creationArgs.trans (congrArg (·.parentState.creationArgs) he).symm
  upgradeArgs := h.upgradeArgs.trans (congrArg (·.parentState.upgradeArgs) he).symm
  threads d₁ hd₁ d' hd' hkey := by
    obtain ⟨d, hd, hde⟩ := List.exists_of_map_eq (CpuSessionComponent.threads_of_resume he) hd'
    have hcap : d'.cap.localName = d.cap.localName := congrArg (·.cap.localName) hde
    exact (h.threads d₁ hd₁ d hd (hkey.trans hcap)).of_resume hde

theorem SameObjects.steady {s₁ s s' : CustomServices} (h : SameObjects s s')
    (hs : Steady m₁ m₂ s₁ s) : Steady m₁ m₂ s₁ s' where
  ram c₁ hc₁ c' hc' hkey := by
    obtain ⟨c, hc, he⟩ := List.exists_of_map_eq h.ram hc'
    have hcap : c'.cap.localName = c.cap.localName := congrArg (·.cap.localName) he
    exact (hs.ram c₁ hc₁ c hc (hkey.trans hcap)).of_outline he
  pd := h.pd ▸ hs.pd
  cpu c₁ hc₁ c' hc' hkey := by
    obtain ⟨c, hc, he⟩ := List.exists_of_map_eq h.cpu hc'
    have hcap : c'.cap.localName = c.cap.localName := congrArg (·.cap.localName) he
    exact (hs.cpu c₁ hc₁ c hc (hkey.trans hcap)).of_resume he
  rm := h.rm ▸ hs.rm
  log := h.log ▸ hs.log
  timer := h.timer ▸ hs.timer

theorem CurrentRamSession.mapManaged (f : ManagedRegionMapInfo → ManagedRegionMapInfo)
    {c : RamSessionComponent} {t : StoredRamSessionInfo} (h : CurrentRamSession m c t) :
    CurrentRamSession m (c.mapManaged f) t where
  session := h.session
  dataspaces u hu := by
    obtain ⟨d, hd, hkey, hcur⟩ := h.dataspaces u hu
    refine ⟨{ d with mrmInfo := d.mrmInfo.map f }, List.mem_map_of_mem hd, hkey, hcur.trans ?_⟩
    simp only [StoredRamDataspaceInfo.new, Option.isSome_map]

/-- Detaching the designated dataspaces leaves every record current. -/
theorem AllCurrent.detach {s : CustomServices} {st : TargetState} (h : AllCurrent m s st) :
    AllCurrent m { s with ramRoot := detachDesignatedDataspaces s.ramRoot } st :=
  { h with
    ram := fun t ht => by
      obtain ⟨c, hc, hkey, hcur⟩ := h.ram t ht
      exact ⟨_, List.mem_map_of_mem hc, hkey, hcur.mapManaged _⟩ }

theorem CurrentRegionMap.badge {c : RegionMapComponent} {t : StoredRegionMapInfo}
    (h : CurrentRegionMap m c t) : t.badge = c.cap.localName := congrArg (·.badge) h

/-- A steady child has the region maps its PD sessions were stored
with. -/
theorem AllCurrent.consistent {s₁ s₂ : CustomServices} {st : TargetState}
    (h : AllCurrent m₁ s₁ st) (hsteady : Steady m₁ m₂ s₁ s₂)
    (hrm : s₂.rmRoot = none → s₁.rmRoot = none) (hlog : s₂.logRoot = none → s₁.logRoot = none)
    (htimer : s₂.timerRoot = none → s₁.timerRoot = none) : Consistent st s₂ where
  areas t ht c hc hkey := by
    obtain ⟨c₁, hc₁, hkey₁, hcur⟩ := h.pd t ht
    have hst := hsteady.pd c₁ hc₁ c hc (hkey₁.trans hkey)
    simp only [SameAreas, storedAreas, areas, List.map_cons, List.map_nil, hcur.addressSpace.badge,
      hcur.stackArea.badge, hcur.linkerArea.badge, hst.addressSpace.badge, hst.stackArea.badge,
      hst.linkerArea.badge]
  rm hnone := List.eq_nil_iff_forall_not_mem.mpr fun t ht => by
    obtain ⟨c, hc, -⟩ := h.rm t ht
    simp [hrm hnone, sessionInfos] at hc
  log hnone := List.eq_nil_iff_forall_not_mem.mpr fun t ht => by
    obtain ⟨c, hc, -⟩ := h.log t ht
    simp [hlog hnone, sessionInfos] at hc
  timer hnone := List.eq_nil_iff_forall_not_mem.mpr fun t ht => by
    obtain ⟨c, hc, -⟩ := h.timer t ht
    simp [htimer hnone, sessionInfos] at hc

/-! ## Runs -/

/-- A call is given the child and core as they are. -/
structure Call where
  child : TargetChild
  core : Core

def Call.capMap (call : Call) : List BadgeKcapInfo := call.child.capabilityMap call.core

/-- One checkpointer and one target state over many calls, with the
objects of the child after the last call and its capability map then. -/
structure History where
  checkpointer : Checkpointer
  state : TargetState
  services : CustomServices
  capMap : List BadgeKcapInfo

/-- Nothing is stored before the first call. -/
def History.start (core : Core) : History where
  checkpointer := .new core
  state := .empty
  services := ⟨[], [], [], none, none, none⟩
  capMap := []

def History.result (s : History) (call : Call) : CheckpointResult :=
  { s.checkpointer with core := call.core }.checkpoint s.state call.child

def History.next (s : History) (call : Call) : History where
  checkpointer := (s.result call).checkpointer
  state := (s.result call).state
  services := (s.result call).child.services
  capMap := call.capMap

/-- One call. No two objects of a kind have one badge at the same time,
a root once created stays, and the call returns. -/
structure CallStep (s : History) (call : Call) (s' : History) : Prop where
  distinct : DistinctObjects call.child.services
  rmRoot : call.child.services.rmRoot = none → s.services.rmRoot = none
  logRoot : call.child.services.logRoot = none → s.services.logRoot = none
  timerRoot : call.child.services.timerRoot = none → s.services.timerRoot = none
  returns : (s.result call).thrown = none
  next : s' = s.next call

/-- The child has been steady since the last call. -/
def SteadyCall (s : History) (call : Call) : Prop :=
  Steady s.capMap call.capMap s.services call.child.services

/-- The records are current, and no two of a kind have one badge. -/
structure History.Current (s : History) : Prop where
  records : AllCurrent s.capMap s.services s.state
  distinct : DistinctRecords s.state

theorem History.current_start (core : Core) : (History.start core).Current :=
  ⟨⟨.nil, .nil, .nil, .nil, .nil, .nil⟩, by
    change DistinctRecords .empty
    decide⟩

/-- **One call**: records that were current at the last call are so at
this one if the child has been steady. -/
theorem CallStep.current {s s' : History} {call : Call} (hs : s.Current)
    (hsteady : SteadyCall s call) (hstep : CallStep s call s') : s'.Current := by
  have hcons := hs.records.consistent hsteady hstep.rmRoot hstep.logRoot hstep.timerRoot
  have hprep := checkpoint_step hstep.returns hs.distinct hstep.distinct hcons
  have hsame := prepareChild_sameObjects { s.checkpointer with core := call.core } call.child
  have hcur := hprep.current _ _ hs.records (hsame.steady hsteady)
  have hchild := (checkpoint_returns hstep.returns).2.1
  rw [hstep.next]
  refine ⟨?_, hprep.distinct⟩
  unfold History.next History.result
  rw [hchild]
  exact hcur.detach

/-- **Records are current** after every call of a run in which the child
is steady from each call to the next. -/
theorem current_of_run {core : Core} {s : History}
    (h : Run CallStep SteadyCall (History.start core) s) :
    AllCurrent s.capMap s.services s.state :=
  (Run.invariant (I := History.Current) (fun _ _ _ hs hok hstep => hstep.current hs hok) h
    (History.current_start core)).records

/-- The records a first call prepares are current. -/
theorem prepared_current (core : Core) {child : TargetChild}
    (hs : DistinctObjects child.services) :
    PrepareStep (child.capabilityMap core) .empty ((new core).prepared .empty child).1
        ((new core).prepareChild child).services ∧
      AllCurrent (child.capabilityMap core) ((new core).prepareChild child).services
        ((new core).prepared .empty child).1 := by
  have hempty : AllCurrent [] ⟨[], [], [], none, none, none⟩ .empty :=
    ⟨.nil, .nil, .nil, .nil, .nil, .nil⟩
  have hcons : Consistent .empty child.services :=
    ⟨fun _ ht => absurd ht List.not_mem_nil, fun _ => rfl, fun _ => rfl, fun _ => rfl⟩
  have hstep := @prepared_step (new core) .empty child (by decide) hs hcons
  exact ⟨hstep, hstep.current [] _ hempty ⟨.nil, .nil, .nil, .nil, .nil, .nil⟩⟩

/-! ## A child that does nothing is steady -/

theorem Agree.refl {χ : Type} {childBadge : χ → Nat} {rel : χ → χ → Prop} {cs : List χ}
    (hcs : (cs.map childBadge).Nodup) (h : ∀ c ∈ cs, rel c c) : Agree childBadge rel cs cs := by
  intro c₁ hc₁ c₂ hc₂ hkey
  obtain rfl := List.inj_on_of_nodup_map hcs hc₁ hc₂ hkey
  exact h c₁ hc₁

theorem Steady.refl {s : CustomServices} (hs : DistinctObjects s) : Steady m m s s where
  ram := .refl hs.ram fun c hc => ⟨rfl, rfl, rfl, rfl,
    .refl (hs.ramDataspaces c hc) fun _ _ => ⟨rfl, rfl, rfl, rfl, rfl, rfl⟩⟩
  pd := .refl hs.pd fun c hc => ⟨rfl, rfl, rfl, rfl,
    .refl (hs.pdLists c hc).nativeCaps fun _ _ => ⟨rfl, rfl, rfl⟩,
    .refl (hs.pdLists c hc).sources fun _ _ => ⟨rfl, rfl⟩,
    .refl (hs.pdLists c hc).contexts fun _ _ => ⟨rfl, rfl, rfl, rfl⟩,
    .refl .., .refl .., .refl ..⟩
  cpu := .refl hs.cpu fun c hc => ⟨rfl, rfl, rfl, rfl,
    .refl (hs.threads c hc) fun _ _ => ⟨rfl, rfl, rfl, rfl, rfl, rfl⟩⟩
  rm := .refl hs.rm fun c hc => ⟨rfl, rfl, rfl, rfl, .refl (hs.regionMaps c hc) fun _ _ => .refl ..⟩
  log := .refl hs.log fun _ _ => ⟨rfl, rfl, rfl, rfl⟩
  timer := .refl hs.timer fun _ _ => ⟨rfl, rfl, rfl, rfl⟩

/-- Before the first call there is nothing to be steady. -/
theorem steadyCall_start (core : Core) (call : Call) : SteadyCall (.start core) call :=
  ⟨.nil, .nil, .nil, .nil, .nil, .nil⟩

/-- The first call, of the small child. -/
def firstCall : Call := ⟨.small, .small⟩

/-- Afterwards the child opens a LOG session. -/
def logCall : Call :=
  ⟨{ TargetChild.small with
      services :=
        { TargetChild.small.services with
          logRoot := some [⟨⟨50⟩,
            { creationArgs := "", upgradeArgs := "", bootstrapped := false }, 0⟩] } },
    .small⟩

/-- Or it donates quota to its RAM session. -/
def upgradeCall : Call :=
  ⟨{ TargetChild.small with
      services :=
        { TargetChild.small.services with
          ramRoot := TargetChild.small.services.ramRoot.map fun s =>
            { s with parentState := { s.parentState with upgradeArgs := "ram_quota=8K" } } } },
    .small⟩

def History.afterFirst : History := (History.start .small).next firstCall

theorem firstCall_step : CallStep (.start .small) firstCall .afterFirst :=
  ⟨by decide +kernel, fun _ => rfl, fun _ => rfl, fun _ => rfl, by decide +kernel, rfl⟩

theorem logCall_step : CallStep .afterFirst logCall (History.afterFirst.next logCall) :=
  ⟨by decide +kernel, by decide +kernel, by decide +kernel, by decide +kernel, by decide +kernel,
    rfl⟩

theorem upgradeCall_step :
    CallStep .afterFirst upgradeCall (History.afterFirst.next upgradeCall) :=
  ⟨by decide +kernel, by decide +kernel, by decide +kernel, by decide +kernel, by decide +kernel,
    rfl⟩

theorem logCall_steady : SteadyCall .afterFirst logCall := by
  have hmap : logCall.capMap = History.afterFirst.capMap := by decide +kernel
  have hsame : SameObjects History.afterFirst.services TargetChild.small.services :=
    ⟨by unfold SameOutline; decide +kernel, by decide +kernel, by decide +kernel,
      by decide +kernel, by decide +kernel, by decide +kernel⟩
  have hrefl : Steady History.afterFirst.capMap History.afterFirst.capMap
      History.afterFirst.services History.afterFirst.services := .refl (by decide +kernel)
  have hsteady := hsame.steady hrefl
  unfold SteadyCall
  rw [hmap]
  exact ⟨hsteady.ram, hsteady.pd, hsteady.cpu, hsteady.rm, .nil, hsteady.timer⟩

theorem current_of_run_log :
    AllCurrent (History.afterFirst.next logCall).capMap
      (History.afterFirst.next logCall).services (History.afterFirst.next logCall).state :=
  current_of_run (((Run.refl _).tail (steadyCall_start _ _) firstCall_step).tail logCall_steady
    logCall_step)

/-- **An upgrade is not stored**: the record made at the first call still
has the empty upgrade arguments at the second. -/
theorem upgrade_not_stored :
    ¬ ∀ core s, Run CallStep (fun _ _ => True) (History.start core) s →
      AllCurrent s.capMap s.services s.state := by
  intro h
  have hrun : Run CallStep (fun _ _ => True) (History.start .small)
      (History.afterFirst.next upgradeCall) :=
    ((Run.refl _).tail trivial firstCall_step).tail trivial upgradeCall_step
  have hall : ∀ t ∈ (History.afterFirst.next upgradeCall).state.ramSessions,
      ∃ c ∈ (History.afterFirst.next upgradeCall).services.ramRoot,
        t.upgradeArgs = c.parentState.upgradeArgs := by
    intro t ht
    obtain ⟨c, hc, -, hcur⟩ := (h _ _ hrun).ram t ht
    exact ⟨c, hc, congrArg (·.upgradeArgs) hcur.session⟩
  exact absurd hall (by decide +kernel)

end Rtcr.Checkpointer
