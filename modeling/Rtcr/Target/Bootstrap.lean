import Rtcr.Lib.Simulation
import Rtcr.Restorer.Memory
import Rtcr.Target.Steps

/-!
# Target.Bootstrap — the mark of bootstrap over whole runs

Every record carries a copy of `_in_bootstrap` from when it was made, and
a restoration tells objects that are there already from those it has to
create by this mark alone. Over a whole run the mark says on which side
of the first request for "LOG" an object has come into being, and the
restoration itself takes place at this request and never again.
-/

namespace Rtcr

open Fallible Fresh Reconcile Simulation

namespace MonitoredChild

/-! ## A new child -/

/-- A new child, without or with a state to restore. -/
inductive Started (g : Genode) : MonitoredChild → Prop
  | start (label : String) (granularity : Nat) (initial : InitialThread) (ramSessionCap : Cap)
      (parentServices : List String) (core : Core) :
      Started g (construct g label granularity initial ramSessionCap parentServices core)
  | startFrom (label : String) (granularity : Nat) (initial : InitialThread) (ramSessionCap : Cap)
      (parentServices : List String) (core : Core) (state : TargetState) :
      Started g ((construct g label granularity initial ramSessionCap parentServices core).startFrom
        state)

/-- The constructor makes everything from nothing. -/
theorem construct_gains (g : Genode) (label : String) (granularity : Nat)
    (initial : InitialThread) (ramSessionCap : Cap) (parentServices : List String) (core : Core) :
    Gains true core
      (construct g label granularity initial ramSessionCap parentServices core).core 0
      (construct g label granularity initial ramSessionCap parentServices core).entries := by
  let pd := PdSessionComponent.create g true (pdArgs label) core
  let cpu := CpuSessionComponent.create g true (cpuArgs label) pd.2
  let ram := RamSessionComponent.create g granularity true (ramArgs label) cpu.2
  let thread := CpuThreadComponent.create pd.1.cap label initial.affinity initial.weight 0 true ram.2
  have hpd : Gains true core pd.2 0 (CustomServices.entries ⟨[pd.1], [], [], none, none, none⟩) :=
    CustomServices.gains_pd ⟨[], [], [], none, none, none⟩
      (gains_of_new [] (PdSessionComponent.create_gains ..))
  have hcpu := hpd.trans (CustomServices.gains_cpu ⟨[pd.1], [], [], none, none, none⟩
    (gains_of_new [] (CpuSessionComponent.create_gains true pd.2 g (cpuArgs label))))
  have hram := hcpu.trans (CustomServices.gains_ram ⟨[pd.1], [cpu.1], [], none, none, none⟩
    (gains_of_new [] (RamSessionComponent.create_gains true cpu.2 g (ramArgs label) granularity)))
  have hone : Gains true ram.2 thread.2 (entriesOf CpuThreadComponent.entry [])
      (entriesOf CpuThreadComponent.entry [thread.1]) :=
    gains_cons [] le_rfl (Nat.lt_succ_self _) rfl
  have hthread : Gains true ram.2 thread.2 cpu.1.entries (cpu.1.setThreads [thread.1]).entries :=
    hone.frame _
  exact hram.trans (CustomServices.gains_cpu ⟨[pd.1], [cpu.1], [ram.1], none, none, none⟩
    (hthread.frame_right 0))

/-- What holds until the first request for "LOG". -/
structure Bootstrapping (restorer : Option TargetState) (m : MonitoredChild) : Prop where
  inBootstrap : m.child.inBootstrap = true
  restorer : m.restorer = restorer
  distinct : Numbered Entry.badge m.core.nextBadge m.entries
  marked : ∀ e ∈ m.entries, e.bootstrapped = true
  /-- the root of the LOG service comes with the first request for it -/
  logRoot : m.child.services.logRoot = none

theorem Started.bootstrapping {g : Genode} {m : MonitoredChild} (h : Started g m) :
    Bootstrapping m.restorer m := by
  have hdistinct : ∀ n, Numbered Entry.badge n 0 := fun n => ⟨by simp, by simp⟩
  cases h with
  | start label granularity initial ramSessionCap parentServices core =>
      have hgain := construct_gains g label granularity initial ramSessionCap parentServices core
      exact ⟨rfl, rfl, hgain.numbered (hdistinct _),
        hgain.forall_mem (by simp) fun _ _ _ hmark => hmark, rfl⟩
  | startFrom label granularity initial ramSessionCap parentServices core state =>
      have hgain := construct_gains g label granularity initial ramSessionCap parentServices core
      exact ⟨rfl, rfl, hgain.numbered (hdistinct _),
        hgain.forall_mem (by simp) fun _ _ _ hmark => hmark, rfl⟩

/-! ## Requests during bootstrap -/

section Before

variable {g : Genode} {m m' : MonitoredChild} {request : ChildRequest}
  {restorer : Option TargetState}

theorem findCustom_logRoot {name : String} (hname : name ≠ "LOG") (m : MonitoredChild) :
    (m.findCustom name).2.child.services.logRoot = m.child.services.logRoot := by
  unfold findCustom
  split_ifs <;> rfl

/-- No other request creates the LOG root. -/
theorem Step.logRoot (h : m.Step g request m') (hlog : request.forLog = false)
    (hnone : m.child.services.logRoot = none) : m'.child.services.logRoot = none := by
  unfold Step at h
  cases request with
  | session name args =>
      have hname : name ≠ "LOG" := by simpa [ChildRequest.forLog] using hlog
      obtain ⟨m₁, hhook, hcases⟩ := openSession_cases h
      unfold hook endBootstrap at hhook
      rw [if_neg hname, if_neg (by simp [hname])] at hhook
      cases hhook
      have hroot : (m.lookup name).2.child.services.logRoot = none := by
        have hfind := findCustom_logRoot hname m
        unfold lookup
        split
        · exact hnone
        · split
          · rename_i hcustom
            rw [hcustom] at hfind
            exact hfind.trans hnone
          · rename_i hcustom
            rw [hcustom] at hfind
            exact hfind.trans hnone
      rcases hcases with ⟨service, -, rfl⟩ | ⟨parent, -, rfl⟩
      · cases service <;> simp [createSession, setServices, hroot]
      · exact hroot
  | upgrade service cap args =>
      cases h
      cases service <;> simp [upgrade, setServices, hnone]
  | close service cap =>
      cases h
      unfold close
      cases service <;> dsimp only <;> try split
      all_goals simp [setServices, hnone]
  | pd cap request =>
      cases h
      exact hnone
  | cpu cap request =>
      cases h
      exact hnone
  | ram cap request =>
      cases h
      exact hnone
  | rm cap request =>
      unfold serve at h
      dsimp only at h
      split at h <;> cases h <;> exact hnone
  | timer cap request =>
      cases h
      exact hnone
  | capMapInfo addr =>
      cases h
      exact hnone
  | elsewhere badges ramDataspaces nativeCapabilities bytes =>
      cases h
      exact hnone

theorem Bootstrapping.step (hm : Bootstrapping restorer m) (h : m.Step g request m')
    (hlog : request.forLog = false) : Bootstrapping restorer m' := by
  obtain ⟨hboot, hrestorer, hgain⟩ := h.gains
  rw [hm.inBootstrap, hlog] at hboot
  rw [hlog] at hrestorer
  refine ⟨hboot, hrestorer.trans hm.restorer, Grows.numbered hgain hm.distinct, ?_,
    h.logRoot hlog hm.logRoot⟩
  exact Grows.forall_mem hgain hm.marked fun _ _ _ hmark => hmark.trans hboot

/-- **Bootstrap**: everything is marked. -/
theorem Bootstrapping.steps {requests : List ChildRequest} (hm : Bootstrapping restorer m)
    (h : Steps (fun m request m' => m.Step g request m' ∧ request.forLog = false) m requests m') :
    Bootstrapping restorer m' :=
  h.invariant (I := Bootstrapping restorer) (fun _ _ _ hm ⟨hstep, hlog⟩ => hm.step hstep hlog) hm

end Before

/-! ## After bootstrap -/

/-- What holds from the first request for "LOG" on, when core had handed
out the badges below `n` and `old` was there. -/
structure Bootstrapped (n : Nat) (old : Multiset Entry) (m : MonitoredChild) : Prop where
  inBootstrap : m.child.inBootstrap = false
  restorer : m.restorer = none
  distinct : Numbered Entry.badge m.core.nextBadge m.entries
  le : n ≤ m.core.nextBadge
  marked : ∀ e ∈ m.entries, e.bootstrapped = true ↔ e.badge < n
  kept : m.entries.filter (·.bootstrapped = true) ≤ old

section After

variable {g : Genode} {m m' : MonitoredChild} {request : ChildRequest} {n : Nat}
  {old : Multiset Entry}

/-- What has no mark is no concern. -/
theorem filter_bootstrapped_le {core core' : Core} {a b : Multiset Entry}
    (h : Gains false core core' a b) :
    b.filter (·.bootstrapped = true) ≤ a.filter (·.bootstrapped = true) := by
  obtain ⟨fresh, hfresh, hle⟩ := h.added
  have hnone : fresh.filter (·.bootstrapped = true) = 0 := by
    refine Multiset.filter_eq_nil.mpr fun e he => ?_
    rw [(hfresh.each e he).2.2]
    exact Bool.false_ne_true
  have hsum := Multiset.filter_le_filter (·.bootstrapped = true) hle
  rwa [Multiset.filter_add, hnone, zero_add] at hsum

theorem Bootstrapped.step (hm : Bootstrapped n old m) (h : m.Step g request m') :
    Bootstrapped n old m' := by
  obtain ⟨hboot, hrestorer, hgain⟩ := h.gains
  rw [hm.inBootstrap, Bool.false_and] at hboot
  rw [hm.restorer, ite_self] at hrestorer
  rw [hboot] at hgain
  refine ⟨hboot, hrestorer, Grows.numbered hgain hm.distinct, hm.le.trans hgain.le, ?_,
    (filter_bootstrapped_le hgain).trans hm.kept⟩
  refine Grows.forall_mem hgain hm.marked fun e hge _ hmark => ?_
  have hle := hm.le
  rw [hmark]
  constructor
  · exact nofun
  · intro hlt
    omega

/-- The first request for "LOG". -/
theorem Bootstrapping.log {restorer : Option TargetState} (hm : Bootstrapping restorer m)
    (h : m.Step g request m') (hlog : request.forLog = true) :
    Bootstrapped m.core.nextBadge m.entries m' := by
  obtain ⟨hboot, hrestorer, hgain⟩ := h.gains
  rw [hlog, Bool.not_true, Bool.and_false] at hboot
  rw [if_pos hlog] at hrestorer
  rw [hboot] at hgain
  refine ⟨hboot, hrestorer, Grows.numbered hgain hm.distinct, hgain.le, ?_,
    (filter_bootstrapped_le hgain).trans (Multiset.filter_le _ _)⟩
  refine Grows.forall_mem hgain (fun e he => ?_) fun e hge _ hmark => ?_
  · exact iff_of_true (hm.marked e he) (hm.distinct.below e he)
  · rw [hmark]
    constructor
    · exact nofun
    · intro hlt
      omega

theorem Bootstrapped.steps {requests : List ChildRequest} (hm : Bootstrapped n old m)
    (h : Steps (Step g) m requests m') : Bootstrapped n old m' :=
  h.invariant (I := Bootstrapped n old) (fun _ _ _ hm hstep => hm.step hstep) hm

end After

def newChild : MonitoredChild :=
  construct Genode.small "main" 0 ⟨10, ⟨0, 0, 1, 1⟩⟩ ⟨1⟩ [] .small

/-- The request runs the restoration hook. -/
def Restores (m : MonitoredChild) (request : ChildRequest) : Bool :=
  request.forLog && m.restorer.isSome

/-- A step, with the number of restorations so far. -/
def CountedStep (g : Genode) (x : MonitoredChild × Nat) (request : ChildRequest)
    (x' : MonitoredChild × Nat) : Prop :=
  x.1.Step g request x'.1 ∧ x'.2 = x.2 + if x.1.Restores request then 1 else 0

section Hook

variable {g : Genode} {x x' : MonitoredChild × Nat} {requests : List ChildRequest}

/-- The phases of a run. -/
theorem phase_of_steps {restorer : Option TargetState} (hx : Bootstrapping restorer x.1)
    (h : Steps (CountedStep g) x requests x') :
    Bootstrapping restorer x'.1 ∨ ∃ n old, Bootstrapped n old x'.1 := by
  refine h.invariant
    (I := fun x => Bootstrapping restorer x.1 ∨ ∃ n old, Bootstrapped n old x.1) ?_ (.inl hx)
  intro y request y' hy hstep
  rcases hy with hy | ⟨n, old, hy⟩
  · cases hlog : request.forLog with
    | false => exact .inl (hy.step hstep.1 hlog)
    | true => exact .inr ⟨_, _, hy.log hstep.1 hlog⟩
  · exact .inr ⟨n, old, hy.step hstep.1⟩

theorem count_after {n : Nat} {old : Multiset Entry} (hx : Bootstrapped n old x.1)
    (h : Steps (CountedStep g) x requests x') : x'.2 = x.2 := by
  induction h with
  | nil => rfl
  | cons hstep _ ih =>
      rw [ih (hx.step hstep.1), hstep.2]
      simp [Restores, hx.restorer]

theorem count_before {restorer : Option TargetState} (hx : Bootstrapping restorer x.1)
    (h : Steps (CountedStep g) x requests x') :
    x'.2 = x.2 + if restorer.isSome && requests.any ChildRequest.forLog then 1 else 0 := by
  induction h with
  | nil => simp
  | @cons x y z request requests hstep hrest ih =>
      cases hlog : request.forLog with
      | false =>
          rw [ih (hx.step hstep.1 hlog), hstep.2]
          simp [Restores, hlog]
      | true =>
          rw [count_after (hx.log hstep.1 hlog) hrest, hstep.2]
          simp [Restores, hlog, hx.restorer]

/-- What runs the hook is a session request for "LOG", and it returns
only if the restoration does. -/
theorem Step.restores {m m' : MonitoredChild} {request : ChildRequest} (h : m.Step g request m')
    (hrestores : m.Restores request = true) :
    ∃ state args restored, m.restorer = some state ∧ request = .session "LOG" args ∧
      Restorer.restore g state { m.child with inBootstrap := false } (.new m.core) =
        .ok restored := by
  obtain ⟨hlog, hsome⟩ := Bool.and_eq_true_iff.mp hrestores
  obtain ⟨state, hstate⟩ := Option.isSome_iff_exists.mp hsome
  cases request with
  | session name args =>
      obtain rfl : name = "LOG" := by simpa [ChildRequest.forLog] using hlog
      obtain ⟨m₁, hhook, -⟩ := openSession_cases h
      have hend : (m.endBootstrap "LOG").child = { m.child with inBootstrap := false } ∧
          (m.endBootstrap "LOG").core = m.core ∧ (m.endBootstrap "LOG").restorer = some state := by
        unfold endBootstrap
        split
        · exact ⟨rfl, rfl, hstate⟩
        · rename_i hboot
          have hfalse : m.child.inBootstrap = false := by simpa using hboot
          exact ⟨by rw [← hfalse], rfl, hstate⟩
      unfold hook at hhook
      rw [if_pos rfl, hend.2.2] at hhook
      obtain ⟨restored, hrun, -⟩ := bind_eq_ok.mp hhook
      rw [hend.1, hend.2.1] at hrun
      exact ⟨state, args, restored, hstate, rfl, hrun⟩
  | _ => cases hlog

end Hook

/-- **A child is restored once**: at its first request for "LOG", if it
has been started with a state. Then bootstrap is over, but everything
that is there comes from it, and the LOG service has no root yet. -/
theorem restored_once {g : Genode} {m : MonitoredChild} {requests : List ChildRequest}
    {x : MonitoredChild × Nat} (hm : Started g m) (h : Steps (CountedStep g) (m, 0) requests x) :
    (x.2 = if m.restorer.isSome && requests.any ChildRequest.forLog then 1 else 0) ∧
      ∀ request m', x.1.Step g request m' → x.1.Restores request = true →
        (∀ e ∈ x.1.entries, e.bootstrapped = true) ∧ x.1.child.services.logRoot = none ∧
          ∃ state args restored, m.restorer = some state ∧ request = .session "LOG" args ∧
            Restorer.restore g state { x.1.child with inBootstrap := false } (.new x.1.core) =
              .ok restored := by
  constructor
  · rw [count_before (x := (m, 0)) hm.bootstrapping h, Nat.zero_add]
  · intro request m' hstep hrestores
    obtain ⟨state, args, restored, hstate, hrequest, hrun⟩ := hstep.restores hrestores
    rcases phase_of_steps (x := (m, 0)) hm.bootstrapping h with hx | ⟨n, old, hx⟩
    · exact ⟨hx.marked, hx.logRoot, state, args, restored, hx.restorer.symm.trans hstate, hrequest,
        hrun⟩
    · rw [hx.restorer] at hstate
      cases hstate

/-- The small child, bootstrapped by its startup code: a dataspace for
the capability array, attached where the array is. -/
def startup : List ChildRequest :=
  [.pd ⟨106⟩ .allocSignalSource, .ram ⟨108⟩ (.alloc 0xa000 .cached),
    .pd ⟨106⟩ (.addressSpace (.attach ⟨111⟩ 0xa000 0xa000 0 0x1000 false)), .capMapInfo 0x1000]

def bootedChild : MonitoredChild :=
  startup.foldl (fun m request => (m.serve Genode.small request).toOption.getD m)
    (newChild.startFrom RoundTripSample.checkpoint.state)

theorem bootedChild_log : ((bootedChild.serve Genode.small (.session "LOG" "")).toOption.map
    (·.core.nextBadge)) = some 113 := by
  decide +kernel

theorem restored_once_bootedChild : bootedChild.Restores (.session "LOG" "") = true ∧
    (∀ e ∈ bootedChild.entries, e.bootstrapped = true) ∧ ∃ restored,
      Restorer.restore Genode.small RoundTripSample.checkpoint.state
        { bootedChild.child with inBootstrap := false } (.new bootedChild.core) = .ok restored := by
  have hrun : Steps (CountedStep Genode.small)
      (newChild.startFrom RoundTripSample.checkpoint.state, 0) startup (bootedChild, 0) :=
    .cons (t := (_, _)) ⟨rfl, rfl⟩ (.cons (t := (_, _)) ⟨rfl, rfl⟩
      (.cons (t := (_, _)) ⟨rfl, rfl⟩ (.cons (t := (_, _)) ⟨rfl, rfl⟩ (.nil _))))
  have h := restored_once (.startFrom ..) hrun
  obtain ⟨m', hlog, -⟩ := exists_ok_of_map bootedChild_log
  obtain ⟨hmarked, -, state, args, restored, hstate, -, hrun⟩ := h.2 _ m' hlog rfl
  cases hstate
  exact ⟨rfl, hmarked, restored, hrun⟩

end MonitoredChild

end Rtcr
