import Rtcr.Intercept.Sessions

/-!
# Lockout — which calls of the RM and the CPU session return

The creation of an object, the destruction of an unknown one and the
destructors take the lock once. The destruction of a known object takes
it in `destroy` or `kill_thread` and again in the helper they share with
the destructor: such a call never returns.
-/

namespace Rtcr

open Locking

/-! ## One session -/

namespace ObjectSession

variable {α : Type} {cap : α → Cap} {n : Nat} {s : ObjectSession α}

/-- The lists agree: an object is on the list if and only if it is
managed, allocated, and its counterpart is there; what was destroyed was
destroyed once. All capabilities are older than badge `n`. -/
structure WellKept (cap : α → Cap) (n : Nat) (s : ObjectSession α) : Prop where
  managed : s.managed.Perm (s.objects.map fun o => cap o.object)
  mdAlloc : s.mdAlloc.Perm (s.objects.map fun o => cap o.object)
  parent : s.parent.Perm (s.objects.map (·.parentCap))
  caps : (s.objects.map fun o => cap o.object).Nodup
  parents : (s.objects.map (·.parentCap) ++ s.destroyed).Nodup
  below : ∀ o ∈ s.objects, (cap o.object).localName < n ∧ o.parentCap.localName < n
  destroyedBelow : ∀ c ∈ s.destroyed, c.localName < n

theorem WellKept.mono (h : WellKept cap n s) {n' : Nat} (hn : n ≤ n') : WellKept cap n' s :=
  { h with
    below := fun o ho => ⟨(h.below o ho).1.trans_le hn, (h.below o ho).2.trans_le hn⟩
    destroyedBelow := fun c hc => (h.destroyedBelow c hc).trans_le hn }

/-- Nothing is left of the object, here or at the parent, and the parent
was told so once. -/
structure Gone (cap : α → Cap) (o : Intercepted α) (s : ObjectSession α) : Prop where
  objects : cap o.object ∉ s.objects.map fun x => cap x.object
  managed : cap o.object ∉ s.managed
  mdAlloc : cap o.object ∉ s.mdAlloc
  parent : o.parentCap ∉ s.parent
  once : s.destroyed.count o.parentCap = 1

/-! ### Creating -/

theorem WellKept.create (h : WellKept cap n s) {o : Intercepted α} {n' : Nat}
    (hcap : n ≤ (cap o.object).localName ∧ (cap o.object).localName < n')
    (hparent : n ≤ o.parentCap.localName ∧ o.parentCap.localName < n') :
    WellKept cap n' (insertObject o (prepareObject cap o s)) where
  managed := h.managed.cons _
  mdAlloc := h.mdAlloc.cons _
  parent := h.parent.cons _
  caps := by
    refine List.nodup_cons.mpr ⟨fun hmem => ?_, h.caps⟩
    obtain ⟨x, hx, he⟩ := List.mem_map.mp hmem
    have he : cap x.object = cap o.object := he
    have hlt := (h.below x hx).1
    rw [he] at hlt
    omega
  parents := by
    refine List.nodup_cons.mpr ⟨fun hmem => ?_, h.parents⟩
    have hlt : o.parentCap.localName < n := by
      rcases List.mem_append.mp hmem with hmem | hmem
      · obtain ⟨x, hx, he⟩ := List.mem_map.mp hmem
        have he : x.parentCap = o.parentCap := he
        rw [← he]
        exact (h.below x hx).2
      · exact h.destroyedBelow _ hmem
    omega
  below x hx := by
    rcases List.mem_cons.mp hx with rfl | hx
    · exact ⟨hcap.2, hparent.2⟩
    · have hlt := h.below x hx
      omega
  destroyedBelow c hc := by
    have hlt := h.destroyedBelow c hc
    omega

/-! ### Destroying -/

theorem destroyObject_eq (o : Intercepted α) (s : ObjectSession α) :
    destroyObject cap o ⟨false, s⟩ = .ok ⟨false, removeObject cap o s⟩ := rfl

/-- **An unknown capability**: the call returns and changes nothing. -/
theorem destroyByCap_unknown {c : Cap}
    (h : c.localName ∉ s.objects.map fun o => (cap o.object).localName) :
    destroyByCap cap c ⟨false, s⟩ = .ok ⟨false, s⟩ := by
  refine withGuard_of_ok ?_
  simp only [findByBadge_eq_none.mpr h]

/-- **A known capability**: the helper asks for the lock that the call
holds. -/
theorem destroyByCap_known {c : Cap}
    (h : c.localName ∈ s.objects.map fun o => (cap o.object).localName) :
    destroyByCap cap c ⟨false, s⟩ = .error .lockedOut := by
  refine withGuard_of_error ?_
  cases hfind : findByBadge (fun x => (cap x.object).localName) c.localName s.objects with
  | none => exact absurd h (findByBadge_eq_none.mp hfind)
  | some o => exact withGuard_locked _ s

theorem WellKept.removeHead {o : Intercepted α} {os : List (Intercepted α)}
    (h : WellKept cap n s) (hobjects : s.objects = o :: os) :
    (removeObject cap o s).objects = os ∧ WellKept cap n (removeObject cap o s) := by
  have hhead : (removeObject cap o s).objects = os := by
    simp [removeObject, hobjects]
  have hcaps := h.caps
  have hparents := h.parents
  rw [hobjects] at hcaps hparents
  have hmem : o ∈ s.objects := by rw [hobjects]; exact List.mem_cons_self
  refine ⟨hhead, ?_, ?_, ?_, ?_, ?_, ?_, ?_⟩
  · have hperm := h.managed.erase (cap o.object)
    rw [hobjects, List.map_cons, List.erase_cons_head] at hperm
    rw [hhead]
    exact hperm
  · have hperm := h.mdAlloc.erase (cap o.object)
    rw [hobjects, List.map_cons, List.erase_cons_head] at hperm
    rw [hhead]
    exact hperm
  · have hperm := h.parent.erase o.parentCap
    rw [hobjects, List.map_cons, List.erase_cons_head] at hperm
    rw [hhead]
    exact hperm
  · rw [hhead]
    exact (List.nodup_cons.mp hcaps).2
  · rw [hhead]
    exact (List.perm_middle.nodup_iff).mpr hparents
  · rw [hhead]
    intro x hx
    exact h.below x (by rw [hobjects]; exact List.mem_cons_of_mem _ hx)
  · intro c hc
    rcases List.mem_cons.mp hc with rfl | hc
    · exact (h.below o hmem).2
    · exact h.destroyedBelow c hc

/-- **The destructor** returns; every object is gone. -/
theorem destroyObjects_spec (h : WellKept cap n s) :
    ∃ s', destroyObjects cap s.objects.length ⟨false, s⟩ = .ok ⟨false, s'⟩ ∧
      WellKept cap n s' ∧ s'.objects = [] ∧
      s'.destroyed = (s.objects.map (·.parentCap)).reverse ++ s.destroyed := by
  generalize hobjects : s.objects = os
  induction os generalizing s with
  | nil =>
      refine ⟨s, ?_, h, hobjects, by simp⟩
      simp only [List.length_nil, destroyObjects, hobjects]
  | cons o os ih =>
      obtain ⟨hhead, hkept⟩ := h.removeHead hobjects
      obtain ⟨s', hrun, hs', hempty, hdestroyed⟩ := ih hkept hhead
      refine ⟨s', ?_, hs', hempty, ?_⟩
      · simp only [List.length_cons, destroyObjects, hobjects]
        rw [andThen_of_ok (destroyObject_eq o s)]
        exact hrun
      · rw [hdestroyed, List.map_cons, List.reverse_cons, List.append_assoc]
        rfl

theorem WellKept.gone_of_empty (h : WellKept cap n s) (hempty : s.objects = [])
    {o : Intercepted α} (ho : o.parentCap ∈ s.destroyed) : Gone cap o s := by
  have hmanaged := h.managed
  have hmd := h.mdAlloc
  have hparent := h.parent
  have hparents := h.parents
  rw [hempty] at hmanaged hmd hparent hparents
  refine ⟨by simp [hempty], ?_, ?_, ?_, ?_⟩
  · rw [hmanaged.eq_nil]
    exact List.not_mem_nil
  · rw [hmd.eq_nil]
    exact List.not_mem_nil
  · rw [hparent.eq_nil]
    exact List.not_mem_nil
  · exact List.count_eq_one_of_mem hparents ho

theorem WellKept.destruct_gone {s' : ObjectSession α} (h : WellKept cap n s')
    (hempty : s'.objects = [])
    (hdestroyed : s'.destroyed = (s.objects.map (·.parentCap)).reverse ++ s.destroyed) :
    ∀ o ∈ s.objects, Gone cap o s' := by
  intro o ho
  refine h.gone_of_empty hempty ?_
  rw [hdestroyed]
  exact List.mem_append_left _ (List.mem_reverse.mpr (List.mem_map_of_mem ho))

end ObjectSession

/-! ## Runs of calls -/

/-- An RM session and a CPU session. `pdSessions` are the badges of the
PD sessions that `_pd_root` knows. -/
structure SessionWorld where
  rm : Guarded (ObjectSession RegionMapComponent)
  cpu : Guarded (ObjectSession CpuThreadComponent)
  pdSessions : List Nat
  core : Core
  bootstrapPhase : Bool

inductive SessionCall
  | create (size : Nat)
  | destroy (regionMapCap : Cap)
  | destructRm
  | createThread (childPdCap : Cap) (name : String) (affinity : Location) (weight utcb : Nat)
  | killThread (threadCap : Cap)
  | destructCpu

/-- One call; the parent's counterpart of a new object gets a capability
of its own. After a destructor the root has a new, empty session in the
place of the old one. -/
def SessionCall.exec : SessionCall → SessionWorld → Except Stuck SessionWorld
  | .create size, w =>
      let new := RegionMapComponent.create size w.bootstrapPhase w.core.newCap.2
      (RmSession.create w.core.newCap.1 new.1 w.rm).map fun rm =>
        { w with rm := rm, core := new.2 }
  | .destroy regionMapCap, w =>
      (RmSession.destroy regionMapCap w.rm).map fun rm => { w with rm := rm }
  | .destructRm, w => (RmSession.destruct w.rm).map fun rm => { w with rm := rm }
  | .createThread childPdCap name affinity weight utcb, w =>
      let new := CpuThreadComponent.create childPdCap name affinity weight utcb w.bootstrapPhase
        w.core.newCap.2
      let core := if w.pdSessions.contains childPdCap.localName then new.2 else w.core
      (CpuSession.createThread w.pdSessions w.core.newCap.1 new.1 w.cpu).map fun cpu =>
        { w with cpu := cpu, core := core }
  | .killThread threadCap, w =>
      (CpuSession.killThread threadCap w.cpu).map fun cpu => { w with cpu := cpu }
  | .destructCpu, w => (CpuSession.destruct w.cpu).map fun cpu => { w with cpu := cpu }

/-- A call that returned. -/
def SessionStep (w : SessionWorld) (call : SessionCall) (w' : SessionWorld) : Prop :=
  call.exec w = .ok w'

/-- Both sessions are new. -/
def SessionWorld.Initial (w : SessionWorld) : Prop :=
  w.rm = ⟨false, ⟨[], [], [], [], []⟩⟩ ∧ w.cpu = ⟨false, ⟨[], [], [], [], []⟩⟩

/-- The call is to destroy an object that the session knows. -/
def DestroysKnown (w : SessionWorld) : SessionCall → Prop
  | .destroy c => c.localName ∈ w.rm.data.objects.map fun o => o.object.cap.localName
  | .killThread c => c.localName ∈ w.cpu.data.objects.map fun o => o.object.cap.localName
  | .create _ | .destructRm | .createThread .. | .destructCpu => False

instance (w : SessionWorld) : DecidablePred (DestroysKnown w)
  | .destroy c =>
      inferInstanceAs (Decidable (c.localName ∈ w.rm.data.objects.map fun o =>
        o.object.cap.localName))
  | .killThread c =>
      inferInstanceAs (Decidable (c.localName ∈ w.cpu.data.objects.map fun o =>
        o.object.cap.localName))
  | .create _ => inferInstanceAs (Decidable False)
  | .destructRm => inferInstanceAs (Decidable False)
  | .createThread .. => inferInstanceAs (Decidable False)
  | .destructCpu => inferInstanceAs (Decidable False)

/-- What the objects a call destroys have come to. -/
def Destroyed (w : SessionWorld) (call : SessionCall) (w' : SessionWorld) : Prop :=
  match call with
  | .destroy c =>
      ∀ o ∈ w.rm.data.objects, o.object.cap.localName = c.localName →
        ObjectSession.Gone (·.cap) o w'.rm.data
  | .destructRm => ∀ o ∈ w.rm.data.objects, ObjectSession.Gone (·.cap) o w'.rm.data
  | .killThread c =>
      ∀ o ∈ w.cpu.data.objects, o.object.cap.localName = c.localName →
        ObjectSession.Gone (·.cap) o w'.cpu.data
  | .destructCpu => ∀ o ∈ w.cpu.data.objects, ObjectSession.Gone (·.cap) o w'.cpu.data
  | .create _ | .createThread .. => True

/-- The call returns, with every object it was to destroy gone. -/
def Returns (w : SessionWorld) (call : SessionCall) : Prop :=
  ∃ w', call.exec w = .ok w' ∧ Destroyed w call w'

/-- Between two calls no lock is held, and the lists agree. -/
structure SessionWorld.Between (w : SessionWorld) : Prop where
  rmFree : w.rm.locked = false
  cpuFree : w.cpu.locked = false
  rm : ObjectSession.WellKept (·.cap) w.core.nextBadge w.rm.data
  cpu : ObjectSession.WellKept (·.cap) w.core.nextBadge w.cpu.data

theorem ObjectSession.wellKept_empty {α : Type} (cap : α → Cap) (n : Nat) :
    WellKept cap n ⟨[], [], [], [], []⟩ :=
  ⟨.nil, .nil, .nil, List.nodup_nil, List.nodup_nil, fun _ h => absurd h List.not_mem_nil,
    fun _ h => absurd h List.not_mem_nil⟩

theorem SessionWorld.Initial.between {w : SessionWorld} (h : w.Initial) : w.Between where
  rmFree := by rw [h.1]
  cpuFree := by rw [h.2]
  rm := by rw [h.1]; exact ObjectSession.wellKept_empty _ _
  cpu := by rw [h.2]; exact ObjectSession.wellKept_empty _ _

/-! ### What a call does between two calls -/

theorem Guarded.eq_free {σ : Type} {s : Guarded σ} (h : s.locked = false) :
    s = ⟨false, s.data⟩ := by
  cases s
  cases h
  rfl

/-- **A destroy of a known object** asks for the lock it holds. -/
theorem SessionCall.exec_known {w : SessionWorld} (h : w.Between) {call : SessionCall}
    (hk : DestroysKnown w call) : call.exec w = .error .lockedOut := by
  cases call with
  | destroy c =>
      have hrun : RmSession.destroy c w.rm = .error .lockedOut := by
        rw [Guarded.eq_free h.rmFree]
        exact ObjectSession.destroyByCap_known hk
      simp only [exec, hrun]
      rfl
  | killThread c =>
      have hrun : CpuSession.killThread c w.cpu = .error .lockedOut := by
        rw [Guarded.eq_free h.cpuFree]
        exact ObjectSession.destroyByCap_known hk
      simp only [exec, hrun]
      rfl
  | create _ | destructRm | createThread _ _ _ _ _ | destructCpu => exact hk.elim

/-- **Every other call** returns, with the locks free and the lists in
agreement again. -/
theorem SessionCall.exec_unknown {w : SessionWorld} (h : w.Between) {call : SessionCall}
    (hk : ¬ DestroysKnown w call) :
    ∃ w', call.exec w = .ok w' ∧ w'.Between ∧ Destroyed w call w' := by
  cases call with
  | create size =>
      let new := RegionMapComponent.create size w.bootstrapPhase w.core.newCap.2
      let rm := ObjectSession.insertObject ⟨new.1, w.core.newCap.1⟩
        (ObjectSession.prepareObject (·.cap) ⟨new.1, w.core.newCap.1⟩ w.rm.data)
      have hrun : RmSession.create w.core.newCap.1 new.1 w.rm = .ok ⟨false, rm⟩ := by
        rw [Guarded.eq_free h.rmFree]
        rfl
      have hnext : new.2.nextBadge = w.core.nextBadge + 3 := rfl
      refine ⟨{ w with rm := ⟨false, rm⟩, core := new.2 }, ?_, ⟨rfl, h.cpuFree, ?_, ?_⟩, trivial⟩
      · show Except.map _ (RmSession.create w.core.newCap.1 new.1 w.rm) = _
        rw [hrun]
        rfl
      · refine h.rm.create ⟨?_, ?_⟩ ⟨Nat.le_refl _, ?_⟩
        · exact Nat.le_succ _
        · rw [hnext]
          exact Nat.add_lt_add_left (by decide) _
        · rw [hnext]
          exact Nat.lt_add_of_pos_right (by decide)
      · exact h.cpu.mono (by rw [hnext]; omega)
  | destroy c =>
      have hrun : RmSession.destroy c w.rm = .ok w.rm := by
        rw [Guarded.eq_free h.rmFree]
        exact ObjectSession.destroyByCap_unknown hk
      refine ⟨w, ?_, h, ?_⟩
      · simp only [exec, hrun]
        rfl
      · intro o ho hc
        exact absurd (List.mem_map.mpr ⟨o, ho, hc⟩) hk
  | destructRm =>
      obtain ⟨rm, hobjects, hkept, hempty, hdestroyed⟩ := ObjectSession.destroyObjects_spec h.rm
      have hrun : RmSession.destruct w.rm = .ok ⟨false, rm⟩ := by
        rw [Guarded.eq_free h.rmFree]
        exact hobjects
      refine ⟨{ w with rm := ⟨false, rm⟩ }, ?_, ⟨rfl, h.cpuFree, hkept, h.cpu⟩,
        hkept.destruct_gone hempty hdestroyed⟩
      simp only [exec, hrun]
      rfl
  | createThread childPdCap name affinity weight utcb =>
      let new := CpuThreadComponent.create childPdCap name affinity weight utcb w.bootstrapPhase
        w.core.newCap.2
      let cpu := ObjectSession.insertObject ⟨new.1, w.core.newCap.1⟩
        (ObjectSession.prepareObject (·.cap) ⟨new.1, w.core.newCap.1⟩ w.cpu.data)
      have hnext : new.2.nextBadge = w.core.nextBadge + 2 := rfl
      let core := if w.pdSessions.contains childPdCap.localName then new.2 else w.core
      have hexec : (SessionCall.createThread childPdCap name affinity weight utcb).exec w =
          (CpuSession.createThread w.pdSessions w.core.newCap.1 new.1 w.cpu).map fun cpu =>
            { w with cpu := cpu, core := core } := rfl
      by_cases hpd : w.pdSessions.contains childPdCap.localName = true
      · have hrun : CpuSession.createThread w.pdSessions w.core.newCap.1 new.1 w.cpu =
            .ok ⟨false, cpu⟩ := by
          rw [Guarded.eq_free h.cpuFree]
          exact if_pos hpd
        have hcore : core = new.2 := if_pos hpd
        refine ⟨{ w with cpu := ⟨false, cpu⟩, core := new.2 }, ?_, ⟨h.rmFree, rfl, ?_, ?_⟩,
          trivial⟩
        · rw [hexec, hrun, hcore]
          rfl
        · exact h.rm.mono (by rw [hnext]; omega)
        · refine h.cpu.create ⟨?_, ?_⟩ ⟨Nat.le_refl _, ?_⟩
          · exact Nat.le_succ _
          · rw [hnext]
            exact Nat.add_lt_add_left (by decide) _
          · rw [hnext]
            exact Nat.lt_add_of_pos_right (by decide)
      · -- an unknown PD session: the call throws, and the session is as before
        have hrun : CpuSession.createThread w.pdSessions w.core.newCap.1 new.1 w.cpu =
            .ok w.cpu := if_neg hpd
        have hcore : core = w.core := if_neg hpd
        refine ⟨w, ?_, h, trivial⟩
        rw [hexec, hrun, hcore]
        rfl
  | killThread c =>
      have hrun : CpuSession.killThread c w.cpu = .ok w.cpu := by
        rw [Guarded.eq_free h.cpuFree]
        exact ObjectSession.destroyByCap_unknown hk
      refine ⟨w, ?_, h, ?_⟩
      · simp only [exec, hrun]
        rfl
      · intro o ho hc
        exact absurd (List.mem_map.mpr ⟨o, ho, hc⟩) hk
  | destructCpu =>
      obtain ⟨cpu, hobjects, hkept, hempty, hdestroyed⟩ := ObjectSession.destroyObjects_spec h.cpu
      have hrun : CpuSession.destruct w.cpu = .ok ⟨false, cpu⟩ := by
        rw [Guarded.eq_free h.cpuFree]
        exact hobjects
      refine ⟨{ w with cpu := ⟨false, cpu⟩ }, ?_, ⟨h.rmFree, rfl, h.rm, hkept⟩,
        hkept.destruct_gone hempty hdestroyed⟩
      simp only [exec, hrun]
      rfl

theorem SessionStep.between {w w' : SessionWorld} {call : SessionCall} (h : w.Between)
    (hstep : SessionStep w call w') : w'.Between := by
  by_cases hk : DestroysKnown w call
  · have hstuck := SessionCall.exec_known h hk
    rw [SessionStep, hstuck] at hstep
    cases hstep
  · obtain ⟨w'', hrun, hbetween, -⟩ := SessionCall.exec_unknown h hk
    rw [SessionStep, hrun] at hstep
    rw [← Except.ok.inj hstep]
    exact hbetween

/-- **A call returns if and only if it is not to destroy a known
object**, in every state that calls lead to. -/
theorem returns_iff_of_run {w₀ w : SessionWorld} (h₀ : w₀.Initial)
    (hrun : Run SessionStep (fun _ _ => True) w₀ w) (call : SessionCall) :
    Returns w call ↔ ¬ DestroysKnown w call := by
  have h : w.Between :=
    Run.invariant (I := SessionWorld.Between)
      (fun _ _ _ hw _ hstep => SessionStep.between hw hstep) hrun h₀.between
  constructor
  · rintro ⟨w', hcall, -⟩ hk
    rw [SessionCall.exec_known h hk] at hcall
    cases hcall
  · intro hk
    obtain ⟨w', hcall, -, hgone⟩ := SessionCall.exec_unknown h hk
    exact ⟨w', hcall, hgone⟩

/-! ### A run -/

/-- Two new sessions, capabilities from 10 on. -/
def newSessions : SessionWorld where
  rm := ⟨false, ⟨[], [], [], [], []⟩⟩
  cpu := ⟨false, ⟨[], [], [], [], []⟩⟩
  pdSessions := [5]
  core := ⟨10, fun _ _ => 0, 0, 0⟩
  bootstrapPhase := false

/-- The region map of `create` with its own capability 11; 10 is the
parent's. -/
def createdMap : Intercepted RegionMapComponent :=
  ⟨(RegionMapComponent.create 4096 false newSessions.core.newCap.2).1, ⟨10⟩⟩

def oneMap : SessionWorld :=
  { newSessions with
    rm := ⟨false, ⟨[createdMap], [⟨11⟩], [⟨11⟩], [⟨10⟩], []⟩⟩
    core := ⟨13, fun _ _ => 0, 0, 0⟩ }

/-- **The destruction of a region map locks itself out**: `create` and
then `destroy` of its result. -/
theorem destroy_created_locked_out :
    newSessions.Initial ∧ SessionStep newSessions (.create 4096) oneMap ∧
      (SessionCall.destroy ⟨11⟩).exec oneMap = .error .lockedOut ∧
      ¬ Returns oneMap (.destroy ⟨11⟩) := by
  have hlocked : (SessionCall.destroy ⟨11⟩).exec oneMap = .error .lockedOut := rfl
  refine ⟨⟨rfl, rfl⟩, rfl, hlocked, ?_⟩
  rintro ⟨w', hcall, -⟩
  rw [hlocked] at hcall
  cases hcall

theorem returns_iff_of_run_created :
    Returns oneMap .destructRm ∧ ¬ Returns oneMap (.destroy ⟨11⟩) := by
  have hrun : Run SessionStep (fun _ _ => True) newSessions oneMap :=
    (Run.refl newSessions).tail (a := .create 4096) trivial rfl
  have hi : newSessions.Initial := ⟨rfl, rfl⟩
  exact ⟨(returns_iff_of_run hi hrun .destructRm).mpr (by decide),
    fun h => (returns_iff_of_run hi hrun (.destroy ⟨11⟩)).mp h (by decide)⟩

end Rtcr
