import Rtcr.Target.RestoredEntries

/-!
# Target.Steps — what one request does to the entries

Whatever a child asks for, what it gains has badges that core has just
handed out and is marked with the phase that the request leaves the child
in (`Step.gains`), and no root goes (`Step.roots`). A session request may
come with a restoration.
-/

namespace Rtcr

open Fallible Fresh Reconcile

/-! ## A restoration -/

section Restore

variable {g : Genode} {st : TargetState} {child child' : TargetChild} {core core' : Core}

theorem restoreCapMap_core {infos : List CapKcapInfo}
    (h : restoreCapMap g child st infos core = .ok core') :
    core' = { core with bytes := core'.bytes } := by
  obtain ⟨arrays, -, hrest⟩ := bind_eq_ok.mp h
  obtain ⟨linked, hloop, hlast⟩ := bind_eq_ok.mp hrest
  cases hlast
  refine loop_keeps (I := fun x : Nat × Core => x.2 = { core with bytes := x.2.bytes }) ?_ hloop rfl
  intro info _ x x' hx hstep
  unfold linkCapIndex at hstep
  dsimp only at hstep
  split at hstep
  · cases hstep
    exact hx
  · split at hstep
    · cases hstep
      rw [hx]
    · cases hstep

theorem restoreObjects_gains {r r' : Restorer} {s : CustomServices}
    (h : Restorer.restoreObjects g st child r = .ok (s, r')) :
    Gains child.inBootstrap r.core r'.core child.services.entries s.entries := by
  obtain ⟨identified, hid, hstate⟩ := bind_eq_ok.mp h
  have hgain := identifyRecreate_gains hid
  obtain ⟨hentries, hcore⟩ := restoreState_entries hstate
  rw [hentries, hcore]
  exact hgain

theorem untilCopy_gains {r : Restorer} {before : BeforeCopy}
    (h : Restorer.untilCopy g st child r = .ok before) :
    Gains child.inBootstrap r.core before.restorer.core child.services.entries
        before.child.services.entries ∧
      before.child = { child with services := before.child.services } := by
  obtain ⟨⟨s, r'⟩, hobjects, hrest⟩ := bind_eq_ok.mp h
  obtain ⟨core₁, hmap, hlast⟩ := bind_eq_ok.mp hrest
  cases hlast
  have hcore₁ := congrArg Core.nextBadge (restoreCapMap_core hmap)
  refine ⟨?_, rfl⟩
  have hsame : Gains child.inBootstrap r'.core core₁ s.entries s.entries :=
    .of_le hcore₁.ge le_rfl
  exact (restoreObjects_gains hobjects).trans hsame

/-- **A restoration** keeps what is there; what it adds has new badges
and the mark of the phase. -/
theorem restore_gains (h : Restorer.restore g st child (.new core) = .ok (child', core')) :
    Gains child.inBootstrap core core' child.services.entries child'.services.entries ∧
      child' = { child with services := child'.services } := by
  obtain ⟨before, hbefore, hrest⟩ := bind_eq_ok.mp h
  obtain ⟨hgain, hchild⟩ := untilCopy_gains hbefore
  cases hcopy : Restorer.restoreDataspaces before.restorer.memoryToRestore before.restorer.core with
  | mk thrown core₂ =>
      simp only [hcopy] at hrest
      cases thrown with
      | some e => cases hrest
      | none =>
          cases hrest
          have hbytes := copyMemory_eq (congrArg Prod.fst hcopy)
          have hcore : core'.nextBadge = before.restorer.core.nextBadge := by
            unfold Restorer.restoreDataspaces at hcopy
            rw [hcopy] at hbytes
            have hnext := congrArg Core.nextBadge hbytes
            exact hnext
          have hsame : Gains child.inBootstrap before.restorer.core core'
              before.child.services.entries before.child.services.entries :=
            .of_le hcore.ge le_rfl
          exact ⟨hgain.trans hsame, hchild⟩

end Restore

/-! ## Requests -/

/-- A request for a session of the LOG service. -/
def ChildRequest.forLog : ChildRequest → Bool
  | .session name _ => name == "LOG"
  | _ => false

namespace MonitoredChild

def entries (m : MonitoredChild) : Multiset Entry := m.child.services.entries

section Session

variable {g : Genode} {m m' : MonitoredChild} {name : String}

@[simp] theorem sessionInfos_orEmpty {α : Type} (root : Option (List α)) :
    sessionInfos (orEmpty root) = sessionInfos root := by
  cases root <;> rfl

/-- Looking a service up creates a root at most. -/
theorem findCustom_entries (name : String) (m : MonitoredChild) :
    (m.findCustom name).2.entries = m.entries ∧ (m.findCustom name).2.core = m.core ∧
      (m.findCustom name).2.child.inBootstrap = m.child.inBootstrap ∧
      (m.findCustom name).2.restorer = m.restorer := by
  unfold findCustom
  split_ifs <;> simp [entries, setServices, CustomServices.entries]

theorem lookup_entries (name : String) (m : MonitoredChild) :
    (m.lookup name).2.entries = m.entries ∧ (m.lookup name).2.core = m.core ∧
      (m.lookup name).2.child.inBootstrap = m.child.inBootstrap ∧
      (m.lookup name).2.restorer = m.restorer := by
  have h := findCustom_entries name m
  unfold lookup
  split
  · exact ⟨rfl, rfl, rfl, rfl⟩
  · split
    · rename_i hfind
      rw [hfind] at h
      exact h
    · rename_i hfind
      rw [hfind] at h
      exact h

theorem endBootstrap_inBootstrap (name : String) (m : MonitoredChild) :
    (m.endBootstrap name).child.inBootstrap = (m.child.inBootstrap && !(name == "LOG")) := by
  unfold endBootstrap
  by_cases hname : name = "LOG"
  · cases hboot : m.child.inBootstrap <;> simp [hname, hboot]
  · simp [hname]

theorem endBootstrap_same (name : String) (m : MonitoredChild) :
    (m.endBootstrap name).entries = m.entries ∧ (m.endBootstrap name).core = m.core ∧
      (m.endBootstrap name).restorer = m.restorer := by
  unfold endBootstrap
  split <;> exact ⟨rfl, rfl, rfl⟩

/-- **The hook**: a restoration, or nothing. -/
theorem hook_gains (h : m.hook g name = .ok m') :
    Gains m.child.inBootstrap m.core m'.core m.entries m'.entries ∧
      m'.child.inBootstrap = m.child.inBootstrap ∧
      m'.restorer = if name = "LOG" then none else m.restorer := by
  unfold hook at h
  split at h
  · rename_i hname
    split at h
    · obtain ⟨restored, hrun, hlast⟩ := bind_eq_ok.mp h
      cases hlast
      obtain ⟨hgain, hchild⟩ := restore_gains hrun
      have hboot := congrArg TargetChild.inBootstrap hchild
      exact ⟨hgain, hboot, (if_pos hname).symm⟩
    · rename_i hnone
      cases h
      exact ⟨.refl .., rfl, by rw [if_pos hname, hnone]⟩
  · rename_i hname
    cases h
    exact ⟨.refl .., rfl, (if_neg hname).symm⟩

theorem createSession_gains (g : Genode) (args : String) (service : CustomService)
    (m : MonitoredChild) :
    Gains m.child.inBootstrap m.core (m.createSession g args service).core m.entries
      (m.createSession g args service).entries := by
  cases service with
  | pd => exact CustomServices.gains_pd _ (gains_of_new _ (PdSessionComponent.create_gains ..))
  | cpu => exact CustomServices.gains_cpu _ (gains_of_new _ (CpuSessionComponent.create_gains ..))
  | ram => exact CustomServices.gains_ram _ (gains_of_new _ (RamSessionComponent.create_gains ..))
  | rom => exact .of_le (Nat.le_succ _) le_rfl
  | rm =>
      apply CustomServices.gains_rm
      cases m.child.services.rmRoot with
      | none => exact .of_le (Nat.le_succ _) le_rfl
      | some _ => exact gains_of_new _ (RmSessionComponent.create_gains ..)
  | log =>
      apply CustomServices.gains_log
      cases m.child.services.logRoot with
      | none => exact .of_le (Nat.le_succ _) le_rfl
      | some _ => exact gains_of_new _ (LogSessionComponent.create_gains ..)
  | timer =>
      apply CustomServices.gains_timer
      cases m.child.services.timerRoot with
      | none => exact .of_le (Nat.le_succ _) le_rfl
      | some _ => exact gains_of_new _ (TimerSessionComponent.create_gains ..)

theorem createSession_same (g : Genode) (args : String) (service : CustomService)
    (m : MonitoredChild) :
    (m.createSession g args service).child.inBootstrap = m.child.inBootstrap ∧
      (m.createSession g args service).restorer = m.restorer := by
  cases service <;> exact ⟨rfl, rfl⟩

/-- A session request, in its steps. -/
theorem openSession_cases {args : String} (h : m.openSession g name args = .ok m') :
    ∃ m₁, (m.endBootstrap name).hook g name = .ok m₁ ∧
      ((∃ service, (m₁.lookup name).1 = .custom service ∧
          m' = (m₁.lookup name).2.createSession g args service) ∨
        (∃ parent, (m₁.lookup name).1 = .parent parent ∧ m' = (m₁.lookup name).2)) := by
  obtain ⟨⟨service, m₂⟩, hresolve, hlast⟩ := bind_eq_ok.mp h
  obtain ⟨m₁, hhook, hlookup⟩ := bind_eq_ok.mp hresolve
  refine ⟨m₁, hhook, ?_⟩
  have hpair : m₁.lookup name = (service, m₂) := Except.ok.inj hlookup
  rw [hpair]
  cases service with
  | custom service =>
      cases hlast
      exact .inl ⟨service, rfl, rfl⟩
  | parent parent =>
      cases hlast
      exact .inr ⟨parent, rfl, rfl⟩

theorem openSession_gains {args : String} (h : m.openSession g name args = .ok m') :
    m'.child.inBootstrap = (m.child.inBootstrap && !(name == "LOG")) ∧
      m'.restorer = (if name = "LOG" then none else m.restorer) ∧
      Gains m'.child.inBootstrap m.core m'.core m.entries m'.entries := by
  obtain ⟨m₁, hhook, hcases⟩ := openSession_cases h
  obtain ⟨hgain, hboot, hrestorer⟩ := hook_gains hhook
  obtain ⟨hentries, hcore, hrest⟩ := endBootstrap_same name m
  obtain ⟨hentries', hcore', hboot', hrestorer'⟩ := lookup_entries name m₁
  rw [hentries, hcore] at hgain
  rw [hrest] at hrestorer
  have hend := endBootstrap_inBootstrap name m
  rcases hcases with ⟨service, -, rfl⟩ | ⟨parent, -, rfl⟩
  · obtain ⟨hsame, hsame'⟩ := createSession_same g args service (m₁.lookup name).2
    have hnew := createSession_gains g args service (m₁.lookup name).2
    rw [hentries', hcore', hboot', hboot] at hnew
    rw [hsame, hsame', hboot', hrestorer', hboot]
    exact ⟨hend, hrestorer, hgain.trans hnew⟩
  · rw [hboot', hrestorer', hboot, hentries', hcore']
    exact ⟨hend, hrestorer, hgain⟩

end Session

/-- A root that may be missing. -/
theorem total_sessionInfos_map {α : Type} {w : α → Multiset Entry} {f : List α → List α}
    (hf : ∀ l, total w (f l) ≤ total w l) (root : Option (List α)) :
    total w (sessionInfos (root.map f)) ≤ total w (sessionInfos root) := by
  cases root with
  | none => exact le_rfl
  | some l => exact hf l

theorem upgrade_gains (g : Genode) (args : String) (cap : Cap) (service : CustomService)
    (boot : Bool) (m : MonitoredChild) :
    Gains boot m.core m.core m.entries (m.upgrade g args cap service).entries := by
  have hfirst : ∀ {α : Type} (w : α → Multiset Entry) (p : α → Bool) (f : α → α),
      (∀ x, w (f x) = w x) → ∀ l, total w (List.modifyFirst p f l) ≤ total w l :=
    fun _ _ _ hf l => (total_modifyFirst hf l).le
  cases service with
  | pd =>
      apply CustomServices.gains_pd
      exact .of_le le_rfl (hfirst _ _ (PdSessionComponent.upgrade g args) (fun _ => rfl) _)
  | cpu =>
      apply CustomServices.gains_cpu
      exact .of_le le_rfl (hfirst _ _ (CpuSessionComponent.upgrade g args) (fun _ => rfl) _)
  | ram =>
      apply CustomServices.gains_ram
      exact .of_le le_rfl (hfirst _ _ (RamSessionComponent.upgrade g args) (fun _ => rfl) _)
  | rom => exact .refl ..
  | rm =>
      apply CustomServices.gains_rm
      exact .of_le le_rfl
        (total_sessionInfos_map (hfirst _ _ (RmSessionComponent.upgrade g args) fun _ => rfl) _)
  | log =>
      apply CustomServices.gains_log
      exact .of_le le_rfl
        (total_sessionInfos_map (hfirst _ _ (LogSessionComponent.upgrade g args) fun _ => rfl) _)
  | timer =>
      apply CustomServices.gains_timer
      exact .of_le le_rfl
        (total_sessionInfos_map (hfirst _ _ (TimerSessionComponent.upgrade g args) fun _ => rfl) _)

theorem close_gains (cap : Cap) (service : CustomService) (boot : Bool) (m : MonitoredChild) :
    Gains boot m.core m.core m.entries (m.close cap service).entries := by
  have herase : ∀ {α : Type} (w : α → Multiset Entry) (p : α → Bool) (l : List α),
      total w (l.eraseP p) ≤ total w l := fun _ _ _ => total_le List.eraseP_sublist
  cases service with
  | pd =>
      unfold close
      dsimp only
      split
      · exact .refl ..
      · exact CustomServices.gains_pd _ (.of_le le_rfl (herase ..))
  | cpu =>
      unfold close
      dsimp only
      split
      · exact .refl ..
      · exact CustomServices.gains_cpu _ (.of_le le_rfl (herase ..))
  | ram =>
      unfold close
      dsimp only
      split
      · exact .refl ..
      · exact CustomServices.gains_ram _ (.of_le le_rfl (herase ..))
  | rom => exact .refl ..
  | rm =>
      exact CustomServices.gains_rm _ (.of_le le_rfl (total_sessionInfos_map (herase _ _) _))
  | log =>
      exact CustomServices.gains_log _ (.of_le le_rfl (total_sessionInfos_map (herase _ _) _))
  | timer =>
      exact CustomServices.gains_timer _ (.of_le le_rfl (total_sessionInfos_map (herase _ _) _))

/-- **One request**: the phase, the state to restore and the entries
afterwards. -/
theorem Step.gains {g : Genode} {m m' : MonitoredChild} {request : ChildRequest}
    (h : m.Step g request m') :
    m'.child.inBootstrap = (m.child.inBootstrap && !request.forLog) ∧
      m'.restorer = (if request.forLog = true then none else m.restorer) ∧
      Gains m'.child.inBootstrap m.core m'.core m.entries m'.entries := by
  unfold Step at h
  cases request with
  | session name args =>
      obtain ⟨hboot, hrestorer, hgain⟩ := openSession_gains h
      refine ⟨hboot, ?_, hgain⟩
      rw [hrestorer]
      simp [ChildRequest.forLog]
  | upgrade service cap args =>
      cases h
      have hsame : (m.upgrade g args cap service).child.inBootstrap = m.child.inBootstrap ∧
          (m.upgrade g args cap service).core = m.core ∧
          (m.upgrade g args cap service).restorer = m.restorer := by
        cases service <;> exact ⟨rfl, rfl, rfl⟩
      rw [hsame.1, hsame.2.1, hsame.2.2]
      exact ⟨by simp [ChildRequest.forLog], rfl, upgrade_gains ..⟩
  | close service cap =>
      cases h
      have hsame : (m.close cap service).child.inBootstrap = m.child.inBootstrap ∧
          (m.close cap service).core = m.core ∧ (m.close cap service).restorer = m.restorer := by
        unfold close
        cases service <;> dsimp only <;> try split
        all_goals exact ⟨rfl, rfl, rfl⟩
      rw [hsame.1, hsame.2.1, hsame.2.2]
      exact ⟨by simp [ChildRequest.forLog], rfl, close_gains ..⟩
  | pd cap request =>
      cases h
      refine ⟨by simp [ChildRequest.forLog, setServed, setServices], rfl, ?_⟩
      exact CustomServices.gains_pd _
        (Gains.serveAt cap (fun pd core => pd.serve_gains request core) _ _)
  | cpu cap request =>
      cases h
      refine ⟨by simp [ChildRequest.forLog, setServed, setServices], rfl, ?_⟩
      exact CustomServices.gains_cpu _
        (Gains.serveAt cap (fun s core => s.serve_gains _ request core) _ _)
  | ram cap request =>
      cases h
      refine ⟨by simp [ChildRequest.forLog, setServed, setServices], rfl, ?_⟩
      exact CustomServices.gains_ram _
        (Gains.serveAt cap (fun s core => s.serve_gains request core) _ _)
  | rm cap request =>
      unfold serve at h
      dsimp only at h
      split at h
      · rename_i sessions hroot
        cases h
        refine ⟨by simp [ChildRequest.forLog, setServed, setServices], rfl, ?_⟩
        apply CustomServices.gains_rm
        rw [hroot]
        exact Gains.serveAt cap (fun s core => s.serve_gains request core) _ _
      · cases h
        exact ⟨by simp [ChildRequest.forLog], rfl, .refl ..⟩
  | timer cap request =>
      cases h
      refine ⟨by simp [ChildRequest.forLog, setServices], rfl, ?_⟩
      exact CustomServices.gains_timer _ (.of_le le_rfl
        (total_sessionInfos_map (fun l => le_of_eq (total_modifyFirst (·.serve_entries request) l)) _))
  | capMapInfo addr =>
      cases h
      exact ⟨by simp [ChildRequest.forLog], rfl, .refl ..⟩
  | elsewhere badges ramDataspaces nativeCapabilities bytes =>
      cases h
      exact ⟨by simp [ChildRequest.forLog], rfl, .of_le (Nat.le_add_right _ _) le_rfl⟩

end MonitoredChild

/-! ## Roots stay -/

/-- A root that is there does not go. -/
structure RootsKept (s s' : CustomServices) : Prop where
  rm : s'.rmRoot = none → s.rmRoot = none
  log : s'.logRoot = none → s.logRoot = none
  timer : s'.timerRoot = none → s.timerRoot = none

theorem RootsKept.refl (s : CustomServices) : RootsKept s s := ⟨id, id, id⟩

theorem RootsKept.trans {s s' s'' : CustomServices} (h : RootsKept s s') (h' : RootsKept s' s'') :
    RootsKept s s'' := ⟨h.rm ∘ h'.rm, h.log ∘ h'.log, h.timer ∘ h'.timer⟩

section Roots

variable {τ χ : Type} {g : Genode} {st : TargetState} {child child' : TargetChild}

theorem identifyRecreateSessions_root {k : RestoKind τ χ} {stored : List τ}
    {root root' : Option (List χ)} {r r' : Restorer}
    (h : identifyRecreateSessions k stored root r = .ok (root', r')) (hnone : root' = none) :
    root = none := by
  unfold identifyRecreateSessions at h
  split at h
  · cases h
    exact hnone
  · cases hrun : k.run stored (sessionInfos root) r with
    | error e =>
        rw [hrun] at h
        cases h
    | ok x =>
        rw [hrun] at h
        cases h
        cases hnone

theorem restoreStateSessions_root {k : StateKind τ χ} {stored : List τ}
    {root root' : Option (List χ)} {r r' : Restorer}
    (h : restoreStateSessions k stored root r = .ok (root', r')) (hnone : root' = none) :
    root = none := by
  rcases restoreStateSessions_cases h with ⟨hroot, -, -⟩ | ⟨objects, objects', -, hroot', -⟩
  · exact hroot
  · rw [hroot'] at hnone
    cases hnone

theorem restoreObjects_roots {r r' : Restorer} {s : CustomServices}
    (h : Restorer.restoreObjects g st child r = .ok (s, r')) : RootsKept child.services s := by
  obtain ⟨⟨s₁, r₁⟩, hid, hstate⟩ := bind_eq_ok.mp h
  obtain ⟨identified⟩ := identifyRecreate_cases hid
  obtain ⟨restored⟩ := restoreState_cases hstate
  have hid : RootsKept child.services s₁ :=
    ⟨identifyRecreateSessions_root identified.rm, identifyRecreateSessions_root identified.log,
      identifyRecreateSessions_root identified.timer⟩
  exact hid.trans ⟨restoreStateSessions_root restored.rm, restoreStateSessions_root restored.log,
    restoreStateSessions_root restored.timer⟩

theorem restore_roots {core core' : Core}
    (h : Restorer.restore g st child (.new core) = .ok (child', core')) :
    RootsKept child.services child'.services := by
  obtain ⟨before, hbefore, hrest⟩ := bind_eq_ok.mp h
  obtain ⟨⟨s, r'⟩, hobjects, hmap⟩ := bind_eq_ok.mp hbefore
  obtain ⟨core₁, -, hlast⟩ := bind_eq_ok.mp hmap
  cases hlast
  have hkept := restoreObjects_roots hobjects
  split at hrest <;> cases hrest
  exact hkept

end Roots

namespace MonitoredChild

variable {g : Genode} {m m' : MonitoredChild} {request : ChildRequest}

theorem orEmpty_ne_none {α : Type} (root : Option (List α)) : orEmpty root ≠ none := nofun

theorem findCustom_roots (name : String) (m : MonitoredChild) :
    RootsKept m.child.services (m.findCustom name).2.child.services := by
  unfold findCustom
  dsimp only
  split_ifs
  all_goals first
    | exact .refl _
    | exact ⟨fun h => absurd h (orEmpty_ne_none _), id, id⟩
    | exact ⟨id, fun h => absurd h (orEmpty_ne_none _), id⟩
    | exact ⟨id, id, fun h => absurd h (orEmpty_ne_none _)⟩

theorem lookup_roots (name : String) (m : MonitoredChild) :
    RootsKept m.child.services (m.lookup name).2.child.services := by
  have h := findCustom_roots name m
  unfold lookup
  split
  · exact .refl _
  · split
    · rename_i hfind
      rw [hfind] at h
      exact h
    · rename_i hfind
      rw [hfind] at h
      exact h

theorem hook_roots {name : String} (h : m.hook g name = .ok m') :
    RootsKept m.child.services m'.child.services := by
  unfold hook at h
  split at h
  · split at h
    · obtain ⟨restored, hrun, hlast⟩ := bind_eq_ok.mp h
      cases hlast
      exact restore_roots hrun
    · cases h
      exact .refl _
  · cases h
    exact .refl _

theorem createSession_roots (g : Genode) (args : String) (service : CustomService)
    (m : MonitoredChild) :
    RootsKept m.child.services (m.createSession g args service).child.services := by
  cases service with
  | pd | cpu | ram | rom => exact ⟨id, id, id⟩
  | rm => exact ⟨Option.map_eq_none_iff.mp, id, id⟩
  | log => exact ⟨id, Option.map_eq_none_iff.mp, id⟩
  | timer => exact ⟨id, id, Option.map_eq_none_iff.mp⟩

theorem upgrade_roots (g : Genode) (args : String) (cap : Cap) (service : CustomService)
    (m : MonitoredChild) :
    RootsKept m.child.services (m.upgrade g args cap service).child.services := by
  cases service with
  | pd | cpu | ram | rom => exact ⟨id, id, id⟩
  | rm => exact ⟨Option.map_eq_none_iff.mp, id, id⟩
  | log => exact ⟨id, Option.map_eq_none_iff.mp, id⟩
  | timer => exact ⟨id, id, Option.map_eq_none_iff.mp⟩

theorem close_roots (cap : Cap) (service : CustomService) (m : MonitoredChild) :
    RootsKept m.child.services (m.close cap service).child.services := by
  cases service with
  | pd | cpu | ram =>
      unfold close
      dsimp only
      split <;> exact ⟨id, id, id⟩
  | rom => exact ⟨id, id, id⟩
  | rm => exact ⟨Option.map_eq_none_iff.mp, id, id⟩
  | log => exact ⟨id, Option.map_eq_none_iff.mp, id⟩
  | timer => exact ⟨id, id, Option.map_eq_none_iff.mp⟩

/-- **Roots stay**, whatever a child asks for. -/
theorem Step.roots (h : m.Step g request m') : RootsKept m.child.services m'.child.services := by
  unfold Step at h
  cases request with
  | session name args =>
      obtain ⟨m₁, hhook, hcases⟩ := openSession_cases h
      have hend : (m.endBootstrap name).child.services = m.child.services := by
        unfold endBootstrap
        split <;> rfl
      have hfirst := (hook_roots hhook).trans (lookup_roots name m₁)
      rw [hend] at hfirst
      rcases hcases with ⟨service, -, rfl⟩ | ⟨parent, -, rfl⟩
      · exact hfirst.trans (createSession_roots ..)
      · exact hfirst
  | upgrade service cap args =>
      cases h
      exact upgrade_roots ..
  | close service cap =>
      cases h
      exact close_roots ..
  | rm cap request =>
      unfold serve at h
      dsimp only at h
      split at h
      · cases h
        exact ⟨nofun, id, id⟩
      · cases h
        exact .refl _
  | timer cap request =>
      cases h
      exact ⟨id, id, Option.map_eq_none_iff.mp⟩
  | _ =>
      cases h
      exact ⟨id, id, id⟩

end MonitoredChild

end Rtcr
