import Rtcr.Restorer.Steps
import Rtcr.Restorer.UnknownOrigin
import Rtcr.Target.Entries

/-!
# Target.RestoredEntries — what a restoration does to the entries

Objects that are identified stay, and those that are created again get
new badges and the mark of the phase; restoring a state changes no entry.
-/

namespace Rtcr

open Fallible Fresh Reconcile

/-! ## New sessions -/

section Create

variable {boot : Bool} {α : Type} {core core' : Core}

theorem gains_of_new {w : α → Multiset Entry} {x : α} (l : List α)
    (h : Gains boot core core' 0 (w x)) : Gains boot core core' (total w l) (total w (x :: l)) := by
  have hframe := Grows.frame_right h (total w l)
  rw [zero_add] at hframe
  exact hframe

/-- A session of which there is one entry. -/
theorem gains_single {e : Entry} (hge : core.nextBadge ≤ e.badge) (hlt : e.badge < core'.nextBadge)
    (hmark : e.bootstrapped = boot) : Gains boot core core' 0 {e} := by
  have hone : Gains boot core core' 0 ({e} + 0) := Grows.one hge hlt hmark
  rwa [add_zero] at hone

variable (boot) (core) (g : Genode) (args : String)

theorem CpuSessionComponent.create_gains :
    Gains boot core (CpuSessionComponent.create g boot args core).2 0
      (CpuSessionComponent.create g boot args core).1.entries :=
  gains_single le_rfl (Nat.lt_succ_self _) rfl

theorem RamSessionComponent.create_gains (granularity : Nat) :
    Gains boot core (RamSessionComponent.create g granularity boot args core).2 0
      (RamSessionComponent.create g granularity boot args core).1.entries :=
  gains_single le_rfl (Nat.lt_succ_self _) rfl

theorem RmSessionComponent.create_gains :
    Gains boot core (RmSessionComponent.create g boot args core).2 0
      (RmSessionComponent.create g boot args core).1.entries :=
  gains_single le_rfl (Nat.lt_succ_self _) rfl

theorem LogSessionComponent.create_gains :
    Gains boot core (LogSessionComponent.create g boot args core).2 0
      (LogSessionComponent.create g boot args core).1.entries :=
  gains_single le_rfl (Nat.lt_succ_self _) rfl

theorem TimerSessionComponent.create_gains :
    Gains boot core (TimerSessionComponent.create g boot args core).2 0
      (TimerSessionComponent.create g boot args core).1.entries :=
  gains_single le_rfl (Nat.lt_succ_self _) rfl

/-- A PD session comes with three region maps, each with a dataspace. -/
theorem PdSessionComponent.create_gains :
    Gains boot core (PdSessionComponent.create g boot args core).2 0
      (PdSessionComponent.create g boot args core).1.entries := by
  let pd := (PdSessionComponent.create g boot args core).1
  have hnew : pd.entries =
      ↑[pd.entry, pd.addressSpace.entry, pd.stackArea.entry, pd.linkerArea.entry] := rfl
  have hpd : pd.entry.badge = core.nextBadge + 6 := rfl
  have haddressSpace : pd.addressSpace.entry.badge = core.nextBadge := rfl
  have hstackArea : pd.stackArea.entry.badge = core.nextBadge + 2 := rfl
  have hlinkerArea : pd.linkerArea.entry.badge = core.nextBadge + 4 := rfl
  have hmarks : pd.entry.bootstrapped = boot ∧ pd.addressSpace.entry.bootstrapped = boot ∧
      pd.stackArea.entry.bootstrapped = boot ∧ pd.linkerArea.entry.bootstrapped = boot :=
    ⟨rfl, rfl, rfl, rfl⟩
  have hnext : (PdSessionComponent.create g boot args core).2.nextBadge = core.nextBadge + 7 := rfl
  show Gains _ _ _ _ pd.entries
  rw [hnew]
  refine ⟨by omega, _, ⟨?_, ?_⟩, (add_zero _).ge⟩
  · rw [Multiset.map_coe, Multiset.coe_nodup]
    simp [hpd, haddressSpace, hstackArea, hlinkerArea]
  · simp [hpd, haddressSpace, hstackArea, hlinkerArea, hnext, hmarks]

end Create

/-! ## Identified and recreated objects -/

section Identify

variable {τ χ : Type} {boot : Bool}

theorem RestoKind.step_gains (k : RestoKind τ χ) (w : χ → Multiset Entry)
    (hrec : ∀ t r c r₁, k.recreate t r = .ok (c, r₁) → Gains boot r.core r₁.core 0 (w c))
    (hparts : ∀ t c r c' r', k.parts t c r = .ok (c', r') →
      Gains boot r.core r'.core (w c) (w c'))
    {t : τ} {x x' : List χ × Restorer} (h : k.step t x = .ok x') :
    Gains boot x.2.core x'.2.core (total w x.1) (total w x'.1) := by
  obtain ⟨objects, r⟩ := x
  obtain ⟨objects', r'⟩ := x'
  rcases k.step_cases h with ⟨c, c', -, hfind, hp, rfl⟩ | ⟨c, c', r₁, -, hr, hp, rfl⟩
  · obtain ⟨before, after, rfl, -, hmod⟩ := List.modifyFirst_split (f := fun _ => c') hfind
    have hgain := hparts t c _ c' r' hp
    rw [hmod, total_append, total_append, total_cons, total_cons]
    exact (hgain.frame_right _).frame _
  · have hgain := hparts t c _ c' r' hp
    exact gains_of_new _ ((hrec t r c r₁ hr).trans hgain)

/-- **A kind of objects**: those that are there stay, up to their parts. -/
theorem RestoKind.run_gains (k : RestoKind τ χ) (w : χ → Multiset Entry)
    (hrec : ∀ t r c r₁, k.recreate t r = .ok (c, r₁) → Gains boot r.core r₁.core 0 (w c))
    (hparts : ∀ t c r c' r', k.parts t c r = .ok (c', r') →
      Gains boot r.core r'.core (w c) (w c'))
    {stored : List τ} {objects objects' : List χ} {r r' : Restorer}
    (h : k.run stored objects r = .ok (objects', r')) :
    Gains boot r.core r'.core (total w objects) (total w objects') :=
  loop_rel (I := fun _ _ => True)
    (R := fun _ (x x' : List χ × Restorer) =>
      Gains boot x.2.core x'.2.core (total w x.1) (total w x'.1))
    (fun _ _ => .refl ..) (fun _ _ _ _ _ _ => trivial)
    (fun _ _ _ _ _ _ hstep hrest => (k.step_gains w hrec hparts hstep).trans hrest) h trivial

/-- A kind without parts. -/
theorem RestoKind.run_gains_leaf (k : RestoKind τ χ) (hleaf : k.parts = noParts)
    (entry : χ → Entry)
    (hrec : ∀ t r c r₁, k.recreate t r = .ok (c, r₁) → Gains boot r.core r₁.core 0 {entry c})
    {stored : List τ} {objects objects' : List χ} {r r' : Restorer}
    (h : k.run stored objects r = .ok (objects', r')) :
    Gains boot r.core r'.core (entriesOf entry objects) (entriesOf entry objects') := by
  rw [← total_singleton, ← total_singleton]
  refine k.run_gains _ hrec ?_ h
  intro t c r c' r' hp
  rw [hleaf] at hp
  cases hp
  exact .refl ..

variable {g : Genode} {granularity : Nat} {r r' : Restorer}

/-- One stored dataspace: none or one is allocated. -/
theorem identifyRecreateRamDataspace_gains {pairs : List CkptRestoBadgeInfo}
    {t : StoredRamDataspaceInfo} {x x' : RamSessionComponent × Restorer}
    (h : identifyRecreateRamDataspace boot pairs t x = .ok x') :
    Gains boot x.2.core x'.2.core x.1.entries x'.1.entries := by
  unfold identifyRecreateRamDataspace at h
  split at h
  · split at h
    · cases h
    · split at h
      · cases h
        exact .refl ..
      · cases h
  · split at h
    · cases h
    · rename_i halloc
      split at h
      · cases h
        exact alloc_gains halloc
      · cases h

theorem identifyRecreateRamDataspaces_gains {stored : List StoredRamDataspaceInfo}
    {s s' : RamSessionComponent}
    (h : identifyRecreateRamDataspaces boot stored s r = .ok (s', r')) :
    Gains boot r.core r'.core s.entries s'.entries := by
  obtain ⟨pairs, -, hrest⟩ := bind_eq_ok.mp h
  split at hrest
  · cases hrest
  · exact loop_rel (I := fun _ _ => True)
      (R := fun _ (x x' : RamSessionComponent × Restorer) =>
        Gains boot x.2.core x'.2.core x.1.entries x'.1.entries)
      (fun _ _ => .refl ..) (fun _ _ _ _ _ _ => trivial)
      (fun _ _ _ _ _ _ hstep hloop => (identifyRecreateRamDataspace_gains hstep).trans hloop)
      hrest trivial

theorem identifyRecreateRamSessions_gains {stored : List StoredRamSessionInfo}
    {ramRoot ramRoot' : List RamSessionComponent}
    (h : identifyRecreateRamSessions g granularity boot stored ramRoot r = .ok (ramRoot', r')) :
    Gains boot r.core r'.core (total RamSessionComponent.entries ramRoot)
      (total RamSessionComponent.entries ramRoot') := by
  cases ramRoot with
  | nil => cases h
  | cons bootstrapped _ =>
      refine (ramSessionKind g granularity boot bootstrapped).run_gains _ ?_ ?_ h
      · intro t r c r₁ hrec
        cases hrec
        exact RamSessionComponent.create_gains ..
      · intro t s r s' r' hparts
        exact identifyRecreateRamDataspaces_gains hparts

theorem identifyRecreateSignalSources_gains {stored : List StoredSignalSourceInfo}
    {sources sources' : List SignalSourceInfo}
    (h : identifyRecreateSignalSources boot stored sources r = .ok (sources', r')) :
    Gains boot r.core r'.core (entriesOf SignalSourceInfo.entry sources)
      (entriesOf SignalSourceInfo.entry sources') := by
  cases sources with
  | nil => cases h
  | cons bootstrapped _ =>
      refine (signalSourceKind boot bootstrapped).run_gains_leaf rfl _ ?_ h
      intro t r c r₁ hrec
      cases hrec
      exact gains_single le_rfl (Nat.lt_succ_self _) rfl

theorem identifyRecreateSignalContexts_gains {stored : List StoredSignalContextInfo}
    {contexts contexts' : List SignalContextInfo}
    (h : identifyRecreateSignalContexts boot stored contexts r = .ok (contexts', r')) :
    Gains boot r.core r'.core (entriesOf SignalContextInfo.entry contexts)
      (entriesOf SignalContextInfo.entry contexts') := by
  refine (signalContextKind boot).run_gains_leaf rfl _ ?_ h
  intro t r c r₁ hrec
  obtain ⟨ssCap, -, hrest⟩ := bind_eq_ok.mp hrec
  cases hrest
  exact gains_single le_rfl (Nat.lt_succ_self _) rfl

theorem pdSessionParts_gains {t : StoredPdSessionInfo} {pd pd' : PdSessionComponent}
    (h : pdSessionParts boot t pd r = .ok (pd', r')) :
    Gains boot r.core r'.core pd.entries pd'.entries := by
  obtain ⟨sources, r₁, contexts, r₂, hs, hc, rfl, rfl⟩ := pdSessionParts_cases h
  have hsources := ((((identifyRecreateSignalSources_gains hs).frame_right
    (entriesOf SignalContextInfo.entry pd.parentState.signalContexts)).frame
    (entriesOf NativeCapabilityInfo.entry pd.parentState.nativeCaps)).frame
    (entriesOf RegionMapComponent.entry pd.areas)).frame {pd.entry}
  have hcontexts := ((((identifyRecreateSignalContexts_gains hc).frame
    (entriesOf SignalSourceInfo.entry sources)).frame
    (entriesOf NativeCapabilityInfo.entry pd.parentState.nativeCaps)).frame
    (entriesOf RegionMapComponent.entry pd.areas)).frame {pd.entry}
  exact Gains.trans hsources hcontexts

theorem identifyRecreatePdSessions_gains {stored : List StoredPdSessionInfo}
    {pdRoot pdRoot' : List PdSessionComponent}
    (h : identifyRecreatePdSessions g boot stored pdRoot r = .ok (pdRoot', r')) :
    Gains boot r.core r'.core (total PdSessionComponent.entries pdRoot)
      (total PdSessionComponent.entries pdRoot') := by
  cases pdRoot with
  | nil => cases h
  | cons bootstrapped _ =>
      refine (pdSessionKind g boot bootstrapped).run_gains _ ?_ ?_ h
      · intro t r c r₁ hrec
        cases hrec
        exact PdSessionComponent.create_gains ..
      · intro t pd r pd' r' hparts
        exact pdSessionParts_gains hparts

theorem identifyRecreateCpuSessions_gains {stored : List StoredCpuSessionInfo}
    {pdSessions : List PdSessionComponent} {cpuRoot cpuRoot' : List CpuSessionComponent}
    (h : identifyRecreateCpuSessions g boot stored pdSessions cpuRoot r = .ok (cpuRoot', r')) :
    Gains boot r.core r'.core (total CpuSessionComponent.entries cpuRoot)
      (total CpuSessionComponent.entries cpuRoot') := by
  cases cpuRoot with
  | nil => cases h
  | cons bootstrapped _ =>
      refine (cpuSessionKind g boot pdSessions bootstrapped).run_gains _ ?_ ?_ h
      · intro t r c r₁ hrec
        cases hrec
        exact CpuSessionComponent.create_gains ..
      · intro t s r s' r' hparts
        obtain ⟨threads, hrun, rfl⟩ := identifyRecreateCpuThreads_cases hparts
        refine Grows.frame ?_ _
        exact (cpuThreadKind boot pdSessions).run_gains_leaf rfl
          CpuThreadComponent.entry (fun t r c r₁ hrec => by
            obtain ⟨_, -, rfl, rfl⟩ := cpuThreadKind_recreate hrec
            exact gains_single le_rfl (Nat.lt_succ_self _) rfl) hrun

theorem identifyRecreateRmSessions_gains {stored : List StoredRmSessionInfo}
    {root root' : Option (List RmSessionComponent)}
    (h : identifyRecreateRmSessions g boot stored root r = .ok (root', r')) :
    Gains boot r.core r'.core (total RmSessionComponent.entries (sessionInfos root))
      (total RmSessionComponent.entries (sessionInfos root')) := by
  obtain ⟨objects, hrun, hroot, -⟩ := identifyRecreateSessions_cases h
  rw [hroot]
  refine (rmSessionKind g boot).run_gains _ ?_ ?_ hrun
  · intro t r c r₁ hrec
    cases hrec
    exact RmSessionComponent.create_gains ..
  · intro t s r s' r' hparts
    obtain ⟨regionMaps, hmaps, rfl⟩ := identifyRecreateRegionMaps_cases hparts
    have hgain : Gains boot _ _ _ _ := (regionMapKind boot).run_gains
      (fun rm => ({rm.entry} : Multiset Entry))
      (fun t r c r₁ hrec => by
        cases hrec
        exact gains_single le_rfl (Nat.lt_succ_of_lt (Nat.lt_succ_self _)) rfl)
      (fun t c r c' r' hp => by
        cases hp
        exact .refl ..) hmaps
    rw [total_singleton, total_singleton] at hgain
    exact hgain.frame _

theorem identifyRecreateLogSessions_gains {stored : List StoredLogSessionInfo}
    {root root' : Option (List LogSessionComponent)}
    (h : identifyRecreateLogSessions g boot stored root r = .ok (root', r')) :
    Gains boot r.core r'.core (total LogSessionComponent.entries (sessionInfos root))
      (total LogSessionComponent.entries (sessionInfos root')) := by
  obtain ⟨objects, hrun, hroot, -⟩ := identifyRecreateSessions_cases h
  rw [hroot]
  refine (logSessionKind g boot).run_gains _ ?_ ?_ hrun
  · intro t r c r₁ hrec
    cases hrec
    exact LogSessionComponent.create_gains ..
  · intro t s r s' r' hparts
    cases hparts
    exact .refl ..

theorem identifyRecreateTimerSessions_gains {stored : List StoredTimerSessionInfo}
    {root root' : Option (List TimerSessionComponent)}
    (h : identifyRecreateTimerSessions g boot stored root r = .ok (root', r')) :
    Gains boot r.core r'.core (total TimerSessionComponent.entries (sessionInfos root))
      (total TimerSessionComponent.entries (sessionInfos root')) := by
  obtain ⟨objects, hrun, hroot, -⟩ := identifyRecreateSessions_cases h
  rw [hroot]
  refine (timerSessionKind g boot).run_gains _ ?_ ?_ hrun
  · intro t r c r₁ hrec
    cases hrec
    exact TimerSessionComponent.create_gains ..
  · intro t s r s' r' hparts
    cases hparts
    exact .refl ..

theorem identifyRecreate_gains {st : TargetState} {child : TargetChild} {s : CustomServices}
    (h : identifyRecreate g st child r = .ok (s, r')) :
    Gains child.inBootstrap r.core r'.core child.services.entries s.entries := by
  obtain ⟨run⟩ := identifyRecreate_cases h
  have hram := child.services.gains_ram (identifyRecreateRamSessions_gains run.ram)
  have hpd := hram.trans (CustomServices.gains_pd _ (identifyRecreatePdSessions_gains run.pd))
  have hcpu := hpd.trans (CustomServices.gains_cpu _ (identifyRecreateCpuSessions_gains run.cpu))
  have hrm := hcpu.trans (CustomServices.gains_rm _ (identifyRecreateRmSessions_gains run.rm))
  have hlog := hrm.trans (CustomServices.gains_log _ (identifyRecreateLogSessions_gains run.log))
  exact hlog.trans
    (CustomServices.gains_timer _ (identifyRecreateTimerSessions_gains run.timer))

end Identify

/-! ## Restored states -/

section State

variable {τ χ : Type} {g : Genode} {boot : Bool} {pdSessions : List PdSessionComponent}
  {r r' : Restorer}

/-- Restoring a state changes neither the entries of an object nor core's
counters. -/
structure StateKind.Same (k : StateKind τ χ) (w : χ → Multiset Entry) : Prop where
  inPlace : k.InPlace
  entries : ∀ t c r d r', k.restore t (some c) r = .ok (some d, r') → w d = w c
  core : ∀ t o r o' r', k.restore t o r = .ok (o', r') → r'.core = r.core

theorem StateKind.Same.ofPresent {k : StateKind τ χ} {w : χ → Multiset Entry} {missing : τ → Err}
    {restore : τ → χ → Restorer → Except Err (χ × Restorer)} (hin : k.InPlace)
    (hk : k.restore = ifPresent missing restore)
    (h : ∀ t c r d r', restore t c r = .ok (d, r') → w d = w c ∧ r'.core = r.core) :
    k.Same w where
  inPlace := hin
  entries t c r d r' hrun := by
    obtain ⟨c', d', hc, hd, hrest⟩ := StateKind.restore_eq_ok hk hrun
    obtain rfl := Option.some.inj hc
    obtain rfl := Option.some.inj hd
    exact (h t c r d r' hrest).1
  core t o r o' r' hrun := by
    obtain ⟨c, d, rfl, rfl, hrest⟩ := StateKind.restore_eq_ok hk hrun
    exact (h t c r d r' hrest).2

theorem StateKind.Same.step {k : StateKind τ χ} {w : χ → Multiset Entry} (hk : k.Same w) {t : τ}
    {x x' : List χ × Restorer} (h : k.step t x = .ok x') :
    total w x'.1 = total w x.1 ∧ x'.2.core = x.2.core := by
  obtain ⟨o, hfind, hrest⟩ := bind_eq_ok.mp h
  obtain ⟨⟨o', r₁⟩, hrestore, hlast⟩ := bind_eq_ok.mp hrest
  obtain ⟨restoCap, -, ho⟩ := findChildObject_eq_ok hfind
  have hcore := hk.core t o x.2 o' r₁ hrestore
  cases o with
  | none =>
      obtain rfl := hk.inPlace.missing t x.2 o' r₁ hrestore
      cases hlast
      exact ⟨rfl, hcore⟩
  | some c =>
      obtain ⟨d, rfl, hcap⟩ := hk.inPlace.present t c x.2 o' r₁ hrestore
      cases hlast
      refine ⟨?_, hcore⟩
      have hname : restoCap.localName = (k.cap d).localName := by
        rw [hcap]
        exact (findByBadge_some ho.symm).2.symm
      rw [hname] at ho
      obtain ⟨before, after, hsplit, -, hmod⟩ := List.modifyFirst_split (f := fun _ => d) ho.symm
      rw [hmod, hsplit, total_append, total_append, total_cons, total_cons,
        hk.entries t c x.2 d r₁ hrestore]

theorem StateKind.Same.run {k : StateKind τ χ} {w : χ → Multiset Entry} (hk : k.Same w)
    {stored : List τ} {objects objects' : List χ}
    (h : k.run stored objects r = .ok (objects', r')) :
    total w objects' = total w objects ∧ r'.core = r.core :=
  loop_rel (I := fun _ _ => True)
    (R := fun _ (x x' : List χ × Restorer) => total w x'.1 = total w x.1 ∧ x'.2.core = x.2.core)
    (fun _ _ => ⟨rfl, rfl⟩) (fun _ _ _ _ _ _ => trivial)
    (fun _ _ _ _ _ _ hstep hrest =>
      ⟨hrest.1.trans (hk.step hstep).1, hrest.2.trans (hk.step hstep).2⟩) h trivial

theorem ramSessionState_same : (ramSessionState g).Same RamSessionComponent.entries := by
  refine .ofPresent ramSessionState_inPlace rfl ?_
  intro t s r s' r' h
  obtain ⟨r₁, hds, hlast⟩ := bind_eq_ok.mp h
  cases hlast
  refine ⟨upgradeIfNecessary_keeps (fun _ _ => rfl) .., ?_⟩
  refine loop_rel (I := fun _ _ => True) (R := fun _ (r r' : Restorer) => r'.core = r.core)
    (fun _ _ => rfl) (fun _ _ _ _ _ _ => trivial) ?_ hds trivial
  intro u us r r₁ r' _ hstep hrest
  obtain ⟨o, -, hstep⟩ := bind_eq_ok.mp hstep
  cases o with
  | none => cases hstep
  | some ramds =>
      cases hstep
      exact hrest

theorem regionMapState_same :
    (regionMapState g boot pdSessions).Same fun rm => {rm.entry} := by
  refine .ofPresent regionMapState_inPlace rfl ?_
  intro t rm r rm' r' h
  obtain ⟨rm₁, hsigh, hloop⟩ := bind_eq_ok.mp h
  have hentry : rm₁.entry = rm.entry := by
    rcases restoreSigh_cases hsigh with ⟨-, rfl⟩ | ⟨handler, -, rfl⟩ <;> rfl
  have hregions : rm'.entry = rm₁.entry ∧ r'.core = r.core :=
    loop_rel (I := fun _ _ => True)
      (R := fun _ (x x' : RegionMapComponent × Restorer) =>
        x'.1.entry = x.1.entry ∧ x'.2.core = x.2.core)
      (fun _ _ => ⟨rfl, rfl⟩) (fun _ _ _ _ _ _ => trivial)
      (fun u us x x₁ x' _ hstep hrest => by
        obtain ⟨info, -, hr, ⟨-, hrm⟩ | ⟨-, dsCap, -, hrm⟩⟩ :=
            restoreStateAttachedRegion_cases hstep
        · rw [hrest.1, hrest.2, hr, hrm, scheduleRegion_core]
          exact ⟨rfl, rfl⟩
        · rw [hrest.1, hrest.2, hr, hrm, scheduleRegion_core]
          exact ⟨rfl, rfl⟩) hloop trivial
  exact ⟨by rw [hregions.1, hentry], hregions.2⟩

/-- A list of region maps, by what is in it and by their places. -/
theorem regionMapState_entries {stored : List StoredRegionMapInfo}
    {regionMaps regionMaps' : List RegionMapComponent}
    (h : (regionMapState g boot pdSessions).run stored regionMaps r = .ok (regionMaps', r')) :
    entriesOf RegionMapComponent.entry regionMaps' = entriesOf RegionMapComponent.entry regionMaps ∧
      r'.core = r.core := by
  obtain ⟨hentries, hcore⟩ := regionMapState_same.run h
  rw [total_singleton, total_singleton] at hentries
  exact ⟨hentries, hcore⟩

theorem pdSessionState_same :
    (pdSessionState g boot pdSessions).Same PdSessionComponent.entries := by
  refine .ofPresent pdSessionState_inPlace rfl ?_
  intro t pd r pd' r' h
  obtain ⟨areas, hrun, hlast⟩ := bind_eq_ok.mp h
  cases hlast
  obtain ⟨hentries, hcore⟩ := regionMapState_entries hrun
  refine ⟨?_, hcore⟩
  have hup : (upgradeIfNecessary g PdSessionComponent.upgrade t.upgradeArgs pd).entries =
      pd.entries := upgradeIfNecessary_keeps (fun _ _ => rfl) ..
  rw [← hup]
  generalize upgradeIfNecessary g PdSessionComponent.upgrade t.upgradeArgs pd = pd₁ at *
  have hcaps : areas.1.map (·.cap) = pd₁.areas.map (·.cap) := StateKind.run_caps hrun
  have hlen : areas.1.length = 3 := by
    have h := congrArg List.length hcaps
    rwa [List.length_map, List.length_map] at h
  have hnames : areas.1.map (·.cap.localName) = pd₁.areas.map (·.cap.localName) := by
    have h := congrArg (List.map Cap.localName) hcaps
    rw [List.map_map, List.map_map] at h
    exact h
  unfold PdSessionComponent.entries PdSessionComponent.entry
  rw [setAreas_areas hlen, setAreas_cap, setAreas_parentState, hentries, hnames]

theorem cpuThreadState_same : (cpuThreadState pdSessions).Same fun t => {t.entry} := by
  refine .ofPresent cpuThreadState_inPlace rfl ?_
  intro t c r d r' h
  obtain ⟨c', hsigh, hlast⟩ := bind_eq_ok.mp h
  cases hlast
  refine ⟨congrArg _ ?_, rfl⟩
  rcases restoreSigh_cases hsigh with ⟨-, rfl⟩ | ⟨handler, -, rfl⟩ <;> split <;> rfl

theorem cpuSessionState_same :
    (cpuSessionState g pdSessions).Same CpuSessionComponent.entries := by
  refine .ofPresent cpuSessionState_inPlace rfl ?_
  intro t s r s' r' h
  obtain ⟨s₀, hsigh, hrest⟩ := bind_eq_ok.mp h
  obtain ⟨threads, hrun, hlast⟩ := bind_eq_ok.mp hrest
  cases hlast
  obtain ⟨hentries, hcore⟩ := cpuThreadState_same.run hrun
  rw [total_singleton, total_singleton] at hentries
  refine ⟨?_, hcore⟩
  show _ + entriesOf _ threads.1 = _
  rw [hentries]
  have hup : (upgradeIfNecessary g CpuSessionComponent.upgrade t.upgradeArgs s₀).entries =
      s₀.entries := upgradeIfNecessary_keeps (fun _ _ => rfl) ..
  refine Eq.trans hup ?_
  rcases restoreSigh_cases hsigh with ⟨-, rfl⟩ | ⟨handler, -, rfl⟩ <;> rfl

theorem rmSessionState_same :
    (rmSessionState g boot pdSessions).Same RmSessionComponent.entries := by
  refine .ofPresent rmSessionState_inPlace rfl ?_
  intro t s r s' r' h
  obtain ⟨regionMaps, hrun, hlast⟩ := bind_eq_ok.mp h
  cases hlast
  obtain ⟨hentries, hcore⟩ := regionMapState_entries hrun
  refine ⟨?_, hcore⟩
  have hup : (upgradeIfNecessary g RmSessionComponent.upgrade t.upgradeArgs s).entries =
      s.entries := upgradeIfNecessary_keeps (fun _ _ => rfl) ..
  show _ + entriesOf _ regionMaps.1 = _
  rw [hentries]
  exact hup

theorem logSessionState_same : (logSessionState g).Same LogSessionComponent.entries where
  inPlace := logSessionState_inPlace
  entries t c r d r' h := by
    cases h
    exact upgradeIfNecessary_keeps (fun _ _ => rfl) ..
  core t o r o' r' h := by
    cases o with
    | some c =>
        cases h
        rfl
    | none =>
        dsimp only [logSessionState] at h
        split at h
        · cases h
        · cases h
          rfl

theorem timerSessionState_same :
    (timerSessionState g pdSessions).Same TimerSessionComponent.entries where
  inPlace := timerSessionState_inPlace
  entries t c r d r' h := by
    obtain ⟨c₁, hsigh, hlast⟩ := bind_eq_ok.mp h
    cases hlast
    refine (upgradeIfNecessary_keeps (fun _ _ => rfl) ..).trans ?_
    rcases restoreSigh_cases hsigh with ⟨-, rfl⟩ | ⟨handler, -, rfl⟩ <;> split <;> rfl
  core t o r o' r' h := by
    cases o with
    | some c =>
        obtain ⟨_, _, -, rfl, -⟩ := timerSessionState_restore h
        rfl
    | none =>
        obtain ⟨-, rfl⟩ := timerSessionState_missing h
        rfl

/-- A root that may be missing. -/
theorem StateKind.Same.sessions {k : StateKind τ χ} {w : χ → Multiset Entry} (hk : k.Same w)
    {stored : List τ} {root root' : Option (List χ)}
    (h : restoreStateSessions k stored root r = .ok (root', r')) :
    total w (sessionInfos root') = total w (sessionInfos root) ∧ r'.core = r.core := by
  rcases restoreStateSessions_cases h with ⟨rfl, rfl, rfl⟩ | ⟨objects, objects', rfl, rfl, hrun⟩
  · exact ⟨rfl, rfl⟩
  · exact hk.run hrun

theorem restoreState_entries {st : TargetState} {s s' : CustomServices}
    (h : restoreState g boot st s r = .ok (s', r')) :
    s'.entries = s.entries ∧ r'.core = r.core := by
  obtain ⟨run⟩ := restoreState_cases h
  obtain ⟨hram, hcore₁⟩ := ramSessionState_same.run run.ram
  obtain ⟨hpd, hcore₂⟩ := pdSessionState_same.run run.pd
  obtain ⟨hcpu, hcore₃⟩ := cpuSessionState_same.run run.cpu
  obtain ⟨hrm, hcore₄⟩ := rmSessionState_same.sessions run.rm
  obtain ⟨hlog, hcore₅⟩ := logSessionState_same.sessions run.log
  obtain ⟨htimer, hcore₆⟩ := timerSessionState_same.sessions run.timer
  refine ⟨?_, by rw [hcore₆, hcore₅, hcore₄, hcore₃, hcore₂, hcore₁]⟩
  unfold CustomServices.entries
  rw [hram, hpd, hcpu, hrm, hlog, htimer]

end State

end Rtcr
