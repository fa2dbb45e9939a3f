import Rtcr.Incremental.Allocation
import Rtcr.Restorer.Steps

/-!
# Restorer.Quiet — what the first phase leaves alone

Identifying and recreating objects schedules no memory and writes into no
dataspace there is: core only hands out new names (`IdentifyRun.quiet`).
Where nothing is managed, no dataspace is created as a managed one
(`IdentifyRun.unmanaged`).
-/

namespace Rtcr

open Fallible

/-- The restorer has created objects, and scheduled nothing. -/
structure Restorer.Quiet (r r' : Restorer) : Prop where
  scheduled : r'.memoryToRestore = r.memoryToRestore
  regionMaps : r'.regionMapDataspacesFromStored = r.regionMapDataspacesFromStored
  grown : Grown r.core r'.core

theorem Restorer.Quiet.refl (r : Restorer) : r.Quiet r := ⟨rfl, rfl, .refl r.core⟩

theorem Restorer.Quiet.trans {r r₁ r₂ : Restorer} (h : r.Quiet r₁) (h' : r₁.Quiet r₂) :
    r.Quiet r₂ :=
  ⟨h'.scheduled.trans h.scheduled, h'.regionMaps.trans h.regionMaps, h.grown.trans h'.grown⟩

theorem quiet_addTranslation (badge : Nat) (cap : Cap) (r : Restorer) :
    r.Quiet (r.addTranslation badge cap) := ⟨rfl, rfl, .refl r.core⟩

theorem quiet_addKcap (kcap : Nat) (cap : Cap) (r : Restorer) : r.Quiet (r.addKcap kcap cap) :=
  ⟨rfl, rfl, .refl r.core⟩

theorem quiet_setCore {core : Core} {r : Restorer} (h : Grown r.core core) :
    r.Quiet (r.setCore core) := ⟨rfl, rfl, h⟩

/-! ## A kind of objects -/

section Kind

variable {τ χ : Type} {stored : List τ} {objects objects' : List χ} {r r' : Restorer}

theorem RestoKind.step_quiet (k : RestoKind τ χ)
    (hrec : ∀ t r c r₁, k.recreate t r = .ok (c, r₁) → r.Quiet r₁)
    (hparts : ∀ t c r c' r', k.parts t c r = .ok (c', r') → r.Quiet r') {t : τ}
    {x x' : List χ × Restorer} (h : k.step t x = .ok x') : x.2.Quiet x'.2 := by
  obtain ⟨objects, r⟩ := x
  obtain ⟨objects', r'⟩ := x'
  rcases k.step_cases h with ⟨c, c', -, -, hp, -⟩ | ⟨c, c', r₁, -, hr, hp, -⟩
  · exact (quiet_addTranslation ..).trans (hparts t c _ c' r' hp)
  · have hnamed := (quiet_addKcap (k.kcap t) (k.cap c) r₁).trans
      (quiet_addTranslation (k.badge t) (k.cap c) _)
    exact ((hrec t r c r₁ hr).trans hnamed).trans (hparts t c _ c' r' hp)

theorem RestoKind.run_quiet (k : RestoKind τ χ)
    (hrec : ∀ t r c r₁, k.recreate t r = .ok (c, r₁) → r.Quiet r₁)
    (hparts : ∀ t c r c' r', k.parts t c r = .ok (c', r') → r.Quiet r')
    (h : k.run stored objects r = .ok (objects', r')) : r.Quiet r' :=
  loop_rel (I := fun _ _ => True) (R := fun _ (x x' : List χ × Restorer) => x.2.Quiet x'.2)
    (fun _ _ => .refl _) (fun _ _ _ _ _ _ => trivial)
    (fun _ _ _ _ _ _ hstep hrest => (k.step_quiet hrec hparts hstep).trans hrest) h trivial

/-- A kind without parts. -/
theorem RestoKind.run_quiet_leaf (k : RestoKind τ χ) (hleaf : k.parts = noParts)
    (hrec : ∀ t r c r₁, k.recreate t r = .ok (c, r₁) → r.Quiet r₁)
    (h : k.run stored objects r = .ok (objects', r')) : r.Quiet r' := by
  refine k.run_quiet hrec ?_ h
  intro t c r c' r' hp
  rw [hleaf] at hp
  cases hp
  exact .refl r

/-- What holds of all objects: of those that are there, of new ones, and
after the parts have had their turn. -/
theorem RestoKind.run_forall (k : RestoKind τ χ) {P : χ → Prop}
    (hrec : ∀ t r c r₁, k.recreate t r = .ok (c, r₁) → P c)
    (hparts : ∀ t c r c' r', P c → k.parts t c r = .ok (c', r') → P c')
    (h : k.run stored objects r = .ok (objects', r')) (hobjects : ∀ c ∈ objects, P c) :
    ∀ c ∈ objects', P c := by
  refine loop_keeps (I := fun x : List χ × Restorer => ∀ c ∈ x.1, P c) ?_ h hobjects
  rintro t - ⟨objects, r⟩ ⟨objects', r'⟩ hx hstep
  rcases k.step_cases hstep with ⟨c, c', -, hfind, hp, rfl⟩ | ⟨c, c', r₁, -, hr, hp, rfl⟩
  · intro d hd
    obtain ⟨e, he, rfl | rfl⟩ := List.mem_modifyFirst hd
    · exact hx _ he
    · exact hparts t c _ _ r' (hx c (findByBadge_some hfind).1) hp
  · intro d hd
    rcases List.mem_cons.mp hd with rfl | hd
    · exact hparts t c _ _ r' (hrec t r c r₁ hr) hp
    · exact hx d hd

end Kind

/-! ## Kind by kind -/

section Kinds

variable {g : Genode} {inBootstrap : Bool} {granularity : Nat} {r r' : Restorer}

theorem identifyRecreateRamDataspace_quiet {pairs : List CkptRestoBadgeInfo}
    {t : StoredRamDataspaceInfo} {x x' : RamSessionComponent × Restorer}
    (h : identifyRecreateRamDataspace inBootstrap pairs t x = .ok x') : x.2.Quiet x'.2 := by
  unfold identifyRecreateRamDataspace at h
  split at h
  · split at h
    · cases h
    · split at h
      · cases h
        exact quiet_addTranslation ..
      · cases h
  · split at h
    · cases h
    · rename_i cap s core halloc
      split at h
      · cases h
        exact ((quiet_setCore (alloc_spec halloc).2.1).trans (quiet_addKcap ..)).trans
          (quiet_addTranslation ..)
      · cases h

theorem identifyRecreateRamDataspaces_quiet {stored : List StoredRamDataspaceInfo}
    {s s' : RamSessionComponent}
    (h : identifyRecreateRamDataspaces inBootstrap stored s r = .ok (s', r')) : r.Quiet r' := by
  obtain ⟨pairs, -, hrest⟩ := bind_eq_ok.mp h
  split at hrest
  · cases hrest
  · exact loop_rel (I := fun _ _ => True)
      (R := fun _ (x x' : RamSessionComponent × Restorer) => x.2.Quiet x'.2)
      (fun _ _ => .refl _) (fun _ _ _ _ _ _ => trivial)
      (fun _ _ _ _ _ _ hstep hloop => (identifyRecreateRamDataspace_quiet hstep).trans hloop)
      hrest trivial

theorem identifyRecreateRamSessions_quiet {stored : List StoredRamSessionInfo}
    {ramRoot ramRoot' : List RamSessionComponent}
    (h : identifyRecreateRamSessions g granularity inBootstrap stored ramRoot r =
      .ok (ramRoot', r')) : r.Quiet r' := by
  cases ramRoot with
  | nil => cases h
  | cons bootstrapped _ =>
      refine (ramSessionKind g granularity inBootstrap bootstrapped).run_quiet ?_
        (fun _ _ _ _ _ => identifyRecreateRamDataspaces_quiet) h
      intro t r c r₁ hrec
      cases hrec
      exact quiet_setCore (grown_newCap r.core)

theorem pdSessionParts_quiet {t : StoredPdSessionInfo} {pd pd' : PdSessionComponent}
    (h : pdSessionParts inBootstrap t pd r = .ok (pd', r')) : r.Quiet r' := by
  obtain ⟨sources, r₁, contexts, r₂, hs, hc, -, rfl⟩ := pdSessionParts_cases h
  have hsources : r.Quiet r₁ := by
    cases hfirst : pd.parentState.signalSources with
    | nil =>
        rw [hfirst] at hs
        cases hs
    | cons bootstrapped _ =>
        rw [hfirst] at hs
        refine (signalSourceKind inBootstrap bootstrapped).run_quiet_leaf rfl ?_ hs
        intro t r c r₁ hrec
        cases hrec
        exact quiet_setCore (grown_newCap r.core)
  have hcontexts : r₁.Quiet r₂ := by
    refine (signalContextKind inBootstrap).run_quiet_leaf rfl ?_ hc
    intro t r c r₁ hrec
    obtain ⟨_, -, -, rfl⟩ := signalContextKind_recreate hrec
    exact quiet_setCore (grown_newCap r.core)
  exact (hsources.trans hcontexts).trans ⟨rfl, rfl, .refl r₂.core⟩

theorem identifyRecreatePdSessions_quiet {stored : List StoredPdSessionInfo}
    {pdRoot pdRoot' : List PdSessionComponent}
    (h : identifyRecreatePdSessions g inBootstrap stored pdRoot r = .ok (pdRoot', r')) :
    r.Quiet r' := by
  cases pdRoot with
  | nil => cases h
  | cons bootstrapped _ =>
      refine (pdSessionKind g inBootstrap bootstrapped).run_quiet ?_
        (fun _ _ _ _ _ => pdSessionParts_quiet) h
      intro t r c r₁ hrec
      cases hrec
      -- a session and three region maps with their dataspaces
      exact quiet_setCore ⟨by simp [PdSessionComponent.create, RegionMapComponent.create]; omega,
        fun _ _ => rfl⟩

theorem identifyRecreateCpuSessions_quiet {stored : List StoredCpuSessionInfo}
    {pdSessions : List PdSessionComponent} {cpuRoot cpuRoot' : List CpuSessionComponent}
    (h : identifyRecreateCpuSessions g inBootstrap stored pdSessions cpuRoot r =
      .ok (cpuRoot', r')) : r.Quiet r' := by
  cases cpuRoot with
  | nil => cases h
  | cons bootstrapped _ =>
      refine (cpuSessionKind g inBootstrap pdSessions bootstrapped).run_quiet ?_ ?_ h
      · intro t r c r₁ hrec
        cases hrec
        exact quiet_setCore (grown_newCap r.core)
      · intro t s r s' r' hparts
        obtain ⟨threads, hrun, -⟩ := identifyRecreateCpuThreads_cases hparts
        refine (cpuThreadKind inBootstrap pdSessions).run_quiet_leaf rfl ?_ hrun
        intro t r c r₁ hrec
        obtain ⟨_, -, -, rfl⟩ := cpuThreadKind_recreate hrec
        exact quiet_setCore (grown_newCap r.core)

theorem identifyRecreateRmSessions_quiet {stored : List StoredRmSessionInfo}
    {root root' : Option (List RmSessionComponent)}
    (h : identifyRecreateRmSessions g inBootstrap stored root r = .ok (root', r')) :
    r.Quiet r' := by
  obtain ⟨objects, hrun, -⟩ := identifyRecreateSessions_cases h
  refine (rmSessionKind g inBootstrap).run_quiet ?_ ?_ hrun
  · intro t r c r₁ hrec
    cases hrec
    exact quiet_setCore (grown_newCap r.core)
  · intro t s r s' r' hparts
    obtain ⟨regionMaps, hmaps, -⟩ := identifyRecreateRegionMaps_cases hparts
    refine (regionMapKind inBootstrap).run_quiet ?_ ?_ hmaps
    · intro t r c r₁ hrec
      cases hrec
      exact quiet_setCore ((grown_newCap r.core).trans (grown_newCap _))
    · intro t c r c' r' hp
      cases hp
      exact quiet_addTranslation ..

/-- Sessions without parts, of which none is there. -/
theorem identifyRecreateSessions_quiet {τ χ : Type} {k : RestoKind τ χ} {stored : List τ}
    {root root' : Option (List χ)} (hleaf : k.parts = noParts)
    (hrec : ∀ t r c r₁, k.recreate t r = .ok (c, r₁) → r.Quiet r₁)
    (h : identifyRecreateSessions k stored root r = .ok (root', r')) : r.Quiet r' := by
  obtain ⟨objects, hrun, -⟩ := identifyRecreateSessions_cases h
  exact k.run_quiet_leaf hleaf hrec hrun

end Kinds

/-! ## The phase -/

section Phase

variable {g : Genode} {st : TargetState} {child : TargetChild} {r r' : Restorer}
  {s : CustomServices}

/-- **The first phase** schedules nothing. -/
theorem IdentifyRun.quiet (run : IdentifyRun g st child r s r') : r.Quiet r' := by
  have hlog : run.afterRm.Quiet run.afterLog := by
    refine identifyRecreateSessions_quiet rfl ?_ run.log
    intro t r c r₁ hrec
    cases hrec
    exact quiet_setCore (grown_newCap r.core)
  have htimer : run.afterLog.Quiet r' := by
    refine identifyRecreateSessions_quiet rfl ?_ run.timer
    intro t r c r₁ hrec
    cases hrec
    exact quiet_setCore (grown_newCap r.core)
  exact (((((identifyRecreateRamSessions_quiet run.ram).trans
    (identifyRecreatePdSessions_quiet run.pd)).trans
    (identifyRecreateCpuSessions_quiet run.cpu)).trans
    (identifyRecreateRmSessions_quiet run.rm)).trans hlog).trans htimer

/-- The session has granularity 0, and no managed dataspace. -/
def RamSessionComponent.Unmanaged (s : RamSessionComponent) : Prop :=
  s.granularity = 0 ∧ ∀ d ∈ s.parentState.ramDataspaces, d.mrmInfo = none

instance (s : RamSessionComponent) : Decidable s.Unmanaged :=
  inferInstanceAs (Decidable (_ ∧ ∀ d ∈ s.parentState.ramDataspaces, _))

/-- The child runs with granularity 0. -/
structure TargetChild.Unmanaged (child : TargetChild) : Prop where
  granularity : child.granularity = 0
  sessions : ∀ s ∈ child.services.ramRoot, s.Unmanaged

theorem RamSessionComponent.Unmanaged.alloc {size : Nat} {cacheAttr : CacheAttribute}
    {inBootstrap : Bool} {s s' : RamSessionComponent} {core core' : Core} {cap : Cap}
    (hs : s.Unmanaged) (h : s.alloc size cacheAttr inBootstrap core = some (cap, s', core')) :
    s'.Unmanaged := by
  obtain ⟨hgran, hnone⟩ := hs
  unfold RamSessionComponent.alloc at h
  -- granularity 0: the parent allocates, and the entry gets no `mrmInfo`
  rw [if_neg (by omega)] at h
  split at h
  · cases h
  · rename_i cap₁ s₁ core₁ halloc
    obtain ⟨-, -, rfl⟩ := parentAlloc_eq_some halloc
    cases h
    refine ⟨hgran, fun d hd => ?_⟩
    rcases List.mem_cons.mp hd with rfl | hd
    · rfl
    · exact hnone d hd

theorem identifyRecreateRamDataspaces_unmanaged {inBootstrap : Bool}
    {stored : List StoredRamDataspaceInfo} {s s' : RamSessionComponent}
    (h : identifyRecreateRamDataspaces inBootstrap stored s r = .ok (s', r'))
    (hs : s.Unmanaged) : s'.Unmanaged := by
  obtain ⟨pairs, -, hrest⟩ := bind_eq_ok.mp h
  split at hrest
  · cases hrest
  · refine loop_keeps (I := fun x : RamSessionComponent × Restorer => x.1.Unmanaged) ?_ hrest hs
    intro t _ x x' hx hstep
    unfold identifyRecreateRamDataspace at hstep
    split at hstep
    · split at hstep
      · cases hstep
      · split at hstep
        · cases hstep
          exact hx
        · cases hstep
    · split at hstep
      · cases hstep
      · rename_i halloc
        split at hstep
        · cases hstep
          exact hx.alloc halloc
        · cases hstep

/-- Nothing is managed after the first phase. -/
theorem IdentifyRun.unmanaged (run : IdentifyRun g st child r s r') (hchild : child.Unmanaged) :
    ∀ c ∈ s.ramRoot, c.Unmanaged := by
  have hram := run.ram
  have hsessions := hchild.sessions
  cases hroot : child.services.ramRoot with
  | nil =>
      rw [hroot] at hram
      cases hram
  | cons bootstrapped rest =>
      rw [hroot] at hram hsessions
      refine (ramSessionKind g child.granularity child.inBootstrap bootstrapped).run_forall ?_ ?_
        hram hsessions
      · intro t r c r₁ hrec
        cases hrec
        exact ⟨hchild.granularity, List.forall_mem_nil _⟩
      · exact fun _ _ _ _ _ hc hparts => identifyRecreateRamDataspaces_unmanaged hparts hc

end Phase

end Rtcr
