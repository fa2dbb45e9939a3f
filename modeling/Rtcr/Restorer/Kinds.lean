import Rtcr.Restorer.Turns

/-!
# Restorer.Kinds — every kind of objects is lawful

New objects have new capabilities, and the parts of an object leave its
capability alone.
-/

namespace Rtcr

open Fallible

/-! ## RAM dataspaces -/

/-- What an allocation leaves alone in the session. -/
structure RamSessionComponent.Keeps (s s' : RamSessionComponent) : Prop where
  cap : s'.cap = s.cap
  upgradeArgs : s'.parentState.upgradeArgs = s.parentState.upgradeArgs
  parentUpgraded : s'.parentUpgraded = s.parentUpgraded

theorem RamSessionComponent.Keeps.refl (s : RamSessionComponent) : s.Keeps s := ⟨rfl, rfl, rfl⟩

theorem RamSessionComponent.Keeps.trans {s s₁ s₂ : RamSessionComponent} (h : s.Keeps s₁)
    (h' : s₁.Keeps s₂) : s.Keeps s₂ :=
  ⟨h'.cap.trans h.cap, h'.upgradeArgs.trans h.upgradeArgs,
    h'.parentUpgraded.trans h.parentUpgraded⟩

section Alloc

variable {s s' : RamSessionComponent} {core core' : Core} {cap : Cap}

theorem parentAlloc_keeps {size : Nat} (h : s.parentAlloc size core = some (cap, s', core')) :
    s.Keeps s' ∧ s'.parentState = s.parentState ∧ cap = ⟨core.nextBadge⟩ ∧
      core'.nextBadge = core.nextBadge + 1 := by
  unfold RamSessionComponent.parentAlloc at h
  split at h
  · cases h
  · cases h
    exact ⟨⟨rfl, rfl, rfl⟩, rfl, rfl, rfl⟩

theorem allocDesignated_keeps {ranges : List (Nat × Nat)} {mrm mrm' : ManagedRegionMapInfo}
    {complete : Bool}
    (h : RamSessionComponent.allocDesignated ranges mrm s core = (complete, mrm', s', core')) :
    s.Keeps s' ∧ s'.parentState = s.parentState ∧ core.nextBadge ≤ core'.nextBadge := by
  induction ranges generalizing mrm s core with
  | nil =>
      cases h
      exact ⟨.refl _, rfl, Nat.le_refl _⟩
  | cons range ranges ih =>
      obtain ⟨relAddr, size⟩ := range
      unfold RamSessionComponent.allocDesignated at h
      cases halloc : s.parentAlloc size core with
      | none =>
          rw [halloc] at h
          cases h
          exact ⟨.refl _, rfl, Nat.le_refl _⟩
      | some x =>
          obtain ⟨cap, s₁, core₁⟩ := x
          rw [halloc] at h
          obtain ⟨hkeeps, hstate, -, hnext⟩ := parentAlloc_keeps halloc
          obtain ⟨hkeeps', hstate', hle⟩ := ih h
          refine ⟨hkeeps.trans ⟨hkeeps'.cap, hkeeps'.upgradeArgs, hkeeps'.parentUpgraded⟩,
            hstate'.trans hstate, by omega⟩

/-- What `alloc` returns: a new dataspace at the head of the list, or an
invalid capability and nothing new. -/
structure RamSessionComponent.Allocates (s : RamSessionComponent) (core : Core) (cap : Cap)
    (s' : RamSessionComponent) (core' : Core) : Prop where
  keeps : s.Keeps s'
  le : core.nextBadge ≤ core'.nextBadge
  dataspaces : (∃ info, info.cap = cap ∧
      s'.parentState.ramDataspaces = info :: s.parentState.ramDataspaces ∧
      core.nextBadge ≤ cap.localName ∧ cap.localName < core'.nextBadge) ∨
    cap = Cap.invalid ∧ s'.parentState.ramDataspaces = s.parentState.ramDataspaces

theorem allocManaged_allocates {size : Nat} {cacheAttr : CacheAttribute} {inBootstrap : Bool}
    (h : s.allocManaged size cacheAttr inBootstrap core = (cap, s', core')) :
    s.Allocates core cap s' core' := by
  dsimp only [RamSessionComponent.allocManaged] at h
  split at h
  · rename_i halloc
    cases h
    obtain ⟨hkeeps, hstate, hle⟩ := allocDesignated_keeps halloc
    simp only [Core.newCap_nextBadge] at hle
    exact ⟨⟨hkeeps.cap, hkeeps.upgradeArgs, hkeeps.parentUpgraded⟩, by omega,
      .inr ⟨rfl, congrArg RamSessionInfo.ramDataspaces hstate⟩⟩
  · rename_i mrm s₁ core₁ halloc
    cases h
    obtain ⟨hkeeps, hstate, hle⟩ := allocDesignated_keeps halloc
    simp only [Core.newCap_nextBadge] at hle
    refine ⟨⟨hkeeps.cap, hkeeps.upgradeArgs, hkeeps.parentUpgraded⟩, by omega,
      .inl ⟨_, rfl, congrArg (_ :: ·) (congrArg RamSessionInfo.ramDataspaces hstate), ?_⟩⟩
    show core.nextBadge ≤ core.nextBadge + 1 ∧ core.nextBadge + 1 < core'.nextBadge
    omega

theorem alloc_allocates {size : Nat} {cacheAttr : CacheAttribute} {inBootstrap : Bool}
    (h : s.alloc size cacheAttr inBootstrap core = some (cap, s', core')) :
    s.Allocates core cap s' core' := by
  unfold RamSessionComponent.alloc at h
  split at h
  · exact allocManaged_allocates (Option.some.inj h)
  · split at h
    · cases h
    · rename_i s₁ core₁ halloc
      cases h
      obtain ⟨hkeeps, hstate, rfl, hnext⟩ := parentAlloc_keeps halloc
      refine ⟨⟨hkeeps.cap, hkeeps.upgradeArgs, hkeeps.parentUpgraded⟩, ?_,
        .inl ⟨_, rfl, congrArg (_ :: ·) (congrArg RamSessionInfo.ramDataspaces hstate),
          Nat.le_refl _, ?_⟩⟩
      · show core.nextBadge ≤ core₁.nextBadge
        omega
      · show core.nextBadge < core₁.nextBadge
        omega

end Alloc

section Kinds

variable {g : Genode} {inBootstrap : Bool} {granularity : Nat} {r r' : Restorer}

/-- One stored RAM dataspace: it is translated to one of the session, the
one it is paired with or a new one. -/
theorem identifyRecreateRamDataspace_cases {pairs : List CkptRestoBadgeInfo}
    {t : StoredRamDataspaceInfo} {x x' : RamSessionComponent × Restorer}
    (h : identifyRecreateRamDataspace inBootstrap pairs t x = .ok x') :
    (∃ crInfo ∈ pairs, ∃ ramds ∈ x.1.parentState.ramDataspaces,
      t.bootstrapped = true ∧ crInfo.ckptBadge = t.badge ∧ ramds.cap = crInfo.restoCap ∧
      x' = (x.1, x.2.addTranslation t.badge ramds.cap)) ∨
    (∃ cap s core, ∃ ramds ∈ s.parentState.ramDataspaces, t.bootstrapped = false ∧
      x.1.Allocates x.2.core cap s core ∧ ramds.cap = cap ∧
      x' = (s, ((x.2.setCore core).addKcap t.kcap cap).addTranslation t.badge cap)) := by
  unfold identifyRecreateRamDataspace at h
  split at h
  · rename_i hb
    left
    split at h
    · cases h
    · rename_i crInfo hpair
      obtain ⟨hmem, hbadge⟩ := findByBadge_some hpair
      split at h
      · rename_i ramds hfind
        obtain ⟨hramds, hname⟩ := findByBadge_some hfind
        cases h
        exact ⟨crInfo, hmem, ramds, hramds, hb, hbadge, Cap.ext_localName hname, rfl⟩
      · cases h
  · rename_i hb
    right
    split at h
    · cases h
    · rename_i cap s core halloc
      split at h
      · rename_i ramds hfind
        obtain ⟨hramds, hname⟩ := findByBadge_some hfind
        obtain rfl := Cap.ext_localName hname
        cases h
        exact ⟨ramds.cap, s, core, ramds, hramds, by simpa using hb, alloc_allocates halloc, rfl, rfl⟩
      · cases h

theorem identifyRecreateRamDataspace_keeps {pairs : List CkptRestoBadgeInfo}
    {t : StoredRamDataspaceInfo} {x x' : RamSessionComponent × Restorer}
    (h : identifyRecreateRamDataspace inBootstrap pairs t x = .ok x') :
    x.1.Keeps x'.1 ∧ x.2.Ahead x'.2 := by
  rcases identifyRecreateRamDataspace_cases h with
    ⟨crInfo, -, ramds, -, -, -, -, rfl⟩ | ⟨cap, s, core, ramds, -, -, halloc, -, rfl⟩
  · exact ⟨.refl _, Nat.le_refl _, List.suffix_cons _ _⟩
  · exact ⟨halloc.keeps, halloc.le, List.suffix_cons _ _⟩

theorem identifyRecreateRamDataspaces_keeps {stored : List StoredRamDataspaceInfo}
    {s s' : RamSessionComponent}
    (h : identifyRecreateRamDataspaces inBootstrap stored s r = .ok (s', r')) :
    s.Keeps s' ∧ r.Ahead r' := by
  obtain ⟨pairs, -, hrest⟩ := bind_eq_ok.mp h
  split at hrest
  · cases hrest
  · refine loop_rel (I := fun _ _ => True)
      (R := fun _ (x x' : RamSessionComponent × Restorer) => x.1.Keeps x'.1 ∧ x.2.Ahead x'.2)
      (fun x _ => ⟨.refl x.1, .refl x.2⟩) (fun _ _ _ _ _ _ => trivial) ?_ hrest trivial
    intro t ts x x₁ x' _ hstep ⟨hkeeps', hahead'⟩
    obtain ⟨hkeeps, hahead⟩ := identifyRecreateRamDataspace_keeps hstep
    exact ⟨hkeeps.trans hkeeps', hahead.trans hahead'⟩

theorem ramSessionKind_lawful (bootstrapped : RamSessionComponent) :
    (ramSessionKind g granularity inBootstrap bootstrapped).Lawful where
  recreate t r c r₁ h := by
    cases h
    exact ⟨Nat.le_refl _, Nat.lt_succ_self _, rfl⟩
  parts t c r c' r' h := by
    obtain ⟨hkeeps, hahead⟩ := identifyRecreateRamDataspaces_keeps h
    exact ⟨hkeeps.cap, hahead⟩

/-! ## PD sessions -/

theorem RestoKind.Lawful.ofLeaf {τ χ : Type} {k : RestoKind τ χ} (hleaf : k.parts = noParts)
    (hrec : ∀ t r c r₁, k.recreate t r = .ok (c, r₁) →
      r.core.nextBadge ≤ (k.cap c).localName ∧ (k.cap c).localName < r₁.core.nextBadge ∧
        r₁.ckptToRestoInfos = r.ckptToRestoInfos) : k.Lawful where
  recreate := hrec
  parts t c r c' r' h := by
    rw [hleaf] at h
    cases h
    exact ⟨rfl, .refl r⟩

theorem signalSourceKind_lawful (bootstrapped : SignalSourceInfo) :
    (signalSourceKind inBootstrap bootstrapped).Lawful := by
  refine .ofLeaf rfl fun t r c r₁ h => ?_
  cases h
  exact ⟨Nat.le_refl _, Nat.lt_succ_self _, rfl⟩

theorem signalContextKind_lawful : (signalContextKind inBootstrap).Lawful := by
  refine .ofLeaf rfl fun t r c r₁ h => ?_
  obtain ⟨ssCap, -, rfl, rfl⟩ := signalContextKind_recreate h
  exact ⟨Nat.le_refl _, Nat.lt_succ_self _, rfl⟩

theorem identifyRecreateSignalSources_head {stored : List StoredSignalSourceInfo}
    {sources sources' : List SignalSourceInfo}
    (h : identifyRecreateSignalSources inBootstrap stored sources r = .ok (sources', r')) :
    ∃ b, sources.head? = some b ∧
      (signalSourceKind inBootstrap b).run stored sources r = .ok (sources', r') := by
  cases sources with
  | nil => cases h
  | cons b _ => exact ⟨b, rfl, h⟩

theorem addRegionMap_ahead (t : StoredRegionMapInfo) (rm : RegionMapComponent) (r : Restorer) :
    r.Ahead (addRegionMap t rm r) :=
  ⟨Nat.le_refl _, (List.suffix_cons _ _).trans (List.suffix_cons _ _)⟩

theorem pdSessionParts_ahead {t : StoredPdSessionInfo} {pd pd' : PdSessionComponent}
    (h : pdSessionParts inBootstrap t pd r = .ok (pd', r')) : r.Ahead r' := by
  obtain ⟨sources, r₁, contexts, r₂, hs, hc, -, rfl⟩ := pdSessionParts_cases h
  obtain ⟨b, -, hrun⟩ := identifyRecreateSignalSources_head hs
  refine (((signalSourceKind_lawful b).run_ahead hrun).trans
    (signalContextKind_lawful.run_ahead hc)).trans ?_
  exact ((addRegionMap_ahead ..).trans (addRegionMap_ahead ..)).trans (addRegionMap_ahead ..)

theorem pdSessionKind_lawful (bootstrapped : PdSessionComponent) :
    (pdSessionKind g inBootstrap bootstrapped).Lawful where
  recreate t r c r₁ h := by
    cases h
    show r.core.nextBadge ≤ r.core.nextBadge + 6 ∧ r.core.nextBadge + 6 < r.core.nextBadge + 7 ∧ _
    exact ⟨by omega, by omega, rfl⟩
  parts t pd r pd' r' h := by
    refine ⟨?_, pdSessionParts_ahead h⟩
    obtain ⟨sources, r₁, contexts, r₂, -, -, rfl, -⟩ := pdSessionParts_cases h
    rfl

/-! ## CPU sessions -/

theorem cpuThreadKind_lawful (pdSessions : List PdSessionComponent) :
    (cpuThreadKind inBootstrap pdSessions).Lawful := by
  refine .ofLeaf rfl fun t r c r₁ h => ?_
  obtain ⟨pdSession, -, rfl, rfl⟩ := cpuThreadKind_recreate h
  exact ⟨Nat.le_refl _, Nat.lt_succ_self _, rfl⟩

theorem cpuSessionKind_lawful (pdSessions : List PdSessionComponent)
    (bootstrapped : CpuSessionComponent) :
    (cpuSessionKind g inBootstrap pdSessions bootstrapped).Lawful where
  recreate t r c r₁ h := by
    cases h
    exact ⟨Nat.le_refl _, Nat.lt_succ_self _, rfl⟩
  parts t s r s' r' h := by
    obtain ⟨threads, hrun, rfl⟩ := identifyRecreateCpuThreads_cases h
    exact ⟨rfl, (cpuThreadKind_lawful pdSessions).run_ahead hrun⟩

/-! ## RM, LOG and Timer sessions -/

theorem regionMapKind_lawful : (regionMapKind inBootstrap).Lawful where
  recreate t r c r₁ h := by
    cases h
    show r.core.nextBadge ≤ r.core.nextBadge ∧ r.core.nextBadge < r.core.nextBadge + 2 ∧ _
    exact ⟨Nat.le_refl _, by omega, rfl⟩
  parts t c r c' r' h := by
    cases h
    exact ⟨rfl, Nat.le_refl _, List.suffix_cons _ _⟩

theorem rmSessionKind_lawful : (rmSessionKind g inBootstrap).Lawful where
  recreate t r c r₁ h := by
    cases h
    exact ⟨Nat.le_refl _, Nat.lt_succ_self _, rfl⟩
  parts t s r s' r' h := by
    obtain ⟨regionMaps, hrun, rfl⟩ := identifyRecreateRegionMaps_cases h
    exact ⟨rfl, regionMapKind_lawful.run_ahead hrun⟩

theorem logSessionKind_lawful : (logSessionKind g inBootstrap).Lawful := by
  refine .ofLeaf rfl fun t r c r₁ h => ?_
  cases h
  exact ⟨Nat.le_refl _, Nat.lt_succ_self _, rfl⟩

theorem timerSessionKind_lawful : (timerSessionKind g inBootstrap).Lawful := by
  refine .ofLeaf rfl fun t r c r₁ h => ?_
  cases h
  exact ⟨Nat.le_refl _, Nat.lt_succ_self _, rfl⟩

end Kinds

/-! ## The whole phase -/

section Whole

variable {g : Genode} {st : TargetState} {child : TargetChild} {r r' : Restorer}
  {s : CustomServices}

/-- Where the kinds leave the restorer. -/
structure IdentifyRun.Ahead (run : IdentifyRun g st child r s r') : Prop where
  ram : r.Ahead run.afterRam
  pd : run.afterRam.Ahead run.afterPd
  cpu : run.afterPd.Ahead run.afterCpu
  rm : run.afterCpu.Ahead run.afterRm
  log : run.afterRm.Ahead run.afterLog
  timer : run.afterLog.Ahead r'

theorem identifyRecreateSessions_ahead {τ χ : Type} {k : RestoKind τ χ} (hk : k.Lawful)
    {stored : List τ} {root root' : Option (List χ)}
    (h : identifyRecreateSessions k stored root r = .ok (root', r')) : r.Ahead r' := by
  obtain ⟨objects, hrun, -⟩ := identifyRecreateSessions_cases h
  exact hk.run_ahead hrun

theorem IdentifyRun.ahead (run : IdentifyRun g st child r s r') : run.Ahead where
  ram := by
    obtain ⟨b, -, hrun⟩ := identifyRecreateRamSessions_head run.ram
    exact (ramSessionKind_lawful b).run_ahead hrun
  pd := by
    obtain ⟨b, -, hrun⟩ := identifyRecreatePdSessions_head run.pd
    exact (pdSessionKind_lawful b).run_ahead hrun
  cpu := by
    obtain ⟨b, -, hrun⟩ := identifyRecreateCpuSessions_head run.cpu
    exact (cpuSessionKind_lawful _ b).run_ahead hrun
  rm := identifyRecreateSessions_ahead rmSessionKind_lawful run.rm
  log := identifyRecreateSessions_ahead logSessionKind_lawful run.log
  timer := identifyRecreateSessions_ahead timerSessionKind_lawful run.timer

theorem identifyRecreate_unambiguous (h : identifyRecreate g st child r = .ok (s, r'))
    (hbadges : st.badges.Nodup) (hempty : r.ckptToRestoInfos = []) :
    (r'.ckptToRestoInfos.map (·.ckptBadge)).Perm st.badges ∧ r'.Unambiguous := by
  have hperm : (r'.ckptToRestoInfos.map (·.ckptBadge)).Perm
      (st.badges ++ r.ckptToRestoInfos.map (·.ckptBadge)) :=
    Translation.Adds.perm (identifyRecreate_enters h)
  rw [hempty, List.map_nil, List.append_nil] at hperm
  exact ⟨hperm, hperm.nodup_iff.mpr hbadges⟩

end Whole

end Rtcr
