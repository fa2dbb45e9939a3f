import Rtcr.Restorer.Kinds
import Rtcr.Restorer.Quota

/-!
# Restorer.QuotaKinds — the quota, service by service

Every service identifies its sessions and replays their upgrades in the
way `Quota` describes; all the other phases leave the recorded arguments
alone.
-/

namespace Rtcr

open Fallible

/-! ## Identify or recreate -/

section Identifies

variable {g : Genode} {inBootstrap : Bool} {granularity : Nat} {r r' : Restorer}

theorem RamSessionComponent.Keeps.face {s s' : RamSessionComponent} (h : s.Keeps s') :
    RamSessionComponent.quota.face s' = RamSessionComponent.quota.face s := by
  show (s'.cap, s'.parentState.upgradeArgs, s'.parentUpgraded) = _
  rw [h.cap, h.upgradeArgs, h.parentUpgraded]
  rfl

/-- A new session has nothing upgraded, and identifying the parts does
not upgrade it. -/
theorem IdentifiesSessions.ofLawful {τ χ : Type} {k : RestoKind τ χ} {q : SessionQuota χ}
    {boot : τ → Bool} {first : Cap} (hk : k.Lawful) (hcap : ∀ c, k.cap c = q.cap c)
    (hid : ∀ t objects, k.identify t objects = .ok (if boot t then some first else none))
    (hnew : ∀ t r c r₁, k.recreate t r = .ok (c, r₁) → q.args c = "" ∧ q.parent c = 0)
    (hface : ∀ t c r c' r', k.parts t c r = .ok (c', r') → q.face c' = q.face c) :
    IdentifiesSessions k q boot first where
  cap := hcap
  identify t objects o h := (Except.ok.inj ((hid t objects).symm.trans h)).symm
  recreate t r c r₁ h := by
    obtain ⟨hlo, hhi, htable⟩ := hk.recreate t r c r₁ h
    obtain ⟨hargs, hparent⟩ := hnew t r c r₁ h
    rw [hcap] at hlo hhi
    exact ⟨hlo, hhi, hargs, hparent, htable⟩
  parts t c r c' r' h := ⟨hface t c r c' r' h, (hk.parts t c r c' r' h).2⟩

theorem identifiesRamSessions (bootstrapped : RamSessionComponent) :
    IdentifiesSessions (ramSessionKind g granularity inBootstrap bootstrapped)
      RamSessionComponent.quota (·.bootstrapped) bootstrapped.cap := by
  refine .ofLawful (ramSessionKind_lawful bootstrapped) (fun _ => rfl) (fun _ _ => rfl) ?_ ?_
  · intro t r c r₁ h
    cases h
    exact ⟨rfl, rfl⟩
  · intro t s r s' r' h
    exact (identifyRecreateRamDataspaces_keeps h).1.face

theorem identifiesPdSessions (bootstrapped : PdSessionComponent) :
    IdentifiesSessions (pdSessionKind g inBootstrap bootstrapped) PdSessionComponent.quota
      (·.bootstrapped) bootstrapped.cap := by
  refine .ofLawful (pdSessionKind_lawful bootstrapped) (fun _ => rfl) (fun _ _ => rfl) ?_ ?_
  · intro t r c r₁ h
    cases h
    exact ⟨rfl, rfl⟩
  · intro t pd r pd' r' h
    obtain ⟨sources, r₁, contexts, r₂, -, -, rfl, -⟩ := pdSessionParts_cases h
    rfl

theorem identifiesCpuSessions (pdSessions : List PdSessionComponent)
    (bootstrapped : CpuSessionComponent) :
    IdentifiesSessions (cpuSessionKind g inBootstrap pdSessions bootstrapped)
      CpuSessionComponent.quota (·.bootstrapped) bootstrapped.cap := by
  refine .ofLawful (cpuSessionKind_lawful pdSessions bootstrapped) (fun _ => rfl)
    (fun _ _ => rfl) ?_ ?_
  · intro t r c r₁ h
    cases h
    exact ⟨rfl, rfl⟩
  · intro t s r s' r' h
    obtain ⟨threads, -, rfl⟩ := identifyRecreateCpuThreads_cases h
    rfl

/-- The services bootstrap does not use: every stored session is created
again. -/
theorem identifiesRmSessions (first : Cap) :
    IdentifiesSessions (rmSessionKind g inBootstrap) RmSessionComponent.quota
      (fun _ => false) first := by
  refine .ofLawful rmSessionKind_lawful (fun _ => rfl) (fun _ _ => rfl) ?_ ?_
  · intro t r c r₁ h
    cases h
    exact ⟨rfl, rfl⟩
  · intro t s r s' r' h
    obtain ⟨regionMaps, -, rfl⟩ := identifyRecreateRegionMaps_cases h
    rfl

theorem identifiesLogSessions (first : Cap) :
    IdentifiesSessions (logSessionKind g inBootstrap) LogSessionComponent.quota
      (fun _ => false) first := by
  refine .ofLawful logSessionKind_lawful (fun _ => rfl) (fun _ _ => rfl) ?_ ?_
  · intro t r c r₁ h
    cases h
    exact ⟨rfl, rfl⟩
  · intro t s r s' r' h
    cases h
    rfl

theorem identifiesTimerSessions (first : Cap) :
    IdentifiesSessions (timerSessionKind g inBootstrap) TimerSessionComponent.quota
      (fun _ => false) first := by
  refine .ofLawful timerSessionKind_lawful (fun _ => rfl) (fun _ _ => rfl) ?_ ?_
  · intro t r c r₁ h
    cases h
    exact ⟨rfl, rfl⟩
  · intro t s r s' r' h
    cases h
    rfl

end Identifies

/-! ## Restore the state -/

section Replays

variable {g : Genode} {inBootstrap : Bool} {pdSessions : List PdSessionComponent} {r r' : Restorer}

/-- A kind whose sessions have to be there. -/
theorem ReplaysUpgrades.ofPresent {τ χ : Type} {k : StateKind τ χ} {q : SessionQuota χ}
    {args : τ → String} {missing : τ → Err}
    {restore : τ → χ → Restorer → Except Err (χ × Restorer)} (hcap : ∀ c, k.cap c = q.cap c)
    (hk : k.restore = ifPresent missing restore)
    (h : ∀ t c r d r', restore t c r = .ok (d, r') → r'.ckptToRestoInfos = r.ckptToRestoInfos ∧
      ∃ c₀, q.face c₀ = q.face c ∧ q.face d = q.face (upgradeIfNecessary g q.upgrade (args t) c₀))
    (hg : g.Faithful) : ReplaysUpgrades g k q args where
  cap := hcap
  present t c r o r' hrun := by
    rw [hk] at hrun
    obtain ⟨c', d, hc, rfl, hd⟩ := ifPresent_eq_ok hrun
    obtain rfl := Option.some.inj hc
    obtain ⟨htable, c₀, hbefore, hafter⟩ := h t c r d r' hd
    obtain ⟨hcap₀, hargs₀, hparent₀⟩ := SessionQuota.face_eq hbefore
    obtain ⟨hcap₁, hargs₁, hparent₁⟩ := SessionQuota.face_eq hafter
    obtain ⟨hcap', hparent', hacc⟩ := SessionQuota.upgradeIfNecessary_spec hg (args t) c₀
    refine ⟨d, rfl, hcap₁.trans (hcap'.trans hcap₀), ?_, fun hc => ?_, htable⟩
    · rw [hparent₁, hparent', hparent₀]
    · exact (hacc (hc.congr hargs₀ hparent₀)).congr hargs₁ hparent₁
  missing t r o r' hrun := by
    rw [hk] at hrun
    obtain ⟨c, d, hc, -⟩ := ifPresent_eq_ok hrun
    cases hc

theorem replaysRamSessions (hg : g.Faithful) :
    ReplaysUpgrades g (ramSessionState g) RamSessionComponent.quota (·.upgradeArgs) := by
  refine .ofPresent (fun _ => rfl) rfl ?_ hg
  intro t c r d r' h
  obtain ⟨r₁, hds, hrest⟩ := bind_eq_ok.mp h
  cases hrest
  exact ⟨restoreStateRamDataspaces_table hds, c, rfl, rfl⟩

theorem setAreas_face (areas : List RegionMapComponent) (pd : PdSessionComponent) :
    PdSessionComponent.quota.face (pd.setAreas areas) = PdSessionComponent.quota.face pd := by
  unfold PdSessionComponent.setAreas
  split <;> rfl

theorem replaysPdSessions (hg : g.Faithful) :
    ReplaysUpgrades g (pdSessionState g inBootstrap pdSessions) PdSessionComponent.quota
      (·.upgradeArgs) := by
  refine .ofPresent (fun _ => rfl) rfl ?_ hg
  intro t c r d r' h
  obtain ⟨areas, hrun, hrest⟩ := bind_eq_ok.mp h
  cases hrest
  exact ⟨regionMapState_inPlace.run_table hrun, c, rfl, setAreas_face ..⟩

theorem replaysCpuSessions (hg : g.Faithful) :
    ReplaysUpgrades g (cpuSessionState g pdSessions) CpuSessionComponent.quota
      (·.upgradeArgs) := by
  refine .ofPresent (fun _ => rfl) rfl ?_ hg
  intro t c r d r' h
  obtain ⟨c₀, hsigh, hrest⟩ := bind_eq_ok.mp h
  obtain ⟨threads, hrun, hlast⟩ := bind_eq_ok.mp hrest
  cases hlast
  refine ⟨cpuThreadState_inPlace.run_table hrun, c₀, ?_, rfl⟩
  rcases restoreSigh_cases hsigh with ⟨-, rfl⟩ | ⟨handler, -, rfl⟩ <;> rfl

theorem replaysRmSessions (hg : g.Faithful) :
    ReplaysUpgrades g (rmSessionState g inBootstrap pdSessions) RmSessionComponent.quota
      (·.upgradeArgs) := by
  refine .ofPresent (fun _ => rfl) rfl ?_ hg
  intro t c r d r' h
  obtain ⟨regionMaps, hrun, hrest⟩ := bind_eq_ok.mp h
  cases hrest
  exact ⟨regionMapState_inPlace.run_table hrun, c, rfl, rfl⟩

theorem replaysLogSessions (hg : g.Faithful) :
    ReplaysUpgrades g (logSessionState g) LogSessionComponent.quota (·.upgradeArgs) where
  cap _ := rfl
  present t c r o r' h := by
    cases h
    obtain ⟨hcap, hparent, hacc⟩ :=
      LogSessionComponent.quota.upgradeIfNecessary_spec hg t.upgradeArgs c
    exact ⟨_, rfl, hcap, hparent, hacc, rfl⟩
  missing t r o r' h := by
    change (if g.ramQuota t.upgradeArgs ≠ 0 then _ else _) = _ at h
    split at h
    · cases h
    · cases h
      exact ⟨rfl, rfl⟩

theorem replaysTimerSessions (hg : g.Faithful) :
    ReplaysUpgrades g (timerSessionState g pdSessions) TimerSessionComponent.quota
      (·.upgradeArgs) where
  cap _ := rfl
  present t c r o r' h := by
    obtain ⟨c₀, hsigh, hlast⟩ := bind_eq_ok.mp h
    have hface : TimerSessionComponent.quota.face
        (if t.timeout ≠ 0 then c₀.trigger t.timeout t.periodic else c₀) =
        TimerSessionComponent.quota.face c := by
      rcases restoreSigh_cases hsigh with ⟨-, rfl⟩ | ⟨handler, -, rfl⟩ <;> split <;> rfl
    cases hlast
    obtain ⟨hcap₀, hargs₀, hparent₀⟩ := SessionQuota.face_eq hface
    obtain ⟨hcap, hparent, hacc⟩ := TimerSessionComponent.quota.upgradeIfNecessary_spec hg
      t.upgradeArgs (if t.timeout ≠ 0 then c₀.trigger t.timeout t.periodic else c₀)
    refine ⟨_, rfl, hcap.trans hcap₀, ?_, fun hc => hacc (hc.congr hargs₀ hparent₀), rfl⟩
    exact hparent.trans (congrArg (· + _) hparent₀)
  missing t r o r' h := by
    obtain ⟨rfl, rfl⟩ := timerSessionState_missing h
    exact ⟨rfl, rfl⟩

end Replays

end Rtcr
