import Rtcr.Restorer.Memory
import Rtcr.Restorer.QuotaKinds
import Rtcr.Restorer.Survival

/-!
# Restorer.QuotaRestore — the quota after `restore()`

`quota_survives_iff`: every stored session has its quota back exactly if
the sessions bootstrap has made were not upgraded before. The upgrades of
a session are recorded by adding them up, and replayed by adding the sum
once more.
-/

namespace Rtcr

open Fallible

/-! ## All services -/

/-- Every stored session has its quota back. -/
structure TargetState.QuotaSurvives (g : Genode) (st : TargetState) (r : Restorer)
    (s : CustomServices) : Prop where
  ram : Survives g RamSessionComponent.quota (·.badge) (·.upgradeArgs) r st.ramSessions s.ramRoot
  pd : Survives g PdSessionComponent.quota (·.badge) (·.upgradeArgs) r st.pdSessions s.pdRoot
  cpu : Survives g CpuSessionComponent.quota (·.badge) (·.upgradeArgs) r st.cpuSessions s.cpuRoot
  rm : Survives g RmSessionComponent.quota (·.badge) (·.upgradeArgs) r st.rmSessions
    (sessionInfos s.rmRoot)
  log : Survives g LogSessionComponent.quota (·.badge) (·.upgradeArgs) r st.logSessions
    (sessionInfos s.logRoot)
  timer : Survives g TimerSessionComponent.quota (·.badge) (·.upgradeArgs) r st.timerSessions
    (sessionInfos s.timerRoot)

theorem TargetState.QuotaSurvives.congr {g : Genode} {st : TargetState} {r r' : Restorer}
    {s : CustomServices} (h : r'.ckptToRestoInfos = r.ckptToRestoInfos) :
    st.QuotaSurvives g r' s ↔ st.QuotaSurvives g r s := by
  constructor
  · intro ⟨hram, hpd, hcpu, hrm, hlog, htimer⟩
    exact ⟨(Survives.congr h).mp hram, (Survives.congr h).mp hpd, (Survives.congr h).mp hcpu,
      (Survives.congr h).mp hrm, (Survives.congr h).mp hlog, (Survives.congr h).mp htimer⟩
  · intro ⟨hram, hpd, hcpu, hrm, hlog, htimer⟩
    exact ⟨(Survives.congr h).mpr hram, (Survives.congr h).mpr hpd, (Survives.congr h).mpr hcpu,
      (Survives.congr h).mpr hrm, (Survives.congr h).mpr hlog, (Survives.congr h).mpr htimer⟩

/-- The services that bootstrap uses. -/
structure TargetState.FreshStart (g : Genode) (st : TargetState) (s : CustomServices) : Prop where
  ram : Rtcr.FreshStart g RamSessionComponent.quota (·.bootstrapped) (·.upgradeArgs)
    st.ramSessions s.ramRoot
  pd : Rtcr.FreshStart g PdSessionComponent.quota (·.bootstrapped) (·.upgradeArgs)
    st.pdSessions s.pdRoot
  cpu : Rtcr.FreshStart g CpuSessionComponent.quota (·.bootstrapped) (·.upgradeArgs)
    st.cpuSessions s.cpuRoot

/-- The child's sessions have been opened and upgraded by bootstrap. -/
structure CustomServices.Opened (g : Genode) (n : Nat) (s : CustomServices) : Prop where
  ram : Rtcr.Opened g RamSessionComponent.quota n s.ramRoot
  pd : Rtcr.Opened g PdSessionComponent.quota n s.pdRoot
  cpu : Rtcr.Opened g CpuSessionComponent.quota n s.cpuRoot
  rm : Rtcr.Opened g RmSessionComponent.quota n (sessionInfos s.rmRoot)
  log : Rtcr.Opened g LogSessionComponent.quota n (sessionInfos s.logRoot)
  timer : Rtcr.Opened g TimerSessionComponent.quota n (sessionInfos s.timerRoot)

/-- What the bootstrapped sessions have and what is replayed for them
stays below 2^32. -/
structure TargetState.QuotaFits (g : Genode) (st : TargetState) (s : CustomServices) : Prop where
  ram : ∀ c ∈ s.ramRoot.head?,
    c.parentUpgraded + bootedQuota g (·.bootstrapped) (·.upgradeArgs) st.ramSessions < 2 ^ 32
  pd : ∀ c ∈ s.pdRoot.head?,
    c.parentUpgraded + bootedQuota g (·.bootstrapped) (·.upgradeArgs) st.pdSessions < 2 ^ 32
  cpu : ∀ c ∈ s.cpuRoot.head?,
    c.parentUpgraded + bootedQuota g (·.bootstrapped) (·.upgradeArgs) st.cpuSessions < 2 ^ 32

section Service

variable {τ χ : Type} {g : Genode} {k : RestoKind τ χ} {ks : StateKind τ χ} {q : SessionQuota χ}
  {boot : τ → Bool} {first : Cap} {args : τ → String} {stored : List τ}
  {objects objects₁ objects₂ : List χ} {r r₁ r₂ r₃ : Restorer}

/-- **One service**, from the phases it goes through. -/
theorem service_survives_iff (hg : g.Faithful) (hk : IdentifiesSessions k q boot first)
    (hks : ReplaysUpgrades g ks q args) (hbadge : ks.badge = k.badge)
    (hdistinct : (stored.map k.badge).Nodup) (ho : Opened g q r.core.nextBadge objects)
    (hhead : stored.filter boot ≠ [] → ∃ c, objects.head? = some c ∧ q.cap c = first)
    (hfits : stored.filter boot ≠ [] → ∀ c ∈ objects.head?,
      q.parent c + bootedQuota g boot args stored < 2 ^ 32)
    (hrun : k.run stored objects r = .ok (objects₁, r₁)) (hsuffix : r₁.ckptToRestoInfos <:+ r₂.ckptToRestoInfos)
    (hr₂ : r₂.Unambiguous) (hreplay : ks.run stored objects₁ r₂ = .ok (objects₂, r₃)) :
    r₃.ckptToRestoInfos = r₂.ckptToRestoInfos ∧
      (Survives g q k.badge args r₂ stored objects₂ ↔ FreshStart g q boot args stored objects) := by
  obtain ⟨-, ps, rfl, htr, hentries, hfaces⟩ := hk.run hrun
  obtain ⟨htable, hreplayed⟩ := hks.run (caps_nodup ho htr hfaces) hreplay
  rw [hbadge] at hreplayed
  have hsettled : Settled g q boot first k.badge args r.core.nextBadge r₁.core.nextBadge r₂ ps
      objects objects₁ objects₂ :=
    { opened := ho
      head := fun hb => hhead (by rwa [List.filter_map, ne_eq, List.map_eq_nil_iff])
      distinct := by rwa [List.map_map] at hdistinct
      translated := htr
      lookup := fun p hp => hr₂.translate (hsuffix.subset (hentries p hp))
      faces := hfaces
      replay := hreplayed }
  refine ⟨htable, hsettled.survives_iff hg fun hb => hfits ?_⟩
  rwa [List.filter_map, ne_eq, List.map_eq_nil_iff]

/-- A service that bootstrap does not use. -/
theorem service_survives (hg : g.Faithful) (hk : IdentifiesSessions k q (fun _ => false) first)
    (hks : ReplaysUpgrades g ks q args) (hbadge : ks.badge = k.badge)
    (hdistinct : (stored.map k.badge).Nodup) {root root₁ root₂ : Option (List χ)}
    (ho : Opened g q r.core.nextBadge (sessionInfos root))
    (hrun : identifyRecreateSessions k stored root r = .ok (root₁, r₁)) (hsuffix : r₁.ckptToRestoInfos <:+ r₂.ckptToRestoInfos)
    (hr₂ : r₂.Unambiguous) (hreplay : restoreStateSessions ks stored root₁ r₂ = .ok (root₂, r₃)) :
    r₃.ckptToRestoInfos = r₂.ckptToRestoInfos ∧
      Survives g q k.badge args r₂ stored (sessionInfos root₂) := by
  obtain ⟨objects₁, hrun, -, hroot⟩ := identifyRecreateSessions_cases hrun
  rcases restoreStateSessions_cases hreplay with ⟨hnone, rfl, rfl⟩ | ⟨objects, objects₂, hsome, rfl, hstate⟩
  · -- no root: there is nothing stored
    refine ⟨rfl, fun t ht => ?_⟩
    have hstored := hroot (List.ne_nil_of_mem ht)
    rw [hnone] at hstored
    cases hstored
  · by_cases hstored : stored = []
    · subst hstored
      cases hstate
      exact ⟨rfl, fun t ht => absurd ht List.not_mem_nil⟩
    · obtain rfl := Option.some.inj (hsome.symm.trans (hroot hstored))
      have hnone : stored.filter (fun _ => false) = [] := by simp
      obtain ⟨htable, hsurvives⟩ := service_survives_iff hg hk hks hbadge hdistinct ho
        (fun hne => absurd hnone hne) (fun hne => absurd hnone hne) hrun hsuffix hr₂ hstate
      refine ⟨htable, hsurvives.mpr ?_⟩
      rw [FreshStart, hnone]
      exact ⟨fun hne => absurd rfl hne, .nil⟩

end Service

/-! ## The whole of `restore()` -/

/-- The badges of the stored sessions, service by service. -/
structure TargetState.SessionBadges (st : TargetState) : Prop where
  ram : (st.ramSessions.map (·.badge)).Nodup
  pd : (st.pdSessions.map (·.badge)).Nodup
  cpu : (st.cpuSessions.map (·.badge)).Nodup
  rm : (st.rmSessions.map (·.badge)).Nodup
  log : (st.logSessions.map (·.badge)).Nodup
  timer : (st.timerSessions.map (·.badge)).Nodup

theorem TargetState.sessionBadges {st : TargetState} (h : st.badges.Nodup) : st.SessionBadges :=
  ⟨h.sublist st.ramSessions_badge, h.sublist st.pdSessions_badge, h.sublist st.cpuSessions_badge,
    h.sublist st.rmSessions_badge, h.sublist st.logSessions_badges,
    h.sublist st.timerSessions_badges⟩

namespace Restorer

/-- Both phases. -/
theorem restoreObjects_survives_iff {g : Genode} {st : TargetState} {child : TargetChild}
    {core : Core} {s' : CustomServices} {r' : Restorer} (hg : g.Faithful)
    (hbadges : st.badges.Nodup) (hchild : child.services.Opened g core.nextBadge)
    (hfits : st.QuotaFits g child.services)
    (h : restoreObjects g st child (.new core) = .ok (s', r')) :
    st.QuotaSurvives g r' s' ↔ st.FreshStart g child.services := by
  obtain ⟨⟨s, r₂⟩, hidentify, hrestore⟩ := bind_eq_ok.mp h
  obtain ⟨id⟩ := identifyRecreate_cases hidentify
  obtain ⟨re⟩ := restoreState_cases hrestore
  have hnd := TargetState.sessionBadges hbadges
  have hr₂ : r₂.Unambiguous := (identifyRecreate_unambiguous hidentify hbadges rfl).2
  -- the first phase, from the end
  obtain ⟨ram, hramhead, hram⟩ := identifyRecreateRamSessions_head id.ram
  obtain ⟨pd, hpdhead, hpd⟩ := identifyRecreatePdSessions_head id.pd
  obtain ⟨cpu, hcpuhead, hcpu⟩ := identifyRecreateCpuSessions_head id.cpu
  obtain ⟨hram₁, hpd₁, hcpu₁, hrm₁, hlog₁, htimer₁⟩ := id.ahead
  have hlog₂ := hlog₁.trans htimer₁
  have hrm₂ := hrm₁.trans hlog₂
  have hcpu₂ := hcpu₁.trans hrm₂
  have hpd₂ := hpd₁.trans hcpu₂
  -- the second phase, service by service; the translation stays
  obtain ⟨htable₁, hramq⟩ := service_survives_iff hg (identifiesRamSessions ram)
    (replaysRamSessions hg) rfl hnd.ram hchild.ram (fun _ => ⟨ram, hramhead, rfl⟩)
    (fun _ => hfits.ram) hram hpd₂.suffix hr₂ re.ram
  obtain ⟨htable₂, hpdq⟩ := service_survives_iff hg (identifiesPdSessions pd)
    (replaysPdSessions hg) rfl hnd.pd (hchild.pd.mono hram₁.le) (fun _ => ⟨pd, hpdhead, rfl⟩)
    (fun _ => hfits.pd) hpd (htable₁ ▸ hcpu₂.suffix) (hr₂.congr htable₁) re.pd
  have htable₂ := htable₂.trans htable₁
  obtain ⟨htable₃, hcpuq⟩ := service_survives_iff hg (identifiesCpuSessions s.pdRoot cpu)
    (replaysCpuSessions hg) rfl hnd.cpu (hchild.cpu.mono (hram₁.trans hpd₁).le)
    (fun _ => ⟨cpu, hcpuhead, rfl⟩) (fun _ => hfits.cpu) hcpu (htable₂ ▸ hrm₂.suffix)
    (hr₂.congr htable₂) re.cpu
  have htable₃ := htable₃.trans htable₂
  have hcpu₃ := (hram₁.trans hpd₁).trans hcpu₁
  obtain ⟨htable₄, hrmq⟩ := service_survives hg (identifiesRmSessions Cap.invalid)
    (replaysRmSessions hg) rfl hnd.rm (hchild.rm.mono hcpu₃.le) id.rm (htable₃ ▸ hlog₂.suffix)
    (hr₂.congr htable₃) re.rm
  have htable₄ := htable₄.trans htable₃
  obtain ⟨htable₅, hlogq⟩ := service_survives hg (identifiesLogSessions Cap.invalid)
    (replaysLogSessions hg) rfl hnd.log (hchild.log.mono (hcpu₃.trans hrm₁).le) id.log
    (htable₄ ▸ htimer₁.suffix) (hr₂.congr htable₄) re.log
  have htable₅ := htable₅.trans htable₄
  obtain ⟨htable₆, htimerq⟩ := service_survives hg (identifiesTimerSessions Cap.invalid)
    (replaysTimerSessions hg) rfl hnd.timer
    (hchild.timer.mono ((hcpu₃.trans hrm₁).trans hlog₁).le) id.timer
    (htable₅ ▸ List.suffix_refl _) (hr₂.congr htable₅) re.timer
  have htable₆ := htable₆.trans htable₅
  rw [TargetState.QuotaSurvives.congr htable₆]
  constructor
  · intro h
    exact ⟨hramq.mp h.ram, hpdq.mp ((Survives.congr htable₁).mpr h.pd),
      hcpuq.mp ((Survives.congr htable₂).mpr h.cpu)⟩
  · intro h
    exact ⟨hramq.mpr h.ram, (Survives.congr htable₁).mp (hpdq.mpr h.pd),
      (Survives.congr htable₂).mp (hcpuq.mpr h.cpu), (Survives.congr htable₃).mp hrmq,
      (Survives.congr htable₄).mp hlogq, (Survives.congr htable₅).mp htimerq⟩

/-- **The quota survives** `restore()` exactly if the bootstrapped sessions
start afresh. -/
theorem quota_survives_iff {g : Genode} {st : TargetState} {child child' : TargetChild}
    {core core' : Core} (hg : g.Faithful) (hbadges : st.badges.Nodup)
    (hchild : child.services.Opened g core.nextBadge) (hfits : st.QuotaFits g child.services)
    (h : restore g st child (.new core) = .ok (child', core')) :
    ∃ before, untilCopy g st child (.new core) = .ok before ∧
      (st.QuotaSurvives g before.restorer child'.services ↔
        st.FreshStart g child.services) := by
  obtain ⟨before, hbefore, hcopy⟩ := bind_eq_ok.mp h
  refine ⟨before, hbefore, ?_⟩
  obtain ⟨restored, hrestored, hrest⟩ := bind_eq_ok.mp hbefore
  obtain ⟨capCore, -, hlast⟩ := bind_eq_ok.mp hrest
  cases hlast
  have hservices : child'.services = restored.1 := by
    split at hcopy
    · cases hcopy
      rfl
    · cases hcopy
  rw [hservices]
  refine Iff.trans (TargetState.QuotaSurvives.congr (r := restored.2) ?_)
    (restoreObjects_survives_iff hg hbadges hchild hfits hrestored)
  rfl

end Restorer

/-! ## A quota that drifts -/

/-- The quota of session arguments that hold one decimal number. -/
def decimalQuota (args : String) : Nat :=
  let n := Nat.ofDigitChars 10 (args.toList.filter Char.isDigit) 0
  if n < 2 ^ 32 then n else 0

def Genode.decimal : Genode where
  ramQuota := decimalQuota
  setRamQuota _ n := "ram_quota=" ++ String.ofList (Nat.toDigits 10 n)
  dataspaceSize _ := 0xa000

theorem Genode.decimal_faithful : Genode.decimal.Faithful where
  empty := by decide
  below args := by
    show decimalQuota args < 2 ^ 32
    unfold decimalQuota
    dsimp only
    split
    · assumption
    · decide
  set args n hn := by
    have hdigits : ("ram_quota=" ++ String.ofList (Nat.toDigits 10 n)).toList.filter Char.isDigit =
        Nat.toDigits 10 n := by
      have hname : "ram_quota=".toList.filter Char.isDigit = [] := by decide
      rw [String.toList_append, List.filter_append, hname, String.toList_ofList, List.nil_append,
        List.filter_eq_self]
      exact fun c hc => Nat.isDigit_of_mem_toDigits (by decide) (by decide) hc
    show decimalQuota _ = n
    simp only [decimalQuota, Genode.decimal, hdigits, Nat.ofDigitChars_ten_toDigits, if_pos hn]

namespace QuotaSample

open Restorer

/-- The child with its RAM session upgraded. -/
def upgraded (args : String) (child : TargetChild) : TargetChild :=
  child.mapRamSessions (List.map (RamSessionComponent.upgrade Genode.decimal args))

def checkpoint : CheckpointResult :=
  (Checkpointer.new Core.small).checkpoint .empty (upgraded "ram_quota=8192" TargetChild.small)

def core : Core := { checkpoint.checkpointer.core with nextBadge := 300 }

/-- Bootstrap has upgraded the RAM session as well. -/
def child : TargetChild := upgraded "ram_quota=4096" TargetChild.twin

def after : Except Err (TargetChild × Core) :=
  restore Genode.decimal checkpoint.state child (.new core)

theorem stored_probe : (checkpoint.thrown, checkpoint.state.ramSessions.map fun t =>
    Genode.decimal.ramQuota t.upgradeArgs) = (none, [8192]) := by
  decide +kernel

theorem after_probe : (after.toOption.map fun x => x.1.services.ramRoot.map fun s =>
    (s.parentUpgraded, Genode.decimal.ramQuota s.parentState.upgradeArgs)) =
      some [(12288, 12288)] := by
  decide +kernel

/-- **The quota drifts**: 8192 are stored, bootstrap has 4096, and after
`restore()` it is 12288. -/
theorem quota_drifts : checkpoint.thrown = none ∧ ∃ before child' core',
    untilCopy Genode.decimal checkpoint.state child (.new core) = .ok before ∧
    after = .ok (child', core') ∧
    ¬checkpoint.state.QuotaSurvives Genode.decimal before.restorer child'.services := by
  have hstored := stored_probe
  simp only [Prod.mk.injEq] at hstored
  refine ⟨hstored.1, ?_⟩
  obtain ⟨⟨child', core'⟩, ha, hparents⟩ := exists_ok_of_map after_probe
  obtain ⟨before, hbefore, -⟩ := bind_eq_ok.mp ha
  refine ⟨before, child', core', hbefore, ha, fun h => ?_⟩
  obtain ⟨t, ht⟩ : ∃ t, checkpoint.state.ramSessions = [t] :=
    List.length_eq_one_iff.mp (by simpa using congrArg List.length hstored.2)
  have hquota : Genode.decimal.ramQuota t.upgradeArgs = 8192 := by
    have := hstored.2
    rw [ht] at this
    simpa using this
  obtain ⟨c, hc, -, -, hparent⟩ := h.ram t (ht ▸ List.mem_singleton.mpr rfl)
  have hsum := List.mem_map_of_mem (f := fun s : RamSessionComponent =>
    (s.parentUpgraded, Genode.decimal.ramQuota s.parentState.upgradeArgs)) hc
  rw [hparents, List.mem_singleton, Prod.mk.injEq] at hsum
  have hparent : c.parentUpgraded = 8192 := hparent.trans hquota
  omega

/-- The equivalence for the same run. -/
theorem quota_survives_iff_sample : ∃ child' core', after = .ok (child', core') ∧
    ∃ before, untilCopy Genode.decimal checkpoint.state child (.new core) = .ok before ∧
      (checkpoint.state.QuotaSurvives Genode.decimal before.restorer child'.services ↔
        checkpoint.state.FreshStart Genode.decimal child.services) := by
  obtain ⟨⟨child', core'⟩, ha, -⟩ := exists_ok_of_map after_probe
  refine ⟨child', core', ha,
    quota_survives_iff Genode.decimal_faithful (by decide +kernel) ?_ ?_ ha⟩
  · exact
      { ram := .single (by decide) ⟨["ram_quota=4096"], _, rfl, rfl, rfl⟩
        pd := .single (by decide) ⟨[], _, rfl, rfl, rfl⟩
        cpu := .single (by decide) ⟨[], _, rfl, rfl, rfl⟩
        rm := .nil
        log := .nil
        timer := .nil }
  · exact ⟨by decide +kernel, by decide +kernel, by decide +kernel⟩

end QuotaSample

end Rtcr
