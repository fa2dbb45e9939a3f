import Rtcr.Lib.Translation
import Rtcr.Restorer.Identify

/-!
# Restorer.Steps — what one stored object adds

One stored object is either identified or created again; in both cases
its badge is entered in the translation, followed by those of its parts.
`identifyRecreate_enters`: in the end exactly the badges of all stored
objects are in it.
-/

namespace Rtcr

open Fallible Translation

/-! ## One stored object -/

namespace RestoKind

variable {τ χ : Type} (k : RestoKind τ χ) {t : τ} {objects objects' : List χ} {r r' : Restorer}

theorem step_identify {cap : Cap} {c : χ} (hid : k.identify t objects = .ok (some cap))
    (hfind : findByBadge (fun c => (k.cap c).localName) cap.localName objects = some c) :
    k.step t (objects, r) =
      (k.parts t c (r.addTranslation (k.badge t) (k.cap c))).map fun c' =>
        (List.modifyFirst (fun c => (k.cap c).localName == cap.localName) (fun _ => c'.1) objects,
          c'.2) := by
  simp only [step, hid, enter, hfind, bind, Except.bind]
  cases k.parts t c (r.addTranslation (k.badge t) (k.cap c)) <;> rfl

theorem step_recreate {c : χ} {r₁ : Restorer} (hid : k.identify t objects = .ok none)
    (hrec : k.recreate t r = .ok (c, r₁)) :
    k.step t (objects, r) =
      (k.parts t c ((r₁.addKcap (k.kcap t) (k.cap c)).addTranslation (k.badge t) (k.cap c))).map
        fun c' => (c'.1 :: objects, c'.2) := by
  simp only [step, hid, hrec, enter, findByBadge, List.modifyFirst, bind, Except.bind]
  rw [List.find?_cons_of_pos (by simp)]
  simp only [beq_self_eq_true, if_true]
  cases k.parts t c ((r₁.addKcap (k.kcap t) (k.cap c)).addTranslation (k.badge t) (k.cap c)) <;> rfl

/-- The same without parts. -/
theorem leaf_step_identify {k : RestoKind τ χ} (hleaf : k.parts = noParts) {c : χ}
    (hid : k.identify t objects = .ok (some (k.cap c))) (hc : c ∈ objects) (r : Restorer) :
    k.step t (objects, r) = .ok (objects, r.addTranslation (k.badge t) (k.cap c)) := by
  cases hfind : findByBadge (fun c => (k.cap c).localName) (k.cap c).localName objects with
  | none => exact absurd (List.mem_map_of_mem hc) (findByBadge_eq_none.mp hfind)
  | some d =>
      have hcap : k.cap d = k.cap c := Cap.ext_localName (findByBadge_some hfind).2
      rw [k.step_identify hid hfind, hleaf, hcap]
      exact congrArg (fun l => Except.ok (l, r.addTranslation (k.badge t) (k.cap c)))
        (List.modifyFirst_find hfind)

theorem leaf_step_recreate {k : RestoKind τ χ} (hleaf : k.parts = noParts) {c : χ}
    {r₁ : Restorer} (hid : k.identify t objects = .ok none) (hrec : k.recreate t r = .ok (c, r₁)) :
    k.step t (objects, r) = .ok (c :: objects,
      (r₁.addKcap (k.kcap t) (k.cap c)).addTranslation (k.badge t) (k.cap c)) := by
  rw [k.step_recreate hid hrec, hleaf]
  rfl

/-- **What a step does**: the object is there, or it is created. -/
theorem step_cases (h : k.step t (objects, r) = .ok (objects', r')) :
    (∃ c c', k.identify t objects = .ok (some (k.cap c)) ∧
      findByBadge (fun c => (k.cap c).localName) (k.cap c).localName objects = some c ∧
      k.parts t c (r.addTranslation (k.badge t) (k.cap c)) = .ok (c', r') ∧
      objects' =
        List.modifyFirst (fun d => (k.cap d).localName == (k.cap c).localName) (fun _ => c') objects) ∨
    (∃ c c' r₁, k.identify t objects = .ok none ∧ k.recreate t r = .ok (c, r₁) ∧
      k.parts t c ((r₁.addKcap (k.kcap t) (k.cap c)).addTranslation (k.badge t) (k.cap c)) =
        .ok (c', r') ∧
      objects' = c' :: objects) := by
  obtain ⟨o, hid, hrest⟩ := bind_eq_ok.mp h
  cases o with
  | some cap =>
      left
      cases hfind : findByBadge (fun c => (k.cap c).localName) cap.localName objects with
      | none =>
          simp only [enter, hfind] at hrest
          cases hrest
      | some c =>
          obtain rfl : k.cap c = cap := Cap.ext_localName (findByBadge_some hfind).2
          rw [k.step_identify hid hfind] at h
          cases hparts : k.parts t c (r.addTranslation (k.badge t) (k.cap c)) with
          | error e =>
              rw [hparts] at h
              cases h
          | ok c' =>
              rw [hparts] at h
              cases h
              exact ⟨c, c'.1, hid, hfind, hparts, rfl⟩
  | none =>
      right
      obtain ⟨⟨c, r₁⟩, hrec, -⟩ := bind_eq_ok.mp hrest
      rw [k.step_recreate hid hrec] at h
      cases hparts : k.parts t c
          ((r₁.addKcap (k.kcap t) (k.cap c)).addTranslation (k.badge t) (k.cap c)) with
      | error e =>
          rw [hparts] at h
          cases h
      | ok c' =>
          rw [hparts] at h
          cases h
          exact ⟨c, c'.1, r₁, hid, hrec, hparts, rfl⟩

end RestoKind

/-! ## Badges -/

/-- The badges of the entries that have come into the translation. -/
def Enters (badges : List Nat) (r r' : Restorer) : Prop :=
  Adds (·.ckptBadge) badges r.ckptToRestoInfos r'.ckptToRestoInfos

theorem Enters.refl (r : Restorer) : Enters [] r r := Adds.refl ..

theorem enters_addTranslation (badge : Nat) (cap : Cap) (r : Restorer) :
    Enters [badge] r (r.addTranslation badge cap) :=
  Adds.entry (fun e : CkptRestoBadgeInfo => e.ckptBadge) ⟨badge, cap⟩ r.ckptToRestoInfos

/-- Only the table counts. -/
theorem Enters.of_table {badges : List Nat} {r r₁ r' : Restorer}
    (h : r₁.ckptToRestoInfos = r.ckptToRestoInfos) (h' : Enters badges r₁ r') :
    Enters badges r r' := by
  unfold Enters at h' ⊢
  rwa [← h]

theorem Enters.trans {badges badges' : List Nat} {r r₁ r₂ : Restorer} (h : Enters badges r r₁)
    (h' : Enters badges' r₁ r₂) : Enters (badges ++ badges') r r₂ := Adds.trans h h'

theorem RestoKind.step_enters {τ χ : Type} (k : RestoKind τ χ) {badges : τ → List Nat}
    (hrec : ∀ t r c r₁, k.recreate t r = .ok (c, r₁) → r₁.ckptToRestoInfos = r.ckptToRestoInfos)
    (hparts : ∀ t c r c' r', k.parts t c r = .ok (c', r') → Enters (badges t) r r') {t : τ}
    {x x' : List χ × Restorer} (h : k.step t x = .ok x') :
    Enters (k.badge t :: badges t) x.2 x'.2 := by
  obtain ⟨objects, r⟩ := x
  obtain ⟨objects', r'⟩ := x'
  rcases k.step_cases h with ⟨c, c', -, -, hp, -⟩ | ⟨c, c', r₁, -, hr, hp, -⟩
  · exact (enters_addTranslation ..).trans (hparts t c _ c' r' hp)
  · have hkcap : (r₁.addKcap (k.kcap t) (k.cap c)).ckptToRestoInfos = r.ckptToRestoInfos :=
      hrec t r c r₁ hr
    refine Enters.of_table hkcap ?_
    exact (enters_addTranslation ..).trans (hparts t c _ c' r' hp)

/-- A kind whose objects enter `badges t` behind their own badge. -/
theorem RestoKind.run_enters {τ χ : Type} (k : RestoKind τ χ) (badges : τ → List Nat)
    (hrec : ∀ t r c r₁, k.recreate t r = .ok (c, r₁) → r₁.ckptToRestoInfos = r.ckptToRestoInfos)
    (hparts : ∀ t c r c' r', k.parts t c r = .ok (c', r') → Enters (badges t) r r') {stored : List τ}
    {objects objects' : List χ} {r r' : Restorer}
    (h : k.run stored objects r = .ok (objects', r')) :
    Enters (stored.flatMap fun t => k.badge t :: badges t) r r' :=
  loop_rel (I := fun _ _ => True)
    (R := fun ts (x x' : List χ × Restorer) =>
      Enters (ts.flatMap fun t => k.badge t :: badges t) x.2 x'.2)
    (fun x _ => Enters.refl x.2) (fun _ _ _ _ _ _ => trivial)
    (fun t ts x x₁ x' _ hstep hrest => by
      rw [List.flatMap_cons]
      exact (k.step_enters hrec hparts hstep).trans hrest)
    h trivial

/-- A kind without parts. -/
theorem RestoKind.run_enters_leaf {τ χ : Type} (k : RestoKind τ χ) (hleaf : k.parts = noParts)
    (hrec : ∀ t r c r₁, k.recreate t r = .ok (c, r₁) → r₁.ckptToRestoInfos = r.ckptToRestoInfos)
    {stored : List τ} {objects objects' : List χ} {r r' : Restorer}
    (h : k.run stored objects r = .ok (objects', r')) : Enters (stored.map k.badge) r r' := by
  have hparts : ∀ t c r c' r', k.parts t c r = .ok (c', r') → Enters [] r r' := by
    intro t c r c' r' hp
    rw [hleaf] at hp
    cases hp
    exact .refl r
  have hrun := k.run_enters (fun _ => []) hrec hparts h
  rwa [← List.map_eq_flatMap] at hrun

/-! ## The badges of a checkpoint -/

def StoredRegionMapInfo.badges (t : StoredRegionMapInfo) : List Nat := [t.badge, t.dsBadge]

def StoredRamSessionInfo.badges (t : StoredRamSessionInfo) : List Nat :=
  t.badge :: t.storedRamdsInfos.map (·.badge)

def StoredPdSessionInfo.badges (t : StoredPdSessionInfo) : List Nat :=
  t.badge :: (t.storedSourceInfos.map (·.badge) ++ t.storedContextInfos.map (·.badge) ++
    (t.storedAddressSpace.badges ++ t.storedStackArea.badges ++ t.storedLinkerArea.badges))

def StoredCpuSessionInfo.badges (t : StoredCpuSessionInfo) : List Nat :=
  t.badge :: t.storedCpuThreadInfos.map (·.badge)

def StoredRmSessionInfo.badges (t : StoredRmSessionInfo) : List Nat :=
  t.badge :: t.storedRegionMapInfos.flatMap (·.badges)

/-- The badges of all stored objects, region-map dataspaces included. -/
def TargetState.badges (st : TargetState) : List Nat :=
  st.ramSessions.flatMap (·.badges) ++ st.pdSessions.flatMap (·.badges) ++
    st.cpuSessions.flatMap (·.badges) ++ st.rmSessions.flatMap (·.badges) ++
    st.logSessions.map (·.badge) ++ st.timerSessions.map (·.badge)

namespace TargetState

variable (st : TargetState)

theorem ramSessions_badges : (st.ramSessions.flatMap (·.badges)).Sublist st.badges := by
  unfold badges
  simp only [List.append_assoc]
  exact List.sublist_append_left ..

theorem ramSessions_badge : (st.ramSessions.map (·.badge)).Sublist st.badges := by
  have hsessions : (st.ramSessions.map (·.badge)).Sublist (st.ramSessions.flatMap (·.badges)) :=
    List.map_sublist_flatMap (fun t : StoredRamSessionInfo => List.sublist_append_left [t.badge] _) _
  exact hsessions.trans st.ramSessions_badges

theorem pdSessions_badges : (st.pdSessions.flatMap (·.badges)).Sublist st.badges := by
  unfold badges
  simp only [List.append_assoc]
  exact (List.sublist_append_left ..).trans (List.sublist_append_right ..)

theorem pdSessions_badge : (st.pdSessions.map (·.badge)).Sublist st.badges := by
  have hsessions : (st.pdSessions.map (·.badge)).Sublist (st.pdSessions.flatMap (·.badges)) :=
    List.map_sublist_flatMap (fun t : StoredPdSessionInfo => List.sublist_append_left [t.badge] _) _
  exact hsessions.trans st.pdSessions_badges

theorem cpuSessions_badges : (st.cpuSessions.flatMap (·.badges)).Sublist st.badges := by
  unfold badges
  simp only [List.append_assoc]
  exact ((List.sublist_append_left ..).trans (List.sublist_append_right ..)).trans
    (List.sublist_append_right ..)

theorem cpuSessions_badge : (st.cpuSessions.map (·.badge)).Sublist st.badges := by
  have hsessions : (st.cpuSessions.map (·.badge)).Sublist (st.cpuSessions.flatMap (·.badges)) :=
    List.map_sublist_flatMap (fun t : StoredCpuSessionInfo => List.sublist_append_left [t.badge] _) _
  exact hsessions.trans st.cpuSessions_badges

theorem rmSessions_badges : (st.rmSessions.flatMap (·.badges)).Sublist st.badges := by
  unfold badges
  exact ((List.sublist_append_right ..).trans (List.sublist_append_left ..)).trans
    (List.sublist_append_left ..)

theorem rmSessions_badge : (st.rmSessions.map (·.badge)).Sublist st.badges := by
  have hsessions : (st.rmSessions.map (·.badge)).Sublist (st.rmSessions.flatMap (·.badges)) :=
    List.map_sublist_flatMap (fun t : StoredRmSessionInfo => List.sublist_append_left [t.badge] _) _
  exact hsessions.trans st.rmSessions_badges

theorem logSessions_badges : (st.logSessions.map (·.badge)).Sublist st.badges :=
  (List.sublist_append_right ..).trans (List.sublist_append_left ..)

theorem timerSessions_badges : (st.timerSessions.map (·.badge)).Sublist st.badges :=
  List.sublist_append_right ..

end TargetState

/-! ## Kind by kind -/

section Enters

variable {g : Genode} {inBootstrap : Bool} {granularity : Nat} {r r' : Restorer}

theorem identifyRecreateRamDataspace_enters {pairs : List CkptRestoBadgeInfo}
    {t : StoredRamDataspaceInfo} {x x' : RamSessionComponent × Restorer}
    (h : identifyRecreateRamDataspace inBootstrap pairs t x = .ok x') :
    Enters [t.badge] x.2 x'.2 := by
  unfold identifyRecreateRamDataspace at h
  split at h
  · split at h
    · cases h
    · split at h
      · cases h
        exact enters_addTranslation ..
      · cases h
  · split at h
    · cases h
    · split at h
      · cases h
        exact Enters.of_table rfl (enters_addTranslation ..)
      · cases h

theorem identifyRecreateRamDataspaces_enters {stored : List StoredRamDataspaceInfo}
    {s s' : RamSessionComponent}
    (h : identifyRecreateRamDataspaces inBootstrap stored s r = .ok (s', r')) :
    Enters (stored.map (·.badge)) r r' := by
  obtain ⟨pairs, -, hrest⟩ := bind_eq_ok.mp h
  split at hrest
  · cases hrest
  · refine loop_rel (I := fun _ _ => True)
      (R := fun ts (x x' : RamSessionComponent × Restorer) =>
        Enters (ts.map (·.badge)) x.2 x'.2)
      (fun x _ => .refl x.2) (fun _ _ _ _ _ _ => trivial) ?_ hrest trivial
    intro t ts x x₁ x' _ hstep hloop
    exact (identifyRecreateRamDataspace_enters hstep).trans hloop

theorem identifyRecreateRamSessions_enters {stored : List StoredRamSessionInfo}
    {ramRoot ramRoot' : List RamSessionComponent}
    (h : identifyRecreateRamSessions g granularity inBootstrap stored ramRoot r =
      .ok (ramRoot', r')) : Enters (stored.flatMap (·.badges)) r r' := by
  cases ramRoot with
  | nil => cases h
  | cons bootstrapped _ =>
      refine (ramSessionKind g granularity inBootstrap bootstrapped).run_enters
        (fun t => t.storedRamdsInfos.map fun d => d.badge) ?_ ?_ h
      · intro t r c r₁ hrec
        cases hrec
        rfl
      · intro t s r s' r' hparts
        exact identifyRecreateRamDataspaces_enters hparts

theorem identifyRecreateSignalSources_enters {stored : List StoredSignalSourceInfo}
    {sources sources' : List SignalSourceInfo}
    (h : identifyRecreateSignalSources inBootstrap stored sources r = .ok (sources', r')) :
    Enters (stored.map (·.badge)) r r' := by
  cases sources with
  | nil => cases h
  | cons bootstrapped _ =>
      refine (signalSourceKind inBootstrap bootstrapped).run_enters_leaf rfl ?_ h
      intro t r c r₁ hrec
      cases hrec
      rfl

theorem signalContextKind_recreate {t : StoredSignalContextInfo} {c : SignalContextInfo}
    {r₁ : Restorer} (h : (signalContextKind inBootstrap).recreate t r = .ok (c, r₁)) :
    ∃ ssCap, contextSource t r = .ok ssCap ∧
      c = (SignalContextInfo.create ssCap t.imprint inBootstrap r.core).1 ∧
      r₁ = r.setCore r.core.newCap.2 := by
  obtain ⟨ssCap, hss, hrest⟩ := bind_eq_ok.mp h
  cases hrest
  exact ⟨ssCap, hss, rfl, rfl⟩

theorem signalContextKind_recreate_of_source {t : StoredSignalContextInfo} {ssCap : Cap}
    (h : contextSource t r = .ok ssCap) :
    (signalContextKind inBootstrap).recreate t r =
      .ok ((SignalContextInfo.create ssCap t.imprint inBootstrap r.core).1,
        r.setCore r.core.newCap.2) := by
  simp only [signalContextKind, h, bind, Except.bind]
  rfl

theorem identifyRecreateSignalContexts_enters {stored : List StoredSignalContextInfo}
    {contexts contexts' : List SignalContextInfo}
    (h : identifyRecreateSignalContexts inBootstrap stored contexts r = .ok (contexts', r')) :
    Enters (stored.map (·.badge)) r r' := by
  refine (signalContextKind inBootstrap).run_enters_leaf rfl ?_ h
  intro t r c r₁ hrec
  obtain ⟨_, -, -, rfl⟩ := signalContextKind_recreate hrec
  rfl

theorem addRegionMap_enters (t : StoredRegionMapInfo) (rm : RegionMapComponent) (r : Restorer) :
    Enters t.badges r (addRegionMap t rm r) :=
  (enters_addTranslation ..).trans (enters_addTranslation ..)

/-- The phases of `pdSessionParts`. -/
theorem pdSessionParts_cases {t : StoredPdSessionInfo} {pd pd' : PdSessionComponent}
    (h : pdSessionParts inBootstrap t pd r = .ok (pd', r')) :
    ∃ sources r₁ contexts r₂,
      identifyRecreateSignalSources inBootstrap t.storedSourceInfos pd.parentState.signalSources
        r = .ok (sources, r₁) ∧
      identifyRecreateSignalContexts inBootstrap t.storedContextInfos
        pd.parentState.signalContexts r₁ = .ok (contexts, r₂) ∧
      pd' = pd.setSignals sources contexts ∧
      r' = addRegionMap t.storedLinkerArea pd.linkerArea (addRegionMap t.storedStackArea
        pd.stackArea (addRegionMap t.storedAddressSpace pd.addressSpace r₂)) := by
  obtain ⟨⟨sources, r₁⟩, hs, hrest⟩ := bind_eq_ok.mp h
  obtain ⟨⟨contexts, r₂⟩, hc, hlast⟩ := bind_eq_ok.mp hrest
  cases hlast
  exact ⟨sources, r₁, contexts, r₂, hs, hc, rfl, rfl⟩

theorem pdSessionParts_enters {t : StoredPdSessionInfo} {pd pd' : PdSessionComponent}
    (h : pdSessionParts inBootstrap t pd r = .ok (pd', r')) :
    Enters (t.storedSourceInfos.map (·.badge) ++ t.storedContextInfos.map (·.badge) ++
      (t.storedAddressSpace.badges ++ t.storedStackArea.badges ++ t.storedLinkerArea.badges))
      r r' := by
  obtain ⟨sources, r₁, contexts, r₂, hs, hc, -, rfl⟩ := pdSessionParts_cases h
  refine ((identifyRecreateSignalSources_enters hs).trans
    (identifyRecreateSignalContexts_enters hc)).trans ?_
  exact ((addRegionMap_enters ..).trans (addRegionMap_enters ..)).trans (addRegionMap_enters ..)

theorem identifyRecreatePdSessions_enters {stored : List StoredPdSessionInfo}
    {pdRoot pdRoot' : List PdSessionComponent}
    (h : identifyRecreatePdSessions g inBootstrap stored pdRoot r = .ok (pdRoot', r')) :
    Enters (stored.flatMap (·.badges)) r r' := by
  cases pdRoot with
  | nil => cases h
  | cons bootstrapped _ =>
      refine (pdSessionKind g inBootstrap bootstrapped).run_enters _ ?_
        (fun t s r s' r' => pdSessionParts_enters) h
      intro t r c r₁ hrec
      cases hrec
      rfl

theorem cpuThreadKind_recreate {pdSessions : List PdSessionComponent} {t : StoredCpuThreadInfo}
    {c : CpuThreadComponent} {r₁ : Restorer}
    (h : (cpuThreadKind inBootstrap pdSessions).recreate t r = .ok (c, r₁)) :
    ∃ pdSession, threadPdSession t pdSessions r = .ok pdSession ∧
      c = (CpuThreadComponent.create pdSession.cap t.name t.affinity t.weight t.utcb inBootstrap
        r.core).1 ∧
      r₁ = r.setCore r.core.newCap.2 := by
  obtain ⟨pdSession, hpd, hrest⟩ := bind_eq_ok.mp h
  cases hrest
  exact ⟨pdSession, hpd, rfl, rfl⟩

theorem cpuThreads_enters {pdSessions : List PdSessionComponent}
    {stored : List StoredCpuThreadInfo} {threads threads' : List CpuThreadComponent}
    (h : (cpuThreadKind inBootstrap pdSessions).run stored threads r = .ok (threads', r')) :
    Enters (stored.map (·.badge)) r r' := by
  refine (cpuThreadKind inBootstrap pdSessions).run_enters_leaf rfl ?_ h
  intro t r c r₁ hrec
  obtain ⟨_, -, -, rfl⟩ := cpuThreadKind_recreate hrec
  rfl

theorem identifyRecreateCpuThreads_cases {pdSessions : List PdSessionComponent}
    {stored : List StoredCpuThreadInfo} {s s' : CpuSessionComponent}
    (h : identifyRecreateCpuThreads inBootstrap pdSessions stored s r = .ok (s', r')) :
    ∃ threads, (cpuThreadKind inBootstrap pdSessions).run stored s.parentState.cpuThreads r =
      .ok (threads, r') ∧ s' = s.setThreads threads := by
  obtain ⟨⟨threads, r₁⟩, hrun, hrest⟩ := bind_eq_ok.mp h
  cases hrest
  exact ⟨threads, hrun, rfl⟩

theorem identifyRecreateCpuSessions_enters {stored : List StoredCpuSessionInfo}
    {pdSessions : List PdSessionComponent} {cpuRoot cpuRoot' : List CpuSessionComponent}
    (h : identifyRecreateCpuSessions g inBootstrap stored pdSessions cpuRoot r =
      .ok (cpuRoot', r')) : Enters (stored.flatMap (·.badges)) r r' := by
  cases cpuRoot with
  | nil => cases h
  | cons bootstrapped _ =>
      refine (cpuSessionKind g inBootstrap pdSessions bootstrapped).run_enters
        (fun t => t.storedCpuThreadInfos.map (·.badge)) ?_ ?_ h
      · intro t r c r₁ hrec
        cases hrec
        rfl
      · intro t s r s' r' hparts
        obtain ⟨threads, hrun, -⟩ := identifyRecreateCpuThreads_cases hparts
        exact cpuThreads_enters hrun

theorem identifyRecreateRegionMaps_cases {stored : List StoredRegionMapInfo}
    {s s' : RmSessionComponent}
    (h : identifyRecreateRegionMaps inBootstrap stored s r = .ok (s', r')) :
    ∃ regionMaps, (regionMapKind inBootstrap).run stored s.parentState.regionMaps r =
      .ok (regionMaps, r') ∧ s' = s.setRegionMaps regionMaps := by
  obtain ⟨⟨regionMaps, r₁⟩, hrun, hrest⟩ := bind_eq_ok.mp h
  cases hrest
  exact ⟨regionMaps, hrun, rfl⟩

theorem regionMaps_enters {stored : List StoredRegionMapInfo}
    {regionMaps regionMaps' : List RegionMapComponent}
    (h : (regionMapKind inBootstrap).run stored regionMaps r = .ok (regionMaps', r')) :
    Enters (stored.flatMap (·.badges)) r r' := by
  refine (regionMapKind inBootstrap).run_enters (fun t => [t.dsBadge]) ?_ ?_ h
  · intro t r c r₁ hrec
    cases hrec
    rfl
  · intro t c r c' r' hparts
    cases hparts
    exact enters_addTranslation ..

theorem identifyRecreateSessions_cases {τ χ : Type} {k : RestoKind τ χ} {stored : List τ}
    {root root' : Option (List χ)}
    (h : identifyRecreateSessions k stored root r = .ok (root', r')) :
    ∃ objects, k.run stored (sessionInfos root) r = .ok (objects, r') ∧
      sessionInfos root' = objects ∧ (stored ≠ [] → root' = some objects) := by
  unfold identifyRecreateSessions at h
  split at h
  · rename_i hempty
    cases h
    obtain rfl := List.isEmpty_iff.mp hempty
    exact ⟨sessionInfos root, rfl, rfl, by simp⟩
  · cases hrun : k.run stored (sessionInfos root) r with
    | error e =>
        rw [hrun] at h
        cases h
    | ok x =>
        rw [hrun] at h
        cases h
        exact ⟨x.1, rfl, rfl, fun _ => rfl⟩

theorem identifyRecreateRmSessions_enters {stored : List StoredRmSessionInfo}
    {root root' : Option (List RmSessionComponent)}
    (h : identifyRecreateRmSessions g inBootstrap stored root r = .ok (root', r')) :
    Enters (stored.flatMap (·.badges)) r r' := by
  obtain ⟨objects, hrun, -⟩ := identifyRecreateSessions_cases h
  refine (rmSessionKind g inBootstrap).run_enters
    (fun t => t.storedRegionMapInfos.flatMap (·.badges)) ?_ ?_ hrun
  · intro t r c r₁ hrec
    cases hrec
    rfl
  · intro t s r s' r' hparts
    obtain ⟨regionMaps, hmaps, -⟩ := identifyRecreateRegionMaps_cases hparts
    exact regionMaps_enters hmaps

theorem identifyRecreateLogSessions_enters {stored : List StoredLogSessionInfo}
    {root root' : Option (List LogSessionComponent)}
    (h : identifyRecreateLogSessions g inBootstrap stored root r = .ok (root', r')) :
    Enters (stored.map (·.badge)) r r' := by
  obtain ⟨objects, hrun, -⟩ := identifyRecreateSessions_cases h
  refine (logSessionKind g inBootstrap).run_enters_leaf rfl ?_ hrun
  intro t r c r₁ hrec
  cases hrec
  rfl

theorem identifyRecreateTimerSessions_enters {stored : List StoredTimerSessionInfo}
    {root root' : Option (List TimerSessionComponent)}
    (h : identifyRecreateTimerSessions g inBootstrap stored root r = .ok (root', r')) :
    Enters (stored.map (·.badge)) r r' := by
  obtain ⟨objects, hrun, -⟩ := identifyRecreateSessions_cases h
  refine (timerSessionKind g inBootstrap).run_enters_leaf rfl ?_ hrun
  intro t r c r₁ hrec
  cases hrec
  rfl

end Enters

/-- A run of the whole phase, kind by kind: the sessions afterwards and
the restorer after each kind. -/
structure IdentifyRun (g : Genode) (st : TargetState) (child : TargetChild) (r : Restorer)
    (s : CustomServices) (r' : Restorer) where
  afterRam : Restorer
  afterPd : Restorer
  afterCpu : Restorer
  afterRm : Restorer
  afterLog : Restorer
  ram : identifyRecreateRamSessions g child.granularity child.inBootstrap st.ramSessions
    child.services.ramRoot r = .ok (s.ramRoot, afterRam)
  pd : identifyRecreatePdSessions g child.inBootstrap st.pdSessions child.services.pdRoot
    afterRam = .ok (s.pdRoot, afterPd)
  cpu : identifyRecreateCpuSessions g child.inBootstrap st.cpuSessions s.pdRoot
    child.services.cpuRoot afterPd = .ok (s.cpuRoot, afterCpu)
  rm : identifyRecreateRmSessions g child.inBootstrap st.rmSessions child.services.rmRoot
    afterCpu = .ok (s.rmRoot, afterRm)
  log : identifyRecreateLogSessions g child.inBootstrap st.logSessions child.services.logRoot
    afterRm = .ok (s.logRoot, afterLog)
  timer : identifyRecreateTimerSessions g child.inBootstrap st.timerSessions
    child.services.timerRoot afterLog = .ok (s.timerRoot, r')

theorem identifyRecreate_cases {g : Genode} {st : TargetState} {child : TargetChild}
    {r r' : Restorer} {s : CustomServices} (h : identifyRecreate g st child r = .ok (s, r')) :
    Nonempty (IdentifyRun g st child r s r') := by
  obtain ⟨ram, hram, h⟩ := bind_eq_ok.mp h
  obtain ⟨pd, hpd, h⟩ := bind_eq_ok.mp h
  obtain ⟨cpu, hcpu, h⟩ := bind_eq_ok.mp h
  obtain ⟨rm, hrm, h⟩ := bind_eq_ok.mp h
  obtain ⟨log, hlog, h⟩ := bind_eq_ok.mp h
  obtain ⟨timer, htimer, h⟩ := bind_eq_ok.mp h
  cases h
  exact ⟨⟨ram.2, pd.2, cpu.2, rm.2, log.2, hram, hpd, hcpu, hrm, hlog, htimer⟩⟩

/-- **Exactly the badges of all stored objects** are entered. -/
theorem identifyRecreate_enters {g : Genode} {st : TargetState} {child : TargetChild}
    {r r' : Restorer} {s : CustomServices} (h : identifyRecreate g st child r = .ok (s, r')) :
    Enters st.badges r r' := by
  obtain ⟨run⟩ := identifyRecreate_cases h
  exact (((((identifyRecreateRamSessions_enters run.ram).trans
    (identifyRecreatePdSessions_enters run.pd)).trans
    (identifyRecreateCpuSessions_enters run.cpu)).trans
    (identifyRecreateRmSessions_enters run.rm)).trans
    (identifyRecreateLogSessions_enters run.log)).trans
    (identifyRecreateTimerSessions_enters run.timer)

end Rtcr
