import Rtcr.Restorer.Graph
import Rtcr.Restorer.Memory

/-!
# Restorer.References — the restored objects refer to each other as before

Both phases together. The translation is injective, every stored object
leads to an object of the child, and what that refers to is the
translation of what the stored one refers to (`RestoredGraph`), unless a
thread is created again under the name of a bootstrapped one whose turn
comes later (`restoreObjects_graph_iff`).
-/

namespace Rtcr

open Fallible Translation

/-! ## What is assumed -/

def RamSessionComponent.caps (s : RamSessionComponent) : List Cap :=
  s.cap :: s.parentState.ramDataspaces.map (·.cap)

def PdSessionComponent.caps (pd : PdSessionComponent) : List Cap :=
  pd.cap :: (pd.partCaps ++ pd.parentState.signalContexts.map (·.cap))

def CpuSessionComponent.caps (s : CpuSessionComponent) : List Cap := s.cap :: s.threadCaps

/-- The capabilities of the objects a child has. -/
def CustomServices.objectCaps (s : CustomServices) : List Cap :=
  s.ramRoot.flatMap (·.caps) ++ (s.pdRoot.flatMap (·.caps) ++ (s.cpuRoot.flatMap (·.caps) ++
    ((sessionInfos s.rmRoot).map (·.cap) ++ ((sessionInfos s.logRoot).map (·.cap) ++
      (sessionInfos s.timerRoot).map (·.cap)))))

/-- Different objects have different capabilities, and core has handed
them out. -/
structure HandedOut (core : Core) (caps : List Cap) : Prop where
  nodup : caps.Nodup
  used : ∀ cap ∈ caps, 0 < cap.localName ∧ cap.localName < core.nextBadge

/-- The stored objects can be told apart: by their badges, and those of
bootstrap by what they are identified by. -/
structure DistinctStored (st : TargetState) : Prop where
  badges : st.badges.Nodup
  ram : (st.ramSessions.filter (·.bootstrapped)).length ≤ 1
  pd : (st.pdSessions.filter (·.bootstrapped)).length ≤ 1
  cpu : (st.cpuSessions.filter (·.bootstrapped)).length ≤ 1
  sources : ∀ t ∈ st.pdSessions, (t.storedSourceInfos.filter (·.bootstrapped)).length ≤ 1
  names : ∀ t ∈ st.cpuSessions,
    ((t.storedCpuThreadInfos.filter (·.bootstrapped)).map (·.name)).Nodup

/-- The pairing of the RAM dataspaces of bootstrap is injective. -/
def PairsDistinct (st : TargetState) (s : CustomServices) : Prop :=
  ∀ c ∈ s.ramRoot.head?, ∀ t ∈ st.ramSessions, t.bootstrapped = true → ∀ pairs,
    identifyRamDataspaces c.parentState.ramDataspaces t.storedRamdsInfos = .ok pairs →
      (pairs.map (·.restoCap)).Nodup

instance (st : TargetState) (s : CustomServices) : Decidable (PairsDistinct st s) :=
  inferInstanceAs (Decidable (∀ _ ∈ _, ∀ _ ∈ _, _))

/-! ## Sublists of badges -/

theorem StoredRamSessionInfo.dataspaces_badges (t : StoredRamSessionInfo) :
    (t.storedRamdsInfos.map (·.badge)).Sublist t.badges := List.sublist_cons_self ..

theorem StoredPdSessionInfo.areas_badges (t : StoredPdSessionInfo) :
    (t.areas.map (·.badge)).Sublist t.badges := by
  have hareas : (t.areas.map (·.badge)).Sublist
      (t.storedAddressSpace.badges ++ t.storedStackArea.badges ++ t.storedLinkerArea.badges) :=
    .cons_cons _ (.cons _ (.cons_cons _ (.cons _ (.cons_cons _ (.cons _ .slnil)))))
  exact (hareas.trans (List.sublist_append_right ..)).cons _

theorem StoredCpuSessionInfo.threads_badges (t : StoredCpuSessionInfo) :
    (t.storedCpuThreadInfos.map (·.badge)).Sublist t.badges := List.sublist_cons_self ..

theorem StoredRmSessionInfo.regionMaps_badges (t : StoredRmSessionInfo) :
    (t.storedRegionMapInfos.map (·.badge)).Sublist t.badges := by
  have hmaps : (t.storedRegionMapInfos.map (·.badge)).Sublist
      (t.storedRegionMapInfos.flatMap (·.badges)) :=
    List.map_sublist_flatMap (fun u : StoredRegionMapInfo =>
      List.sublist_append_left [u.badge] [u.dsBadge]) _
  exact hmaps.cons _

/-! ## Different objects, different translations -/

/-- Badges with different translations. -/
structure Faithful (r : Restorer) (badges : List Nat) : Prop where
  nodup : badges.Nodup
  known : ∀ b ∈ badges, ∃ cap, r.translate b = some cap
  injective : ∀ b ∈ badges, ∀ b' ∈ badges, r.translate b = r.translate b' → b = b'

theorem Faithful.sublist {r : Restorer} {badges badges' : List Nat} (h : Faithful r badges)
    (hsub : badges'.Sublist badges) : Faithful r badges' :=
  ⟨h.nodup.sublist hsub, fun b hb => h.known b (hsub.subset hb),
    fun b hb b' hb' he => h.injective b (hsub.subset hb) b' (hsub.subset hb') he⟩

theorem Faithful.apart {τ χ : Type} {k : StateKind τ χ} {r : Restorer} {stored : List τ}
    (h : Faithful r (stored.map k.badge)) : k.Apart r stored := by
  have hpairs := h.nodup
  rw [List.Nodup, List.pairwise_map] at hpairs
  refine hpairs.imp_of_mem fun {t u} ht hu hne he => hne ?_
  exact h.injective _ (List.mem_map_of_mem ht) _ (List.mem_map_of_mem hu) he

theorem Faithful.congr {r r' : Restorer} {badges : List Nat} (h : Faithful r badges)
    (htable : r'.ckptToRestoInfos = r.ckptToRestoInfos) : Faithful r' badges := by
  have htranslate : r'.translate = r.translate := funext (Restorer.translate_congr htable)
  refine ⟨h.nodup, ?_, ?_⟩
  · rw [htranslate]
    exact h.known
  · rw [htranslate]
    exact h.injective

/-- A table of different keys and different values. -/
theorem Restorer.Unambiguous.faithful {r : Restorer} (hr : r.Unambiguous)
    (hcaps : (r.ckptToRestoInfos.map (·.restoCap)).Nodup) {badges : List Nat}
    (hnd : badges.Nodup) (hknown : ∀ b ∈ badges, b ∈ r.ckptToRestoInfos.map (·.ckptBadge)) :
    Faithful r badges where
  nodup := hnd
  known b hb := by
    obtain ⟨e, hmem, rfl⟩ := List.mem_map.mp (hknown b hb)
    exact ⟨e.restoCap, hr.translate hmem⟩
  injective b hb b' hb' he := by
    obtain ⟨e, hmem, rfl⟩ := List.mem_map.mp (hknown b hb)
    obtain ⟨e', hmem', rfl⟩ := List.mem_map.mp (hknown b' hb')
    rw [hr.translate hmem, hr.translate hmem', Option.some.injEq] at he
    rw [List.inj_on_of_nodup_map hcaps hmem hmem' he]

namespace CustomServices

variable {s : CustomServices}

theorem ram_objectCaps {c : RamSessionComponent} (hc : c ∈ s.ramRoot) : c.caps ⊆ s.objectCaps :=
  List.subset_append_of_subset_left _ (List.sublist_flatMap hc).subset

theorem pd_objectCaps {pd : PdSessionComponent} (hpd : pd ∈ s.pdRoot) :
    pd.caps ⊆ s.objectCaps :=
  List.subset_append_of_subset_right _
    (List.subset_append_of_subset_left _ (List.sublist_flatMap hpd).subset)

theorem cpu_objectCaps {c : CpuSessionComponent} (hc : c ∈ s.cpuRoot) : c.caps ⊆ s.objectCaps :=
  List.subset_append_of_subset_right _ (List.subset_append_of_subset_right _
    (List.subset_append_of_subset_left _ (List.sublist_flatMap hc).subset))

theorem others_objectCaps :
    (sessionInfos s.rmRoot).map (·.cap) ++ ((sessionInfos s.logRoot).map (·.cap) ++
      (sessionInfos s.timerRoot).map (·.cap)) ⊆ s.objectCaps :=
  List.subset_append_of_subset_right _ (List.subset_append_of_subset_right _
    (List.subset_append_of_subset_right _ (List.Subset.refl _)))

/-- A session whose objects core has handed out. -/
theorem ram_valid {core : Core} (h : HandedOut core s.objectCaps) {c : RamSessionComponent}
    (hc : c ∈ s.ramRoot) : c.Valid ∧ 0 < core.nextBadge := by
  constructor
  · intro d hd he
    have hused := (h.used d.cap
      (ram_objectCaps hc (List.mem_cons_of_mem _ (List.mem_map_of_mem hd)))).1
    rw [he] at hused
    cases hused
  · exact Nat.zero_lt_of_lt (h.used c.cap (ram_objectCaps hc List.mem_cons_self)).2

end CustomServices

section FirstPhase

variable {g : Genode} {st : TargetState} {child : TargetChild} {r r' : Restorer}
  {s : CustomServices}

/-- What can be identified is part of the list. -/
theorem CustomServices.heads_objectCaps {s : CustomServices} {b : RamSessionComponent}
    {ramRest : List RamSessionComponent} (hram : s.ramRoot = b :: ramRest)
    {pd : PdSessionComponent} {pdRest : List PdSessionComponent} (hpd : s.pdRoot = pd :: pdRest)
    {c : CpuSessionComponent} {cpuRest : List CpuSessionComponent}
    (hcpu : s.cpuRoot = c :: cpuRest) :
    (b.caps ++ ((pd.cap :: pd.partCaps) ++ c.caps)).Sublist s.objectCaps := by
  unfold objectCaps
  rw [hram, hpd, hcpu, List.flatMap_cons, List.flatMap_cons, List.flatMap_cons]
  refine (List.sublist_append_left ..).append (List.Sublist.append ?_ ?_)
  · exact ((List.sublist_append_left ..).cons_cons _).trans (List.sublist_append_left ..)
  · exact (List.sublist_append_left ..).trans (List.sublist_append_left ..)

/-- The phase needs a session of each kind that bootstrap creates. -/
theorem IdentifyRun.heads (run : IdentifyRun g st child r s r') :
    ∃ b ramRest pd pdRest c cpuRest, child.services.ramRoot = b :: ramRest ∧
      child.services.pdRoot = pd :: pdRest ∧ child.services.cpuRoot = c :: cpuRest := by
  obtain ⟨b, hram, -⟩ := identifyRecreateRamSessions_head run.ram
  obtain ⟨pd, hpd, -⟩ := identifyRecreatePdSessions_head run.pd
  obtain ⟨c, hcpu, -⟩ := identifyRecreateCpuSessions_head run.cpu
  obtain ⟨ramRest, hram⟩ := List.head?_eq_some_iff.mp hram
  obtain ⟨pdRest, hpd⟩ := List.head?_eq_some_iff.mp hpd
  obtain ⟨cpuRest, hcpu⟩ := List.head?_eq_some_iff.mp hcpu
  exact ⟨b, ramRest, pd, pdRest, c, cpuRest, hram, hpd, hcpu⟩

/-- **The whole phase** takes no object of the child twice. -/
theorem IdentifyRun.drawsFrom (run : IdentifyRun g st child r s r') (hst : DistinctStored st)
    (hclear : ∀ t ∈ st.cpuSessions, NamesClear t.storedCpuThreadInfos)
    (hchild : HandedOut r.core child.services.objectCaps)
    (hpairs : PairsDistinct st child.services) :
    Restorer.DrawsFrom child.services.objectCaps r r' := by
  obtain ⟨b, ramRest, pd, pdRest, c, cpuRest, hramRoot, hpdRoot, hcpuRoot⟩ := run.heads
  have hheads := child.services.heads_objectCaps hramRoot hpdRoot hcpuRoot
  obtain ⟨hvalid, hpos⟩ := CustomServices.ram_valid hchild (hramRoot ▸ List.mem_cons_self)
  have hcpuCaps := CustomServices.cpu_objectCaps (hcpuRoot ▸ List.mem_cons_self)
  have hahead := run.ahead
  have hram := run.ram
  have hpd := run.pd
  have hcpu := run.cpu
  rw [hramRoot] at hram
  rw [hpdRoot] at hpd
  rw [hcpuRoot] at hcpu
  have hramDraws := identifyRecreateRamSessions_drawsFrom hst.ram hvalid hpos
    (fun t ht => hst.badges.sublist
      (List.parts_sublist st.ramSessions_badges ht t.dataspaces_badges))
    (hpairs b (by rw [hramRoot]; rfl)) hram
  have hpdDraws := identifyRecreatePdSessions_drawsFrom hst.pd hst.sources hpd
  have hcpuDraws := identifyRecreateCpuSessions_drawsFrom
    ((hchild.used c.cap (hcpuCaps List.mem_cons_self)).2.trans_le (hahead.ram.trans hahead.pd).le)
    ?_ hst.cpu
    (fun t ht => ⟨hst.names t ht, hclear t ht⟩) hcpu
  · have hrest := ((identifyRecreateRmSessions_drawsFrom run.rm).trans
      (identifyRecreateLogSessions_drawsFrom run.log)).trans
      (identifyRecreateTimerSessions_drawsFrom run.timer)
    have hall := hramDraws.trans (hpdDraws.trans (hcpuDraws.trans hrest))
    simp only [List.append_nil] at hall
    exact hall.mono hheads.subperm
  · have hcaps : c.caps.Sublist child.services.objectCaps :=
      ((List.sublist_append_right ..).trans (List.sublist_append_right ..)).trans hheads
    exact (hchild.nodup.sublist hcaps).of_cons

end FirstPhase

/-! ## The restored objects -/

section Restored

variable (n : Nat) (r : Restorer)

/-- A handler is the translation of the stored one, if there is one. -/
def HandlerKept (badge : Nat) (sigh : Cap) : Prop := badge ≠ 0 → r.translate badge = some sigh

/-- A region map, and what is attached to it again. -/
structure RestoredRegionMap (t : StoredRegionMapInfo) (rm : RegionMapComponent) : Prop where
  dataspace : r.translate t.dsBadge = some rm.parentState.dsCap
  handler : HandlerKept r t.sighBadge rm.parentState.sigh
  attached : ∀ u ∈ t.storedAttachedRegionInfos, u.bootstrapped = false →
    ∃ info ∈ rm.parentState.attachedRegions, info.relAddr = u.relAddr ∧
      r.translate u.attachedDsBadge = some info.attachedDsCap

/-- A region map of a PD session. -/
structure RestoredArea (t : StoredRegionMapInfo) (rm : RegionMapComponent) : Prop where
  cap : r.translate t.badge = some rm.cap
  state : RestoredRegionMap r t rm

structure RestoredCpuThread (old : List CpuThreadComponent) (t : StoredCpuThreadInfo)
    (c : CpuThreadComponent) : Prop where
  identified : IdentifiedCpuThread n r old t c
  handler : HandlerKept r t.sighBadge c.parentState.sigh

structure RestoredCpuSession (first : CpuSessionComponent) (t : StoredCpuSessionInfo)
    (s : CpuSessionComponent) : Prop where
  origin : Origin n t.bootstrapped (· = first.cap) s.cap
  handler : HandlerKept r t.sighBadge s.parentState.sigh
  threads : Leads r (·.cap) (·.badge) (RestoredCpuThread n r (threadsBefore first t))
    t.storedCpuThreadInfos s.parentState.cpuThreads

structure RestoredRmSession (t : StoredRmSessionInfo) (s : RmSessionComponent) : Prop where
  recreated : n ≤ s.cap.localName
  regionMaps : Leads r (·.cap) (·.badge)
    (fun u rm => n ≤ rm.cap.localName ∧ RestoredRegionMap r u rm) t.storedRegionMapInfos
    s.parentState.regionMaps

structure RestoredTimerSession (t : StoredTimerSessionInfo) (s : TimerSessionComponent) :
    Prop where
  recreated : n ≤ s.cap.localName
  handler : HandlerKept r t.sighBadge s.parentState.sigh

/-- **The graph of the stored objects** is that of the child's: the
translation is injective and leads every stored object to the object that
is identified or created for it, and what that refers to is what the
stored one refers to, translated. -/
structure RestoredGraph (st : TargetState) (before after : CustomServices) : Prop where
  faithful : Faithful r st.badges
  ram : ∃ b, before.ramRoot.head? = some b ∧
    Leads r (·.cap) (·.badge) (RestoredRamSession n r b) st.ramSessions after.ramRoot
  pd : ∃ b, before.pdRoot.head? = some b ∧
    Leads r (·.cap) (·.badge) (RestoredPdSession n r (RestoredArea r) b) st.pdSessions after.pdRoot
  cpu : ∃ b, before.cpuRoot.head? = some b ∧
    Leads r (·.cap) (·.badge) (RestoredCpuSession n r b) st.cpuSessions after.cpuRoot
  rm : Leads r (·.cap) (·.badge) (RestoredRmSession n r) st.rmSessions (sessionInfos after.rmRoot)
  log : Leads r (·.cap) (·.badge) (fun _ s => n ≤ s.cap.localName) st.logSessions
    (sessionInfos after.logRoot)
  timer : Leads r (·.cap) (·.badge) (RestoredTimerSession n r) st.timerSessions
    (sessionInfos after.timerRoot)

end Restored

/-! ## The second phase, kind by kind -/

section SecondPhase

variable {g : Genode} {inBootstrap : Bool} {pdSessions : List PdSessionComponent} {n : Nat}
  {r r₂ r₃ : Restorer}

theorem restoreSigh_kept {χ : Type} {setSigh : Cap → χ → χ} {badge : Nat} {c c' : χ}
    (sigh : χ → Cap) (hset : ∀ cap c, sigh (setSigh cap c) = cap)
    (htable : r₂.ckptToRestoInfos = r.ckptToRestoInfos)
    (h : restoreSigh setSigh badge c pdSessions r₂ = .ok c') : HandlerKept r badge (sigh c') := by
  intro hne
  rcases restoreSigh_cases h with ⟨hzero, -⟩ | ⟨handler, htr, rfl⟩
  · exact absurd hzero hne
  · rw [hset, ← htr, Restorer.translate_congr htable]

theorem regionMapState_restored {t : StoredRegionMapInfo} {rm rm' : RegionMapComponent}
    (htable : r₂.ckptToRestoInfos = r.ckptToRestoInfos)
    (hds : r.translate t.dsBadge = some rm.parentState.dsCap)
    (h : (regionMapState g inBootstrap pdSessions).restore t (some rm) r₂ = .ok (some rm', r₃)) :
    RestoredRegionMap r t rm' := by
  obtain ⟨rm₁, rm'', he, hsigh, hregions⟩ := regionMapState_restore h
  obtain rfl := Option.some.inj he
  have hdsCap : rm₁.parentState.dsCap = rm.parentState.dsCap := by
    rcases restoreSigh_cases hsigh with ⟨-, rfl⟩ | ⟨handler, -, rfl⟩ <;> rfl
  refine ⟨?_, ?_, fun u hu hb => ?_⟩
  · rw [hds, hregions.dsCap, hdsCap]
  · rw [hregions.sigh]
    exact restoreSigh_kept (fun rm : RegionMapComponent => rm.parentState.sigh) (fun _ _ => rfl)
      htable hsigh
  · obtain ⟨info, hinfo, haddr, htr⟩ := hregions.attached u hu hb
    exact ⟨info, hinfo, haddr, by rw [← htr, Restorer.translate_congr htable]⟩

/-! ### Region maps of a PD session -/

section Areas

variable {τ χ : Type} {cap : χ → Cap} {badge : τ → Nat} {rel : τ → χ → Prop} {ts : List τ}
  {cs : List χ}

theorem find_of_nodup (hnd : (cs.map cap).Nodup) {c : χ} (hc : c ∈ cs) :
    findByBadge (fun c => (cap c).localName) (cap c).localName cs = some c := by
  obtain ⟨d, hd, hname, hfind⟩ := findByBadge_of_mem (fun c => (cap c).localName) hc rfl
  rw [hfind, List.inj_on_of_nodup_map hnd hd hc (Cap.ext_localName hname)]

theorem leads_of_forall₂ (hnd : (cs.map cap).Nodup)
    (h : List.Forall₂ (fun t c => r.translate (badge t) = some (cap c) ∧ rel t c) ts cs) :
    Leads r cap badge rel ts cs := by
  intro t ht
  obtain ⟨c, hc, htr, hrel⟩ := List.exists_of_forall₂_left h ht
  exact ⟨c, by rw [findChildObject_of_translate htr, find_of_nodup hnd hc], hrel⟩

theorem Leads.forall₂ (h : Leads r cap badge rel ts cs) (hnd : (cs.map cap).Nodup)
    (hcaps : ts.map (fun t => r.translate (badge t)) = cs.map fun c => some (cap c)) :
    List.Forall₂ (fun t c => r.translate (badge t) = some (cap c) ∧ rel t c) ts cs := by
  have hpairs : List.Forall₂ (fun t c => r.translate (badge t) = some (cap c)) ts cs := by
    have hsame := List.forall₂_eq_eq_eq.symm ▸ hcaps
    rwa [List.forall₂_map_left_iff, List.forall₂_map_right_iff] at hsame
  refine List.forall₂_iff_zip.mpr ⟨hpairs.length_eq, fun {t c} hmem => ?_⟩
  have htr : r.translate (badge t) = some (cap c) := List.forall₂_zip hpairs hmem
  obtain ⟨c', hfind, hrel⟩ := h t (List.of_mem_zip hmem).1
  rw [findChildObject_of_translate htr, find_of_nodup hnd (List.of_mem_zip hmem).2] at hfind
  obtain rfl := Option.some.inj (Except.ok.inj hfind)
  exact ⟨htr, hrel⟩

/-- Different badges lead to different objects. -/
theorem Faithful.caps_nodup (h : Faithful r (ts.map badge))
    (hcaps : ts.map (fun t => r.translate (badge t)) = cs.map fun c => some (cap c)) :
    (cs.map cap).Nodup := by
  have htranslations : ((ts.map badge).map r.translate).Nodup :=
    List.Nodup.map_on (fun b hb b' hb' he => h.injective b hb b' hb' he) h.nodup
  rw [List.map_map] at htranslations
  have hsome : ((cs.map cap).map some).Nodup := by
    rw [List.map_map]
    exact hcaps ▸ htranslations
  exact hsome.of_map some

end Areas

theorem pdSessionState_restored {first : PdSessionComponent} {t : StoredPdSessionInfo}
    {pd pd' : PdSessionComponent} (hf : Faithful r (t.areas.map (·.badge)))
    (htable : r₂.ckptToRestoInfos = r.ckptToRestoInfos)
    (hpd : RestoredPdSession n r (IdentifiedArea r) first t pd)
    (h : (pdSessionState g inBootstrap pdSessions).restore t (some pd) r₂ = .ok (some pd', r₃)) :
    RestoredPdSession n r (RestoredArea r) first t pd' := by
  obtain ⟨c, d, hc, hd, hrun⟩ := StateKind.restore_eq_ok rfl h
  obtain rfl := Option.some.inj hc
  obtain rfl := Option.some.inj hd
  obtain ⟨⟨areas, r₄⟩, hareas, hlast⟩ := bind_eq_ok.mp hrun
  cases hlast
  -- the upgrade leaves all of it alone
  have hcap : (upgradeIfNecessary g PdSessionComponent.upgrade t.upgradeArgs pd).cap = pd.cap :=
    upgradeIfNecessary_keeps (f := fun pd : PdSessionComponent => pd.cap) (fun _ _ => rfl) ..
  have hold : (upgradeIfNecessary g PdSessionComponent.upgrade t.upgradeArgs pd).areas = pd.areas :=
    upgradeIfNecessary_keeps (f := PdSessionComponent.areas) (fun _ _ => rfl) ..
  have hsources : (upgradeIfNecessary g PdSessionComponent.upgrade t.upgradeArgs
      pd).parentState.signalSources = pd.parentState.signalSources :=
    upgradeIfNecessary_keeps (f := fun pd : PdSessionComponent => pd.parentState.signalSources)
      (fun _ _ => rfl) ..
  have hcontexts : (upgradeIfNecessary g PdSessionComponent.upgrade t.upgradeArgs
      pd).parentState.signalContexts = pd.parentState.signalContexts :=
    upgradeIfNecessary_keeps (f := fun pd : PdSessionComponent => pd.parentState.signalContexts)
      (fun _ _ => rfl) ..
  rw [hold] at hareas
  have hsame : t.areas.map (fun u => r.translate u.badge) = pd.areas.map fun rm => some rm.cap :=
    (List.map_eq_of_forall₂ (fun _ _ harea => harea.cap.symm) hpd.areas).symm
  have hleads : Leads r (·.cap) (·.badge)
      (fun u rm => r.translate u.dsBadge = some rm.parentState.dsCap) t.areas pd.areas :=
    leads_of_forall₂ (hf.caps_nodup hsame) (hpd.areas.imp fun _ _ harea =>
      ⟨harea.cap, harea.dataspace⟩)
  have hafter := regionMapState_inPlace.leads hf.apart hareas htable hleads
    (fun u _ rm rm' _ _ htable hds hrestore => regionMapState_restored htable hds hrestore)
  have hcaps : areas.map (·.cap) = pd.areas.map (·.cap) := StateKind.run_caps hareas
  have hsame' : t.areas.map (fun u => r.translate u.badge) = areas.map fun rm => some rm.cap := by
    have hsome := congrArg (List.map some) hcaps
    rw [List.map_map, List.map_map] at hsome
    exact hsame.trans hsome.symm
  refine ⟨?_, ?_, ?_, ?_⟩
  · rw [setAreas_cap, hcap]
    exact hpd.origin
  · rw [setAreas_parentState, hsources]
    exact hpd.sources
  · rw [setAreas_parentState, hcontexts]
    exact hpd.contexts
  · have hlength := congrArg List.length hcaps
    rw [List.length_map, List.length_map] at hlength
    rw [setAreas_areas hlength]
    exact (hafter.forall₂ (hf.caps_nodup hsame') hsame').imp fun _ _ harea => ⟨harea.1, harea.2⟩

/-! ### The other kinds -/

theorem ramSessionState_restored {first : RamSessionComponent} {t : StoredRamSessionInfo}
    {s s' : RamSessionComponent} (hs : RestoredRamSession n r first t s)
    (h : (ramSessionState g).restore t (some s) r₂ = .ok (some s', r₃)) :
    RestoredRamSession n r first t s' := by
  obtain ⟨c, d, hc, hd, hrun⟩ := StateKind.restore_eq_ok rfl h
  obtain rfl := Option.some.inj hc
  obtain rfl := Option.some.inj hd
  obtain ⟨r₄, -, hlast⟩ := bind_eq_ok.mp hrun
  cases hlast
  refine ⟨?_, ?_⟩
  · have hcap : (upgradeIfNecessary g RamSessionComponent.upgrade t.upgradeArgs s).cap = s.cap :=
      upgradeIfNecessary_keeps (f := fun s : RamSessionComponent => s.cap) (fun _ _ => rfl) ..
    rw [hcap]
    exact hs.origin
  · have hdataspaces : (upgradeIfNecessary g RamSessionComponent.upgrade t.upgradeArgs
        s).parentState.ramDataspaces = s.parentState.ramDataspaces :=
      upgradeIfNecessary_keeps (f := fun s : RamSessionComponent => s.parentState.ramDataspaces)
        (fun _ _ => rfl) ..
    rw [hdataspaces]
    exact hs.dataspaces

theorem cpuThreadState_restored {old : List CpuThreadComponent} {t : StoredCpuThreadInfo}
    {c c' : CpuThreadComponent} (htable : r₂.ckptToRestoInfos = r.ckptToRestoInfos)
    (hc : IdentifiedCpuThread n r old t c)
    (h : (cpuThreadState pdSessions).restore t (some c) r₂ = .ok (some c', r₃)) :
    RestoredCpuThread n r old t c' := by
  obtain ⟨d, d', hd, hd', hrun⟩ := StateKind.restore_eq_ok rfl h
  obtain rfl := Option.some.inj hd
  obtain rfl := Option.some.inj hd'
  obtain ⟨c₁, hsigh, hlast⟩ := bind_eq_ok.mp hrun
  have hkept := restoreSigh_kept (fun c : CpuThreadComponent => c.parentState.sigh)
    (fun _ _ => rfl) htable hsigh
  have hsame : c₁.cap = c.cap ∧ c₁.parentState.pdSessionCap = c.parentState.pdSessionCap := by
    rcases restoreSigh_cases hsigh with ⟨-, rfl⟩ | ⟨handler, -, rfl⟩ <;> exact ⟨rfl, rfl⟩
  cases hlast
  -- single stepping and registers do not matter
  have hlast : ∀ b : Bool, ((if b then c₁.setSingleStep true else c₁).setState t.ts).cap = c₁.cap ∧
      ((if b then c₁.setSingleStep true else c₁).setState t.ts).parentState.pdSessionCap =
        c₁.parentState.pdSessionCap ∧
      ((if b then c₁.setSingleStep true else c₁).setState t.ts).parentState.sigh =
        c₁.parentState.sigh := fun b => by
    cases b <;> exact ⟨rfl, rfl, rfl⟩
  obtain ⟨hcap, hpd, hsighCap⟩ := hlast (t.singleStep && !c₁.parentState.singleStep)
  refine ⟨⟨?_, fun hb => ?_⟩, ?_⟩
  · rw [hcap, hsame.1]
    exact hc.origin
  · rw [hpd, hsame.2]
    exact hc.pdSession hb
  · rw [hsighCap]
    exact hkept

theorem cpuSessionState_restored {first : CpuSessionComponent} {t : StoredCpuSessionInfo}
    {s s' : CpuSessionComponent} (hf : Faithful r (t.storedCpuThreadInfos.map (·.badge)))
    (htable : r₂.ckptToRestoInfos = r.ckptToRestoInfos)
    (horigin : Origin n t.bootstrapped (· = first.cap) s.cap)
    (hthreads : Leads r (·.cap) (·.badge) (IdentifiedCpuThread n r (threadsBefore first t))
      t.storedCpuThreadInfos s.parentState.cpuThreads)
    (h : (cpuSessionState g pdSessions).restore t (some s) r₂ = .ok (some s', r₃)) :
    RestoredCpuSession n r first t s' := by
  obtain ⟨d, d', hd, hd', hrun⟩ := StateKind.restore_eq_ok rfl h
  obtain rfl := Option.some.inj hd
  obtain rfl := Option.some.inj hd'
  obtain ⟨s₁, hsigh, hrest⟩ := bind_eq_ok.mp hrun
  obtain ⟨⟨threads, r₄⟩, hloop, hlast⟩ := bind_eq_ok.mp hrest
  have hkept := restoreSigh_kept (fun s : CpuSessionComponent => s.parentState.sigh)
    (fun _ _ => rfl) htable hsigh
  have hsame : s₁.cap = s.cap ∧ s₁.parentState.cpuThreads = s.parentState.cpuThreads := by
    rcases restoreSigh_cases hsigh with ⟨-, rfl⟩ | ⟨handler, -, rfl⟩ <;> exact ⟨rfl, rfl⟩
  cases hlast
  have hcap : (upgradeIfNecessary g CpuSessionComponent.upgrade t.upgradeArgs s₁).cap = s₁.cap :=
    upgradeIfNecessary_keeps (f := fun s : CpuSessionComponent => s.cap) (fun _ _ => rfl) ..
  have hold : (upgradeIfNecessary g CpuSessionComponent.upgrade t.upgradeArgs
      s₁).parentState.cpuThreads = s₁.parentState.cpuThreads :=
    upgradeIfNecessary_keeps (f := fun s : CpuSessionComponent => s.parentState.cpuThreads)
      (fun _ _ => rfl) ..
  have hsighCap : (upgradeIfNecessary g CpuSessionComponent.upgrade t.upgradeArgs
      s₁).parentState.sigh = s₁.parentState.sigh :=
    upgradeIfNecessary_keeps (f := fun s : CpuSessionComponent => s.parentState.sigh)
      (fun _ _ => rfl) ..
  rw [hold, hsame.2] at hloop
  refine ⟨?_, ?_, ?_⟩
  · show Origin n t.bootstrapped _
      (upgradeIfNecessary g CpuSessionComponent.upgrade t.upgradeArgs s₁).cap
    rw [hcap, hsame.1]
    exact horigin
  · show HandlerKept r t.sighBadge
      (upgradeIfNecessary g CpuSessionComponent.upgrade t.upgradeArgs s₁).parentState.sigh
    rw [hsighCap]
    exact hkept
  · exact cpuThreadState_inPlace.leads hf.apart hloop htable hthreads
      fun u _ c c' _ _ htable hc hrestore => cpuThreadState_restored htable hc hrestore

theorem rmSessionState_restored {t : StoredRmSessionInfo} {s s' : RmSessionComponent}
    (hf : Faithful r (t.storedRegionMapInfos.map (·.badge)))
    (htable : r₂.ckptToRestoInfos = r.ckptToRestoInfos) (hnew : n ≤ s.cap.localName)
    (hmaps : Leads r (·.cap) (·.badge)
      (fun u rm => n ≤ rm.cap.localName ∧ r.translate u.dsBadge = some rm.parentState.dsCap)
      t.storedRegionMapInfos s.parentState.regionMaps)
    (h : (rmSessionState g inBootstrap pdSessions).restore t (some s) r₂ = .ok (some s', r₃)) :
    RestoredRmSession n r t s' := by
  obtain ⟨d, d', hd, hd', hrun⟩ := StateKind.restore_eq_ok rfl h
  obtain rfl := Option.some.inj hd
  obtain rfl := Option.some.inj hd'
  obtain ⟨⟨regionMaps, r₄⟩, hloop, hlast⟩ := bind_eq_ok.mp hrun
  cases hlast
  have hcap : (upgradeIfNecessary g RmSessionComponent.upgrade t.upgradeArgs s).cap = s.cap :=
    upgradeIfNecessary_keeps (f := fun s : RmSessionComponent => s.cap) (fun _ _ => rfl) ..
  have hold : (upgradeIfNecessary g RmSessionComponent.upgrade t.upgradeArgs
      s).parentState.regionMaps = s.parentState.regionMaps :=
    upgradeIfNecessary_keeps (f := fun s : RmSessionComponent => s.parentState.regionMaps)
      (fun _ _ => rfl) ..
  rw [hold] at hloop
  refine ⟨?_, ?_⟩
  · show n ≤ (upgradeIfNecessary g RmSessionComponent.upgrade t.upgradeArgs s).cap.localName
    rw [hcap]
    exact hnew
  · refine regionMapState_inPlace.leads hf.apart hloop htable hmaps ?_
    intro u _ rm rm' r₄ r₅ htable ⟨hrm, hds⟩ hrestore
    obtain ⟨rm'', he, hcap⟩ := regionMapState_inPlace.present u rm r₄ (some rm') r₅ hrestore
    obtain rfl := Option.some.inj he
    exact ⟨hrm.trans_eq (congrArg Cap.localName hcap).symm,
      regionMapState_restored htable hds hrestore⟩

theorem timerSessionState_restored {t : StoredTimerSessionInfo} {s s' : TimerSessionComponent}
    (htable : r₂.ckptToRestoInfos = r.ckptToRestoInfos) (hnew : n ≤ s.cap.localName)
    (h : (timerSessionState g pdSessions).restore t (some s) r₂ = .ok (some s', r₃)) :
    RestoredTimerSession n r t s' := by
  obtain ⟨s₁, d, he, -, hsigh, hcap, hsighCap⟩ := timerSessionState_restore h
  obtain rfl := Option.some.inj he
  have hkept := restoreSigh_kept (fun s : TimerSessionComponent => s.parentState.sigh)
    (fun _ _ => rfl) htable hsigh
  have hsame : s₁.cap = s.cap := by
    rcases restoreSigh_cases hsigh with ⟨-, rfl⟩ | ⟨handler, -, rfl⟩ <;> rfl
  refine ⟨?_, ?_⟩
  · rw [hcap, hsame]
    exact hnew
  · rw [hsighCap]
    exact hkept

/-- A service whose root may be missing. -/
theorem restoreStateSessions_leads {τ χ : Type} {k : StateKind τ χ} (hk : k.InPlace)
    {stored : List τ} {root root' : Option (List χ)} {rel rel' : τ → χ → Prop}
    (hf : Faithful r (stored.map k.badge))
    (h : restoreStateSessions k stored root r₂ = .ok (root', r₃))
    (htable : r₂.ckptToRestoInfos = r.ckptToRestoInfos)
    (hleads : Leads r k.cap k.badge rel stored (sessionInfos root))
    (hrel : ∀ t ∈ stored, ∀ c c' r₄ r₅, r₄.ckptToRestoInfos = r.ckptToRestoInfos → rel t c →
      k.restore t (some c) r₄ = .ok (some c', r₅) → rel' t c') :
    Leads r k.cap k.badge rel' stored (sessionInfos root') := by
  rcases restoreStateSessions_cases h with ⟨rfl, rfl, -⟩ | ⟨objects, objects', rfl, rfl, hrun⟩
  · intro t ht
    obtain ⟨c, hfind, -⟩ := hleads t ht
    obtain ⟨cap, -, hnone⟩ := findChildObject_eq_ok hfind
    cases hnone
  · exact hk.leads hf.apart hrun htable hleads hrel

theorem restoreStateSessions_table {τ χ : Type} {k : StateKind τ χ} (hk : k.InPlace)
    {stored : List τ} {root root' : Option (List χ)}
    (h : restoreStateSessions k stored root r₂ = .ok (root', r₃)) :
    r₃.ckptToRestoInfos = r₂.ckptToRestoInfos := by
  rcases restoreStateSessions_cases h with ⟨-, -, rfl⟩ | ⟨objects, objects', -, -, hrun⟩
  · rfl
  · exact hk.run_table hrun

/-- The second phase only reads the translation. -/
structure RestoreRun.Tables {st : TargetState} {s s' : CustomServices} {r r' : Restorer}
    (run : RestoreRun g inBootstrap st s r s' r') : Prop where
  start : r.ckptToRestoInfos = r'.ckptToRestoInfos
  afterRam : run.afterRam.ckptToRestoInfos = r'.ckptToRestoInfos
  afterPd : run.afterPd.ckptToRestoInfos = r'.ckptToRestoInfos
  afterCpu : run.afterCpu.ckptToRestoInfos = r'.ckptToRestoInfos
  afterRm : run.afterRm.ckptToRestoInfos = r'.ckptToRestoInfos
  afterLog : run.afterLog.ckptToRestoInfos = r'.ckptToRestoInfos

theorem RestoreRun.tables {st : TargetState} {s s' : CustomServices} {r r' : Restorer}
    (run : RestoreRun g inBootstrap st s r s' r') : run.Tables := by
  have hram := ramSessionState_inPlace.run_table run.ram
  have hpd := pdSessionState_inPlace.run_table run.pd
  have hcpu := cpuSessionState_inPlace.run_table run.cpu
  have hrm := restoreStateSessions_table rmSessionState_inPlace run.rm
  have hlog := restoreStateSessions_table logSessionState_inPlace run.log
  have hafterLog := (restoreStateSessions_table timerSessionState_inPlace run.timer).symm
  have hafterRm := hlog.symm.trans hafterLog
  have hafterCpu := hrm.symm.trans hafterRm
  have hafterPd := hcpu.symm.trans hafterCpu
  have hafterRam := hpd.symm.trans hafterPd
  exact ⟨hram.symm.trans hafterRam, hafterRam, hafterPd, hafterCpu, hafterRm, hafterLog⟩

end SecondPhase

/-! ## The first phase as a whole -/

section Whole

variable {g : Genode} {st : TargetState} {child : TargetChild} {core : Core} {n : Nat}
  {r r₀ r₁ : Restorer} {s s' : CustomServices}

/-- The objects when the first phase is over; what the threads are like
depends on their names. -/
structure IdentifiedGraph (inBootstrap : Bool) (n : Nat) (r : Restorer) (st : TargetState)
    (before s : CustomServices) : Prop where
  ram : ∃ b, before.ramRoot.head? = some b ∧
    Leads r (·.cap) (·.badge) (RestoredRamSession n r b) st.ramSessions s.ramRoot
  pd : ∃ b, before.pdRoot.head? = some b ∧
    Leads r (·.cap) (·.badge) (RestoredPdSession n r (IdentifiedArea r) b) st.pdSessions s.pdRoot
  cpu : ∃ b, before.cpuRoot.head? = some b ∧
    Leads r (·.cap) (·.badge)
      (fun t c => Origin n t.bootstrapped (· = b.cap) c.cap ∧
        ThreadsRun inBootstrap n r s.pdRoot b t c) st.cpuSessions s.cpuRoot
  rm : Leads r (·.cap) (·.badge)
    (fun t c => n ≤ c.cap.localName ∧ Leads r (·.cap) (·.badge)
      (fun u rm => n ≤ rm.cap.localName ∧ r.translate u.dsBadge = some rm.parentState.dsCap)
      t.storedRegionMapInfos c.parentState.regionMaps) st.rmSessions (sessionInfos s.rmRoot)
  log : Leads r (·.cap) (·.badge) (fun _ c => n ≤ c.cap.localName) st.logSessions
    (sessionInfos s.logRoot)
  timer : Leads r (·.cap) (·.badge) (fun _ c => n ≤ c.cap.localName) st.timerSessions
    (sessionInfos s.timerRoot)

theorem IdentifyRun.graph (run : IdentifyRun g st child r₀ s r₁) (hst : DistinctStored st)
    (hchild : HandedOut r₀.core child.services.objectCaps) (hr : r.Unambiguous)
    (hlater : r₁.Within r) :
    IdentifiedGraph child.inBootstrap r₀.core.nextBadge r st child.services s := by
  obtain ⟨b, ramRest, pd, pdRest, c, cpuRest, hramRoot, hpdRoot, hcpuRoot⟩ := run.heads
  have hahead := run.ahead
  have hlog := hahead.timer.within hlater
  have hrm := hahead.log.within hlog
  have hcpu := hahead.rm.within hrm
  have hpd := hahead.cpu.within hcpu
  have hram := hahead.pd.within hpd
  have hnRam := hahead.ram.le
  have hnPd := hnRam.trans hahead.pd.le
  have hnCpu := hnPd.trans hahead.cpu.le
  have hnRm := hnCpu.trans hahead.rm.le
  have hnLog := hnRm.trans hahead.log.le
  have hbelow : ∀ cap ∈ child.services.objectCaps, cap.localName < r₀.core.nextBadge :=
    fun cap hcap => (hchild.used cap hcap).2
  have hramBelow : ∀ x ∈ child.services.ramRoot, x.cap.localName < r₀.core.nextBadge :=
    fun x hx => hbelow _ (CustomServices.ram_objectCaps hx List.mem_cons_self)
  have hpdBelow : ∀ x ∈ child.services.pdRoot, x.cap.localName < r₀.core.nextBadge :=
    fun x hx => hbelow _ (CustomServices.pd_objectCaps hx List.mem_cons_self)
  have hcpuBelow : ∀ x ∈ child.services.cpuRoot, x.cap.localName < r₀.core.nextBadge :=
    fun x hx => hbelow _ (CustomServices.cpu_objectCaps hx List.mem_cons_self)
  have hpdParts : ∀ cap ∈ pd.partCaps ++ pd.parentState.signalContexts.map (·.cap),
      cap.localName < r₀.core.nextBadge := fun cap hcap =>
    hbelow _ (CustomServices.pd_objectCaps (hpdRoot ▸ List.mem_cons_self)
      (List.mem_cons_of_mem _ hcap))
  have hothers := CustomServices.others_objectCaps (s := child.services)
  refine ⟨⟨b, by rw [hramRoot]; rfl, ?_⟩, ⟨pd, by rw [hpdRoot]; rfl, ?_⟩,
    ⟨c, by rw [hcpuRoot]; rfl, ?_⟩, ?_, ?_, ?_⟩
  · obtain ⟨hvalid, hpos⟩ := CustomServices.ram_valid hchild (hramRoot ▸ List.mem_cons_self)
    exact identifyRecreateRamSessions_leads hst.ram (hramRoot ▸ hramBelow)
      ⟨hvalid, hpos, Nat.le_refl _⟩ hr (hramRoot ▸ run.ram) hram
  · refine identifyRecreatePdSessions_leads hst.pd hst.sources
      (fun x hx => (hpdBelow x (hpdRoot ▸ hx)).trans_le hnRam) (fun x hx => ?_) (fun x hx => ?_) hr
      (hpdRoot ▸ run.pd) hpd hnRam
    · exact (hpdParts _ (List.mem_append_left _ (List.mem_append_left _
        (List.mem_map_of_mem hx)))).trans_le hnRam
    · exact (hpdParts _ (List.mem_append_right _ (List.mem_map_of_mem hx))).trans_le hnRam
  · exact identifyRecreateCpuSessions_leads hst.cpu
      (fun x hx => (hcpuBelow x (hcpuRoot ▸ hx)).trans_le hnPd) hr (hcpuRoot ▸ run.cpu) hcpu hnPd
  · exact identifyRecreateRmSessions_leads (fun x hx => (hbelow _ (hothers
      (List.mem_append_left _ (List.mem_map_of_mem hx)))).trans_le hnCpu) hr run.rm hrm hnCpu
  · exact identifyRecreateSessions_leads logSessionKind_lawful (fun _ _ => rfl)
      (fun x hx => (hbelow _ (hothers (List.mem_append_right _ (List.mem_append_left _
        (List.mem_map_of_mem hx))))).trans_le hnRm) hr run.log hlog hnRm
  · exact identifyRecreateSessions_leads timerSessionKind_lawful (fun _ _ => rfl)
      (fun x hx => (hbelow _ (hothers (List.mem_append_right _ (List.mem_append_right _
        (List.mem_map_of_mem hx))))).trans_le hnLog) hr run.timer hlater hnLog

/-- **Different stored objects** are translated to different objects. -/
theorem identifyRecreate_faithful (h : identifyRecreate g st child r₀ = .ok (s, r₁))
    (hst : DistinctStored st) (hchild : HandedOut r₀.core child.services.objectCaps)
    (hpairs : PairsDistinct st child.services) (hempty : r₀.ckptToRestoInfos = [])
    (hclear : ∀ t ∈ st.cpuSessions, NamesClear t.storedCpuThreadInfos) :
    Faithful r₁ st.badges := by
  obtain ⟨run⟩ := identifyRecreate_cases h
  obtain ⟨hperm, hr⟩ := identifyRecreate_unambiguous h hst.badges hempty
  have hdraws := run.drawsFrom hst hclear hchild hpairs
  unfold Restorer.DrawsFrom at hdraws
  rw [hempty] at hdraws
  exact hr.faithful (hdraws.nodup hchild.nodup fun cap hcap => (hchild.used cap hcap).2) hst.badges
    fun b hb => hperm.mem_iff.mpr hb

theorem threadsBefore_subset (first : CpuSessionComponent) (t : StoredCpuSessionInfo) :
    threadsBefore first t ⊆ first.parentState.cpuThreads := by
  unfold threadsBefore
  split
  · exact List.Subset.refl _
  · exact List.nil_subset _

section Threads

variable {inBootstrap : Bool} {pdSessions : List PdSessionComponent} {first c : CpuSessionComponent}
  {t : StoredCpuSessionInfo}

theorem ThreadsRun.leads (h : ThreadsRun inBootstrap n r pdSessions first t c)
    (hclear : NamesClear t.storedCpuThreadInfos)
    (hbelow : ∀ d ∈ first.parentState.cpuThreads, d.cap.localName < n) (hr : r.Unambiguous) :
    Leads r (·.cap) (·.badge) (IdentifiedCpuThread n r (threadsBefore first t))
      t.storedCpuThreadInfos c.parentState.cpuThreads := by
  obtain ⟨ra, rb, hrun, hn, hlater⟩ := h
  exact cpuThreads_leads
    (fun d hd => (hbelow d (threadsBefore_subset first t hd)).trans_le hn) hclear hr hrun hlater hn

theorem ThreadsRun.clear (h : ThreadsRun inBootstrap n r pdSessions first t c)
    (hbelow : ∀ d ∈ first.parentState.cpuThreads, d.cap.localName < n) (hr : r.Unambiguous)
    (horigin : ∀ u ∈ t.storedCpuThreadInfos, u.bootstrapped = true →
      ∃ d ∈ threadsBefore first t, r.translate u.badge = some d.cap) :
    NamesClear t.storedCpuThreadInfos := by
  obtain ⟨ra, rb, hrun, hn, hlater⟩ := h
  exact cpuThreads_clear
    (fun d hd => (hbelow d (threadsBefore_subset first t hd)).trans_le hn) hr hrun hlater horigin

end Threads

/-! ## Both phases -/

theorem IdentifiedGraph.restored {inBootstrap : Bool} {before : CustomServices}
    (h : IdentifiedGraph inBootstrap n r₁ st before s)
    (run : RestoreRun g inBootstrap st s r s' r₁) (hf : Faithful r₁ st.badges)
    (hr : r₁.Unambiguous)
    (hbelow : ∀ c ∈ before.cpuRoot, ∀ d ∈ c.parentState.cpuThreads, d.cap.localName < n)
    (hclear : ∀ t ∈ st.cpuSessions, NamesClear t.storedCpuThreadInfos) :
    RestoredGraph n r₁ st before s' := by
  have htables := run.tables
  obtain ⟨b, hb, hram⟩ := h.ram
  obtain ⟨pd, hpd, hpds⟩ := h.pd
  obtain ⟨c, hc, hcpu⟩ := h.cpu
  refine ⟨hf, ⟨b, hb, ?_⟩, ⟨pd, hpd, ?_⟩, ⟨c, hc, ?_⟩, ?_, ?_, ?_⟩
  · exact ramSessionState_inPlace.leads (hf.sublist st.ramSessions_badge).apart run.ram
      htables.start hram fun t _ a a' _ _ _ ha hrestore => ramSessionState_restored ha hrestore
  · refine pdSessionState_inPlace.leads (hf.sublist st.pdSessions_badge).apart run.pd
      htables.afterRam hpds fun t ht a a' _ _ htable ha hrestore => ?_
    have hareas := hf.sublist (List.parts_sublist st.pdSessions_badges ht t.areas_badges)
    exact pdSessionState_restored hareas htable ha hrestore
  · refine cpuSessionState_inPlace.leads (hf.sublist st.cpuSessions_badge).apart run.cpu
      htables.afterPd hcpu fun t ht a a' _ _ htable ⟨horigin, hthreads⟩ hrestore => ?_
    have hparts := hf.sublist (List.parts_sublist st.cpuSessions_badges ht t.threads_badges)
    exact cpuSessionState_restored hparts htable horigin
      (hthreads.leads (hclear t ht) (hbelow c (List.mem_of_mem_head? hc)) hr) hrestore
  · refine restoreStateSessions_leads rmSessionState_inPlace (hf.sublist st.rmSessions_badge) run.rm
      htables.afterCpu h.rm fun t ht a a' _ _ htable ⟨hnew, hmaps⟩ hrestore => ?_
    have hparts := hf.sublist (List.parts_sublist st.rmSessions_badges ht t.regionMaps_badges)
    exact rmSessionState_restored hparts htable hnew hmaps hrestore
  · refine restoreStateSessions_leads logSessionState_inPlace (hf.sublist st.logSessions_badges)
      run.log htables.afterRm h.log fun t _ a a' _ _ _ hnew hrestore => ?_
    obtain ⟨d, he, hcap⟩ := logSessionState_inPlace.present t a _ _ _ hrestore
    obtain rfl := Option.some.inj he
    exact hnew.trans_eq (congrArg Cap.localName hcap).symm
  · exact restoreStateSessions_leads timerSessionState_inPlace (hf.sublist st.timerSessions_badges)
      run.timer htables.afterLog h.timer fun t _ a a' _ _ htable hnew hrestore =>
        timerSessionState_restored htable hnew hrestore

theorem Leads.translate {τ χ : Type} {cap : χ → Cap} {badge : τ → Nat} {rel : τ → χ → Prop}
    {stored : List τ} {objects : List χ} (h : Leads r cap badge rel stored objects) {t : τ}
    (ht : t ∈ stored) : ∃ c, r.translate (badge t) = some (cap c) ∧ rel t c := by
  obtain ⟨c, hfind, hrel⟩ := h t ht
  obtain ⟨restoCap, htr, hc⟩ := findChildObject_eq_ok hfind
  exact ⟨c, by rw [htr, Cap.ext_localName (findByBadge_some hc.symm).2], hrel⟩

/-- Where the bootstrapped threads lead to those of bootstrap, the names
are clear. -/
theorem IdentifiedGraph.clear {inBootstrap : Bool} {before : CustomServices}
    (h : IdentifiedGraph inBootstrap n r st before s) (hr : r.Unambiguous)
    (hbelow : ∀ c ∈ before.cpuRoot, ∀ d ∈ c.parentState.cpuThreads, d.cap.localName < n)
    (hgraph : RestoredGraph n r st before s') :
    ∀ t ∈ st.cpuSessions, NamesClear t.storedCpuThreadInfos := by
  intro t ht
  obtain ⟨b, hb, hidentified⟩ := h.cpu
  obtain ⟨b', hb', hrestored⟩ := hgraph.cpu
  obtain rfl : b = b' := Option.some.inj (hb.symm.trans hb')
  obtain ⟨_, -, -, hrun⟩ := hidentified t ht
  obtain ⟨_, -, hsession⟩ := hrestored t ht
  refine hrun.clear (hbelow b (List.mem_of_mem_head? hb)) hr fun u hu hbu => ?_
  obtain ⟨c, htr, hthread⟩ := hsession.threads.translate hu
  obtain ⟨d, hd, -, hcap⟩ := hthread.identified.origin.identified hbu
  exact ⟨d, hd, by rw [htr, hcap]⟩

/-- **The graph of the objects** is restored if and only if no thread is
created again under the name of a bootstrapped one that comes later. -/
theorem restoreObjects_graph_iff {g : Genode} {st : TargetState} {child : TargetChild} {core : Core}
    {s' : CustomServices} {r' : Restorer} (hst : DistinctStored st)
    (hchild : HandedOut core child.services.objectCaps) (hpairs : PairsDistinct st child.services)
    (h : Restorer.restoreObjects g st child (.new core) = .ok (s', r')) :
    RestoredGraph core.nextBadge r' st child.services s' ↔
      ∀ t ∈ st.cpuSessions, NamesClear t.storedCpuThreadInfos := by
  obtain ⟨⟨s, r₁⟩, hidentify, hrestore⟩ := bind_eq_ok.mp h
  obtain ⟨run⟩ := restoreState_cases hrestore
  obtain ⟨first⟩ := identifyRecreate_cases hidentify
  have htable : r₁.ckptToRestoInfos = r'.ckptToRestoInfos := run.tables.start
  have hr : r'.Unambiguous :=
    (identifyRecreate_unambiguous hidentify hst.badges rfl).2.congr htable.symm
  have hbelow : ∀ c ∈ child.services.cpuRoot, ∀ d ∈ c.parentState.cpuThreads,
      d.cap.localName < core.nextBadge := by
    intro c hc d hd
    exact (hchild.used d.cap (CustomServices.cpu_objectCaps hc
      (List.mem_cons_of_mem _ (List.mem_map_of_mem hd)))).2
  have hgraph : IdentifiedGraph child.inBootstrap core.nextBadge r' st child.services s :=
    first.graph hst hchild hr ⟨[], htable⟩
  constructor
  · intro hrestored
    exact hgraph.clear hr hbelow hrestored
  · intro hclear
    have hf : Faithful r' st.badges :=
      (identifyRecreate_faithful hidentify hst hchild hpairs rfl hclear).congr htable.symm
    exact hgraph.restored run hf hr hbelow hclear

end Whole

/-! ## Two threads of one name -/

namespace ReferenceSample

/-- The small child, which has created a second thread "main". -/
def threaded : TargetChild :=
  { TargetChild.small with
    services :=
      { TargetChild.small.services with
        cpuRoot := [.bare 20 true [.running 22 "main" false, .running 21 "main" true]] } }

/-- Its first checkpoint: the record of the bootstrapped thread stands
in front. -/
def atOnce : TargetState := ((Checkpointer.new .small).checkpoint .empty threaded).state

def first : CheckpointResult := (Checkpointer.new .small).checkpoint .empty .small

/-- Its second checkpoint, where the first one was before the thread was
created: the new record stands in front. -/
def later : TargetState := (first.checkpointer.checkpoint first.state threaded).state

def core : Core := { Core.small with nextBadge := 300 }

def restored (st : TargetState) : Except Err (CustomServices × Restorer) :=
  Restorer.restoreObjects .small st .twin (.new core)

end ReferenceSample

open ReferenceSample in
theorem restoreObjects_graph_iff_threads :
    ∃ s' r', restored atOnce = .ok (s', r') ∧
      RestoredGraph 300 r' atOnce TargetChild.twin.services s' := by
  have hrun : (restored atOnce).toOption.map (fun _ => ()) = some () := by decide +kernel
  obtain ⟨⟨s', r'⟩, hok, -⟩ := exists_ok_of_map hrun
  exact ⟨s', r', hok, (restoreObjects_graph_iff
    ⟨by decide +kernel, by decide +kernel, by decide +kernel, by decide +kernel,
      by decide +kernel, by decide +kernel⟩
    ⟨by decide +kernel, by decide +kernel⟩ (by decide +kernel) hok).mpr (by decide +kernel)⟩

open ReferenceSample in
/-- Where the new thread is created first, it is found under the name of
the bootstrapped one: both are translated to it. -/
theorem bootstrapped_thread_mistaken :
    DistinctStored later ∧ HandedOut core TargetChild.twin.services.objectCaps ∧
      PairsDistinct later TargetChild.twin.services ∧
      ∃ s' r', restored later = .ok (s', r') ∧ r'.translate 21 = r'.translate 22 ∧
        ¬RestoredGraph 300 r' later TargetChild.twin.services s' := by
  refine ⟨⟨by decide +kernel, by decide +kernel, by decide +kernel, by decide +kernel,
    by decide +kernel, by decide +kernel⟩, ⟨by decide +kernel, by decide +kernel⟩,
    by decide +kernel, ?_⟩
  have hrun : (restored later).toOption.map (fun x =>
      decide (x.2.translate 21 = x.2.translate 22)) = some true := by decide +kernel
  obtain ⟨⟨s', r'⟩, hok, hsame⟩ := exists_ok_of_map hrun
  have hsame : r'.translate 21 = r'.translate 22 := of_decide_eq_true hsame
  refine ⟨s', r', hok, hsame, fun hgraph => ?_⟩
  have hbadges := hgraph.faithful.injective 21 (by decide +kernel) 22 (by decide +kernel) hsame
  exact absurd hbadges (by decide)

end Rtcr
