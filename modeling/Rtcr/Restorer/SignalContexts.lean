import Rtcr.Intercept.PdSession
import Rtcr.Restorer.ExtraSessions

/-!
# Restorer.SignalContexts — a stored context and its source

`_identify_recreate_signal_contexts` looks up the source of a stored
context in the translation and uses what it finds unseen. In a first
checkpoint the PD session of bootstrap comes first, and behind it the
phase never gets to another context. So what counts is that session
alone: its contexts are restored exactly if their sources are still in
its list when the checkpoint is made.
-/

namespace Rtcr

open Fallible Translation

/-! ## The turn of a context -/

/-- The turn of the stored object `t` gets to its parts, with the object
`c` and the translation of `r`. -/
def RestoKind.Opens {τ χ : Type} (k : RestoKind τ χ) (t : τ) (x : List χ × Restorer) (c : χ)
    (r : Restorer) : Prop :=
  (∃ cap, k.identify t x.1 = .ok (some cap) ∧
      findByBadge (fun c => (k.cap c).localName) cap.localName x.1 = some c ∧
      r = x.2.addTranslation (k.badge t) (k.cap c)) ∨
    ∃ r₁, k.identify t x.1 = .ok none ∧ k.recreate t x.2 = .ok (c, r₁) ∧
      r = (r₁.addKcap (k.kcap t) (k.cap c)).addTranslation (k.badge t) (k.cap c)

/-- `_identify_recreate_signal_contexts` gets to the stored context `t`,
in the session of one of the records `stored`. -/
def ContextTurn (k : RestoKind StoredPdSessionInfo PdSessionComponent) (inBootstrap : Bool)
    (stored : List StoredPdSessionInfo) (x₀ : List PdSessionComponent × Restorer)
    (t : StoredSignalContextInfo) (y : List SignalContextInfo × Restorer) : Prop :=
  ∃ u x pd r sources r', Reaches k.step stored x₀ u x ∧ k.Opens u x pd r ∧
    identifyRecreateSignalSources inBootstrap u.storedSourceInfos pd.parentState.signalSources r =
      .ok (sources, r') ∧
    Reaches (signalContextKind inBootstrap).step u.storedContextInfos
      (pd.parentState.signalContexts, r') t y

/-- The turn of a context that has a source: the source is translated,
and the context is created with that and with the stored imprint. -/
def ContextRestored (inBootstrap : Bool) (t : StoredSignalContextInfo)
    (y : List SignalContextInfo × Restorer) : Prop :=
  t.signalSourceBadge ≠ 0 → ∃ ssCap, y.2.translate t.signalSourceBadge = some ssCap ∧
    ∃ c r', (signalContextKind inBootstrap).step t y = .ok (c :: y.1, r') ∧ c.ssCap = ssCap ∧
      c.imprint = t.imprint ∧ r'.translate t.badge = some c.cap

/-- All turns of contexts in the restoration of `st` go well. -/
def ContextsRestored (g : Genode) (st : TargetState) (child : TargetChild) (core : Core) : Prop :=
  ∀ ramRoot r bootstrapped rest,
    identifyRecreateRamSessions g child.granularity child.inBootstrap st.ramSessions
      child.services.ramRoot (.new core) = .ok (ramRoot, r) →
    child.services.pdRoot = bootstrapped :: rest →
    ∀ t y, ContextTurn (pdSessionKind g child.inBootstrap bootstrapped) child.inBootstrap
        st.pdSessions (child.services.pdRoot, r) t y →
      ContextRestored child.inBootstrap t y

section Turn

variable {g : Genode} {inBootstrap : Bool} {r : Restorer}

theorem Restorer.translate_addTranslation_self (badge : Nat) (cap : Cap) (r : Restorer) :
    (r.addTranslation badge cap).translate badge = some cap := by
  show Option.map _ (findByBadge _ badge (⟨badge, cap⟩ :: r.ckptToRestoInfos)) = _
  rw [findByBadge_cons, if_pos rfl]
  rfl

/-- **One turn** goes well exactly if the badge of the source is known. -/
theorem contextRestored_iff {t : StoredSignalContextInfo} {y : List SignalContextInfo × Restorer} :
    ContextRestored inBootstrap t y ↔
      t.signalSourceBadge = 0 ∨ t.signalSourceBadge ∈ y.2.known := by
  rw [← contextSource_ok_iff]
  constructor
  · intro h
    by_cases h0 : t.signalSourceBadge = 0
    · exact ⟨Cap.invalid, by simp [contextSource, h0]⟩
    · obtain ⟨ssCap, htranslate, -⟩ := h h0
      exact ⟨ssCap, by simp [contextSource, h0, htranslate]⟩
  · rintro ⟨ssCap, hss⟩ h0
    have htranslate : y.2.translate t.signalSourceBadge = some ssCap := by
      unfold contextSource at hss
      rw [if_pos h0] at hss
      cases hfound : y.2.translate t.signalSourceBadge with
      | none =>
          rw [hfound] at hss
          cases hss
      | some cap =>
          rw [hfound] at hss
          cases hss
          rfl
    obtain ⟨objects, r⟩ := y
    have hrec : (signalContextKind inBootstrap).recreate t r = _ :=
      signalContextKind_recreate_of_source hss
    exact ⟨ssCap, htranslate, _, _, RestoKind.leaf_step_recreate rfl rfl hrec, rfl, rfl,
      Restorer.translate_addTranslation_self ..⟩

/-- **All turns** of one session's contexts. -/
theorem sourcesKnown_iff_reaches {stored : List StoredSignalContextInfo}
    {contexts : List SignalContextInfo} :
    SourcesKnown r.known stored ↔
      ∀ t y, Reaches (signalContextKind inBootstrap).step stored (contexts, r) t y →
        t.signalSourceBadge = 0 ∨ t.signalSourceBadge ∈ y.2.known := by
  induction stored generalizing contexts r with
  | nil => exact iff_of_true trivial fun t y h => absurd h not_reaches_nil
  | cons u us ih =>
      constructor
      · intro ⟨hsource, hrest⟩ t y hreach
        rcases reaches_cons.mp hreach with ⟨rfl, rfl⟩ | ⟨x, hstep, hreach⟩
        · exact hsource
        · have hknown := (signalContextKind_step_known hstep).2
          obtain ⟨contexts', r'⟩ := x
          exact ih.mp (hknown ▸ hrest) t y hreach
      · intro h
        have hsource := h u (contexts, r) (reaches_cons.mpr (.inl ⟨rfl, rfl⟩))
        obtain ⟨⟨contexts', r'⟩, hstep, hknown, -⟩ :=
          @signalContextKind_step_total inBootstrap _ _ hsource
        refine ⟨hsource, ?_⟩
        rw [← hknown]
        exact ih.mpr fun t y hreach => h t y (reaches_cons.mpr (.inr ⟨_, hstep, hreach⟩))

/-! ## The session of bootstrap -/

/-- A session that is created again has no signal source, so the phase
does not get to its contexts. -/
theorem not_contextTurn_recreated {pd₀ : PdSessionComponent} {u : StoredPdSessionInfo}
    (hu : u.bootstrapped = false) {x : List PdSessionComponent × Restorer}
    {pd : PdSessionComponent} (hopens : (pdSessionKind g inBootstrap pd₀).Opens u x pd r)
    {sources : List SignalSourceInfo} {r' : Restorer} :
    identifyRecreateSignalSources inBootstrap u.storedSourceInfos pd.parentState.signalSources r ≠
      .ok (sources, r') := by
  rcases hopens with ⟨cap, hid, -⟩ | ⟨r₁, -, hrec, -⟩
  · dsimp only [pdSessionKind] at hid
    rw [hu] at hid
    cases hid
  · cases hrec
    intro h
    cases h

theorem opens_bootstrapped_iff {pd₀ pd : PdSessionComponent} {u : StoredPdSessionInfo}
    (hu : u.bootstrapped = true) {r₀ : Restorer} :
    (pdSessionKind g inBootstrap pd₀).Opens u ([pd₀], r₀) pd r ↔
      pd = pd₀ ∧ r = r₀.addTranslation u.badge pd₀.cap := by
  have hid : (pdSessionKind g inBootstrap pd₀).identify u [pd₀] = .ok (some pd₀.cap) := by
    show Except.ok (if u.bootstrapped then some pd₀.cap else none) = _
    rw [hu, if_pos rfl]
  have hfind : findByBadge (fun c : PdSessionComponent => c.cap.localName) pd₀.cap.localName
      [pd₀] = some pd₀ := by
    rw [findByBadge_cons, if_pos rfl]
  constructor
  · rintro (⟨cap, hid', hfind', rfl⟩ | ⟨r₁, hid', -⟩)
    · obtain rfl : pd₀.cap = cap := Option.some.inj (Except.ok.inj (hid.symm.trans hid'))
      obtain rfl : pd₀ = pd := Option.some.inj (hfind.symm.trans hfind')
      exact ⟨rfl, rfl⟩
    · cases hid.symm.trans hid'
  · rintro ⟨rfl, rfl⟩
    exact .inl ⟨pd.cap, hid, hfind, rfl⟩

/-- **The contexts of the checkpoint** are restored exactly if every
source is known when its turn comes, in the session of bootstrap. -/
theorem contextTurns_iff {pd₀ : PdSessionComponent} (hsources : pd₀.parentState.signalSources ≠ [])
    {u : StoredPdSessionInfo} {us : List StoredPdSessionInfo} (hu : u.bootstrapped = true)
    (hus : ∀ v ∈ us, v.bootstrapped = false) {r₀ : Restorer} :
    (∀ t y, ContextTurn (pdSessionKind g inBootstrap pd₀) inBootstrap (u :: us) ([pd₀], r₀) t y →
        ContextRestored inBootstrap t y) ↔
      SourcesKnown (u.storedSourceInfos.map (·.badge) ++ u.badge :: r₀.known)
        u.storedContextInfos := by
  obtain ⟨sources, r₁, hrun, -⟩ := identifyRecreateSignalSources_total inBootstrap
    u.storedSourceInfos hsources (r₀.addTranslation u.badge pd₀.cap)
  have hentered := identifyRecreateSignalSources_enters hrun
  have hknown : SourcesKnown r₁.known u.storedContextInfos ↔
      SourcesKnown (u.storedSourceInfos.map (·.badge) ++ u.badge :: r₀.known)
        u.storedContextInfos := by
    have hmem : ∀ b, b ∈ r₁.known ↔
        b ∈ u.storedSourceInfos.map (·.badge) ++ u.badge :: r₀.known := fun b => by
      rw [hentered.mem_known, List.mem_append]
      rfl
    exact ⟨fun h => h.congr fun b hb => (hmem b).mp hb, fun h => h.congr fun b hb => (hmem b).mpr hb⟩
  rw [← hknown, @sourcesKnown_iff_reaches inBootstrap _ _ pd₀.parentState.signalContexts]
  constructor
  · intro h t y hreach
    refine contextRestored_iff.mp (h t y ?_)
    exact ⟨u, ([pd₀], r₀), pd₀, _, sources, r₁, reaches_cons.mpr (.inl ⟨rfl, rfl⟩),
      (opens_bootstrapped_iff hu).mpr ⟨rfl, rfl⟩, hrun, hreach⟩
  · rintro h t y ⟨v, x, pd, r, sources', r', hreach, hopens, hrun', hturn⟩
    rcases reaches_cons.mp hreach with ⟨rfl, rfl⟩ | ⟨x₁, -, before, after, hsplit, -⟩
    · obtain ⟨rfl, rfl⟩ := (opens_bootstrapped_iff hu).mp hopens
      cases hrun.symm.trans hrun'
      exact contextRestored_iff.mpr (h t y hturn)
    · exact absurd hrun' (not_contextTurn_recreated (hus v (by simp [hsplit])) hopens)

/-- Where no context has the badge of a source, it does not help that the
earlier contexts are known. -/
theorem sourcesKnown_iff {known : List Nat} {ts : List StoredSignalContextInfo}
    (happart : ∀ t ∈ ts, t.signalSourceBadge ≠ 0 → ∀ u ∈ ts, t.signalSourceBadge ≠ u.badge) :
    SourcesKnown known ts ↔
      ∀ t ∈ ts, t.signalSourceBadge = 0 ∨ t.signalSourceBadge ∈ known := by
  induction ts generalizing known with
  | nil => exact iff_of_true trivial (by simp)
  | cons u us ih =>
      have hrest := @ih (u.badge :: known) fun t ht h0 v hv =>
        happart t (by simp [ht]) h0 v (by simp [hv])
      rw [List.forall_mem_cons]
      refine and_congr_right fun _ => hrest.trans ?_
      refine forall₂_congr fun t ht => or_congr_right' fun h0 => ?_
      rw [List.mem_cons]
      exact or_iff_right (happart t (by simp [ht]) h0 u (by simp))

end Turn

/-! ## The first checkpoint -/

/-- The badges of the child's RAM sessions and of their dataspaces. -/
def CustomServices.ramBadges (s : CustomServices) : List Nat :=
  s.ramRoot.flatMap fun c => c.cap.localName :: c.parentState.ramDataspaces.map (·.cap.localName)

/-- What the record of a PD session says about its signals. -/
structure SignalRecord (pd : PdSessionComponent) (u : StoredPdSessionInfo) : Prop where
  badge : u.badge = pd.cap.localName
  bootstrapped : u.bootstrapped = pd.parentState.bootstrapped
  sources : (u.storedSourceInfos.map (·.badge)).Perm
    (pd.parentState.signalSources.map (·.cap.localName))
  contexts : (u.storedContextInfos.map fun t => (t.badge, t.signalSourceBadge)).Perm
    (pd.parentState.signalContexts.map fun c => (c.cap.localName, c.ssCap.localName))

section FirstCheckpoint

open Checkpointer Reconcile

variable (core : Core) {child : TargetChild}

theorem prepared_signalRecord (hs : DistinctObjects child.services) :
    ∀ u ∈ ((new core).prepared .empty child).1.pdSessions,
      ∃ pd ∈ child.services.pdRoot, SignalRecord pd u := by
  obtain ⟨hstep, hcur⟩ := prepared_current core hs
  have hsame := (new core).prepareChild_sameObjects child
  intro u hu
  obtain ⟨pd, hpd, hkey, hcurrent⟩ := hcur.pd u hu
  obtain ⟨pd', hpd', hkey', base, -, hupd⟩ := hstep.pd.each u hu
  obtain rfl := List.inj_on_of_nodup_map (hsame.distinct hs).pd hpd hpd' (hkey.trans hkey'.symm)
  refine ⟨pd, hsame.pd ▸ hpd, hkey.symm, hcurrent.bootstrapped, hupd.sources.keys, ?_⟩
  refine hcurrent.contexts.map_perm hupd.contexts.keys hupd.contexts.nodup fun c t hc => ?_
  rw [show t = _ from hc]
  rfl

/-- The records are in the opposite order of the sessions. -/
theorem prepared_pdBadges (hs : DistinctObjects child.services) :
    ((new core).prepared .empty child).1.pdSessions.map (·.badge) =
      (child.services.pdRoot.map (·.cap.localName)).reverse := by
  have hsame := (new core).prepareChild_sameObjects child
  rw [← hsame.pd]
  exact pdSessionKind_keyed.map_reconcile_nil _ (hsame.distinct hs).pd

theorem prepared_ramBadges (hs : DistinctObjects child.services) :
    ∀ b ∈ ((new core).prepared .empty child).1.ramSessions.flatMap (·.badges),
      b ∈ child.services.ramBadges := by
  obtain ⟨-, hcur⟩ := prepared_current core hs
  have hlists := List.map_eq_of_map_eq
    (g := fun c : RamSessionComponent =>
      c.cap.localName :: c.parentState.ramDataspaces.map (·.cap.localName))
    (fun c c' he => by
      rw [RamSessionComponent.cap_of_outline he,
        RamSessionComponent.dataspaceBadges_of_outline he])
    ((new core).prepareChild_sameObjects child).ram
  intro b hb
  obtain ⟨t, ht, hb⟩ := List.mem_flatMap.mp hb
  obtain ⟨c, hc, hkey, hcurrent⟩ := hcur.ram t ht
  show b ∈ child.services.ramRoot.flatMap _
  rw [List.flatMap_def, ← hlists, ← List.flatMap_def]
  refine List.mem_flatMap.mpr ⟨c, hc, ?_⟩
  rcases List.mem_cons.mp hb with rfl | hb
  · exact List.mem_cons.mpr (.inl hkey.symm)
  · obtain ⟨d, hd, rfl⟩ := List.mem_map.mp hb
    obtain ⟨e, he, hekey, -⟩ := hcurrent.dataspaces d hd
    exact List.mem_cons_of_mem _ (List.mem_map.mpr ⟨e, he, hekey⟩)

/-- **The first checkpoint** begins with the PD session of bootstrap, and
no other session in it is one of bootstrap. -/
theorem SignalWorld.Kept.records {w : SignalWorld} (hw : w.Kept)
    (hroot : child.services.pdRoot = w.pdRoot) (hs : DistinctObjects child.services) :
    ∃ boot u us, boot ∈ w.pdRoot ∧
      (∀ pd ∈ w.pdRoot, pd.parentState.bootstrapped = true ↔ pd = boot) ∧
      ((new core).prepared .empty child).1.pdSessions = u :: us ∧ SignalRecord boot u ∧
      ∀ v ∈ us, v.bootstrapped = false := by
  obtain ⟨extras, boot, hsplit, hboot, hextras⟩ := hw.boot
  have hrecord := prepared_signalRecord core hs
  have hbadges := prepared_pdBadges core hs
  have hdistinct := hw.distinct
  rw [hroot] at hrecord hbadges
  rw [hsplit] at hrecord hbadges hdistinct ⊢
  rw [List.map_append, List.reverse_append, List.map_singleton, List.reverse_singleton,
    List.singleton_append] at hbadges
  obtain ⟨u, us, hrecords, hu, hus⟩ := List.map_eq_cons_iff.mp hbadges
  rw [hrecords] at hrecord ⊢
  refine ⟨boot, u, us, by simp, fun pd hpd => ?_, rfl, ?_, fun v hv => ?_⟩
  · rcases List.mem_append.mp hpd with hpd | hpd
    · have hextra := hextras pd hpd
      refine iff_of_false (by simp [hextra]) fun he => ?_
      rw [he, hboot] at hextra
      cases hextra
    · obtain rfl := List.mem_singleton.mp hpd
      exact iff_of_true hboot rfl
  · obtain ⟨pd, hpd, hr⟩ := hrecord u (by simp)
    obtain rfl := List.inj_on_of_nodup_map hdistinct hpd (by simp) (hr.badge.symm.trans hu)
    exact hr
  · obtain ⟨pd, hpd, hr⟩ := hrecord v (by simp [hv])
    rw [hr.bootstrapped]
    rcases List.mem_append.mp hpd with hpd | hpd
    · exact hextras pd hpd
    · -- its badge is one of the other records'
      obtain rfl := List.mem_singleton.mp hpd
      have hmem : pd.cap.localName ∈ (extras.map (·.cap.localName)).reverse := by
        rw [← hus, ← hr.badge]
        exact List.mem_map_of_mem hv
      rw [List.map_append, List.nodup_append] at hdistinct
      exact absurd rfl (hdistinct.2.2 _ (List.mem_reverse.mp hmem) _ (by simp))

end FirstCheckpoint

/-- A source of the record is known exactly if it is in the session. -/
theorem SignalRecord.sourcesKnown_iff {n : Nat} {issued : List Cap} {pd : PdSessionComponent}
    {u : StoredPdSessionInfo} (h : SignalRecord pd u) (hpd : SignalsKept n issued pd)
    {known : List Nat} (hknown : ∀ cap ∈ issued, cap.localName ∉ known) :
    SourcesKnown (u.storedSourceInfos.map (·.badge) ++ u.badge :: known) u.storedContextInfos ↔
      pd.ContextsAnchored := by
  -- a record and its context say the same
  have hcontext : ∀ t ∈ u.storedContextInfos, ∃ c ∈ pd.parentState.signalContexts,
      c.cap.localName = t.badge ∧ c.ssCap.localName = t.signalSourceBadge := by
    intro t ht
    obtain ⟨c, hc, he⟩ := List.mem_map.mp (h.contexts.mem_iff.mp (List.mem_map_of_mem ht))
    exact ⟨c, hc, congrArg Prod.fst he, congrArg Prod.snd he⟩
  have hrecord : ∀ c ∈ pd.parentState.signalContexts, ∃ t ∈ u.storedContextInfos,
      t.signalSourceBadge = c.ssCap.localName := by
    intro c hc
    obtain ⟨t, ht, he⟩ := List.mem_map.mp (h.contexts.mem_iff.mpr (List.mem_map_of_mem hc))
    exact ⟨t, ht, congrArg Prod.snd he⟩
  have hsource : ∀ c ∈ pd.parentState.signalContexts, c.ssCap.localName ≠ 0 →
      (c.ssCap.localName ∈ u.storedSourceInfos.map (·.badge) ++ u.badge :: known ↔
        c.ssCap ∈ pd.parentState.signalSources.map (·.cap)) := by
    intro c hc h0
    have hissued : c.ssCap ∈ issued := (hpd.contexts c hc).2.resolve_left h0
    have hself : c.ssCap.localName ≠ u.badge := h.badge ▸ (hpd.apart _ hissued).1
    rw [List.mem_append, List.mem_cons, or_iff_left (not_or.mpr ⟨hself, hknown _ hissued⟩),
      h.sources.mem_iff, List.mem_map, List.mem_map]
    exact exists_congr fun s => and_congr_right fun _ => ⟨Cap.ext_localName, congrArg _⟩
  rw [Rtcr.sourcesKnown_iff]
  · constructor
    · intro hall c hc
      obtain ⟨t, ht, he⟩ := hrecord c hc
      by_cases h0 : c.ssCap.localName = 0
      · exact .inl h0
      · exact .inr ((hsource c hc h0).mp (he ▸ (hall t ht).resolve_left (he ▸ h0)))
    · intro hall t ht
      obtain ⟨c, hc, -, he⟩ := hcontext t ht
      rw [← he]
      by_cases h0 : c.ssCap.localName = 0
      · exact .inl h0
      · exact .inr ((hsource c hc h0).mpr ((hall c hc).resolve_left h0))
  · intro t ht h0 v hv
    obtain ⟨c, hc, -, he⟩ := hcontext t ht
    obtain ⟨d, hd, hdbadge, -⟩ := hcontext v hv
    rw [← he, ← hdbadge]
    exact (hpd.apart _ ((hpd.contexts c hc).2.resolve_left (he ▸ h0))).2 d hd

/-- **Any calls, then a checkpoint and a restoration**: the signal contexts
are restored with their sources exactly if those of the PD session of
bootstrap have their sources in that session when the checkpoint is
made. -/
theorem signalContexts_restored_iff {g : Genode} {w₀ w : SignalWorld} (hinit : w₀.Initial)
    (hrun : Run (SignalStep g) (fun _ _ => True) w₀ w) {child : TargetChild}
    (hroot : child.services.pdRoot = w.pdRoot)
    (hothers : ∀ b ∈ child.services.ramBadges, b ∈ w.others)
    (hs : Checkpointer.DistinctObjects child.services) {core : Core}
    (hret : ((Checkpointer.new core).checkpoint .empty child).thrown = none)
    {twin : TargetChild} {pd₀ : PdSessionComponent} (htwin : twin.services.pdRoot = [pd₀])
    (hsources : pd₀.parentState.signalSources ≠ []) {core' : Core}
    (hram : ∃ x, identifyRecreateRamSessions g twin.granularity twin.inBootstrap
      ((Checkpointer.new core).checkpoint .empty child).state.ramSessions twin.services.ramRoot
      (.new core') = .ok x) :
    ContextsRestored g ((Checkpointer.new core).checkpoint .empty child).state twin core' ↔
      ∀ pd ∈ w.pdRoot, pd.parentState.bootstrapped = true → pd.ContextsAnchored := by
  have hkept := SignalWorld.Kept.of_run hinit hrun
  rw [(Checkpointer.checkpoint_returns hret).1] at hram ⊢
  obtain ⟨boot, u, us, hmem, honly, hrecords, hrecord, hus⟩ := hkept.records core hroot hs
  obtain ⟨⟨ramRoot, r⟩, hram⟩ := hram
  -- what the phases of RAM sessions know is apart from all sources
  have hknown : ∀ cap ∈ w.issued, cap.localName ∉ r.known := by
    intro cap hcap hin
    rcases ((identifyRecreateRamSessions_enters hram).mem_known _).mp hin with hin | hin
    · exact (hkept.issued cap hcap).2 (hothers _ (prepared_ramBadges core hs _ hin))
    · cases hin
  have hboot : u.bootstrapped = true := hrecord.bootstrapped.trans ((honly boot hmem).mpr rfl)
  calc ContextsRestored g ((Checkpointer.new core).prepared .empty child).1 twin core'
      ↔ ∀ t y, ContextTurn (pdSessionKind g twin.inBootstrap pd₀) twin.inBootstrap (u :: us)
            ([pd₀], r) t y → ContextRestored twin.inBootstrap t y := by
        unfold ContextsRestored
        rw [hrecords, htwin]
        constructor
        · intro h
          exact h ramRoot r pd₀ [] hram rfl
        · intro h ramRoot' r' pd rest hram' hpd
          cases hram.symm.trans hram'
          cases hpd
          exact h
    _ ↔ SourcesKnown (u.storedSourceInfos.map (·.badge) ++ u.badge :: r.known)
          u.storedContextInfos := contextTurns_iff hsources hboot hus
    _ ↔ boot.ContextsAnchored := hrecord.sourcesKnown_iff (hkept.sessions boot hmem) hknown
    _ ↔ ∀ pd ∈ w.pdRoot, pd.parentState.bootstrapped = true → pd.ContextsAnchored :=
        ⟨fun h pd hpd hb => (honly pd hpd).mp hb ▸ h, fun h => h boot hmem ((honly boot hmem).mpr rfl)⟩

namespace SignalSample

/-- The PD session of bootstrap, with a signal source of bootstrap. -/
def boot : PdSessionComponent :=
  .bare 10 true [⟨⟨40⟩, true⟩]
    [{ attachedDsCap := ⟨31⟩, size := 0xa000, offset := 0, relAddr := 0x1000
       executable := false, bootstrapped := true }]

def start : SignalWorld := ⟨[boot], .small, [⟨40⟩], [30, 31]⟩

/-- One signal source more. -/
def source : Cap × PdSessionComponent × Core := boot.allocSignalSource false .small

/-- A context of that source. -/
def context : Cap × PdSessionComponent × Core :=
  source.2.1.allocContext source.1 7 false source.2.2

def allocated : SignalWorld := ⟨[context.2.1], context.2.2, [source.1, ⟨40⟩], [30, 31]⟩

/-- The source is freed, the context is not. -/
def freed : SignalWorld :=
  ⟨[context.2.1.freeSignalSource source.1], context.2.2, [source.1, ⟨40⟩], [30, 31]⟩

theorem start_initial : start.Initial :=
  ⟨⟨boot, rfl, rfl, rfl, by decide, rfl, by decide, by decide⟩, by decide, by decide⟩

theorem allocated_of_start : Run (SignalStep .small) (fun _ _ => True) start allocated := by
  have hsource : SignalStep .small start .allocSignalSource
      ⟨[source.2.1], source.2.2, [source.1, ⟨40⟩], [30, 31]⟩ :=
    @SignalStep.allocSignalSource _ [] [] _ _ _ _ _ _ _ rfl
  have hcontext : SignalStep .small ⟨[source.2.1], source.2.2, [source.1, ⟨40⟩], [30, 31]⟩
      (.allocContext source.1 7) allocated :=
    @SignalStep.allocContext _ [] [] _ _ _ _ _ _ _ _ _ (.inr (by simp)) rfl
  exact ((Run.refl start).tail trivial hsource).tail trivial hcontext

theorem freed_of_start : Run (SignalStep .small) (fun _ _ => True) start freed :=
  allocated_of_start.tail trivial (.freeSignalSource [] [] ..)

/-- The small child with the PD sessions of `w`. -/
def childOf (w : SignalWorld) : TargetChild :=
  { TargetChild.small with services := { TargetChild.small.services with pdRoot := w.pdRoot } }

/-- The records of a first checkpoint. -/
def records (w : SignalWorld) : TargetState :=
  ((Checkpointer.new .small).checkpoint .empty (childOf w)).state

end SignalSample

open SignalSample in
theorem signalContexts_restored_iff_sample :
    ContextsRestored .small (records allocated) .small .small :=
  (@signalContexts_restored_iff .small _ _ start_initial allocated_of_start (childOf allocated) rfl
    (by decide) (by decide) .small (by decide +kernel) .small _ rfl (by decide) .small
    ⟨_, rfl⟩).mpr (by decide)

/-- A source is freed before its context: the badge that the context
remembers is not translated, and what is not found is used. -/
theorem signalContext_outlives_source :
    SignalSample.start.Initial ∧
      Run (SignalStep .small) (fun _ _ => True) SignalSample.start SignalSample.freed ∧
      (identifyRecreateRamPd .small (SignalSample.records SignalSample.freed) .small
        (.new .small)).map (fun _ => ()) = .error .nullPointer ∧
      ¬ContextsRestored .small (SignalSample.records SignalSample.freed) .small .small := by
  refine ⟨SignalSample.start_initial, SignalSample.freed_of_start, by decide +kernel, fun h => ?_⟩
  obtain ⟨⟨ramRoot, r⟩, hram⟩ : ∃ x, identifyRecreateRamSessions .small 0 false
      (SignalSample.records SignalSample.freed).ramSessions TargetChild.small.services.ramRoot
      (.new .small) = .ok x := ⟨_, rfl⟩
  have hknown := (contextTurns_iff (by decide) (by decide +kernel) (by decide +kernel)).mp
    (h ramRoot r _ [] hram rfl)
  have hsub : ∀ b ∈ [40] ++ 10 :: r.known, b ∈ [40, 10, 30, 31] := by
    intro b hb
    rcases List.mem_append.mp hb with hb | hb
    · rw [List.mem_singleton.mp hb]
      decide
    · rcases List.mem_cons.mp hb with rfl | hb
      · decide
      · rcases ((identifyRecreateRamSessions_enters hram).mem_known b).mp hb with hb | hb
        · exact List.mem_cons_of_mem _ (List.mem_cons_of_mem _ hb)
        · cases hb
  exact absurd (hknown.congr hsub) (by decide +kernel)

end Rtcr
