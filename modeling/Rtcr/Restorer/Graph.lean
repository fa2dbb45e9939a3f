import Rtcr.Restorer.Injective
import Rtcr.Restorer.StateSteps

/-!
# Restorer.Graph — the objects of the checkpoint in the child

A stored object leads, through its translation, to an object of the
child: the one of bootstrap, or a new one. What a stored object refers
to, its object in the child refers to as well, through the translation.
Here are the objects as the first phase leaves them.
-/

namespace Rtcr

open Fallible Translation

/-! ## Objects -/

/-- The capability is that of an object of bootstrap, or it is new. -/
structure Origin (n : Nat) (bootstrapped : Bool) (old : Cap → Prop) (cap : Cap) : Prop where
  identified : bootstrapped = true → old cap
  recreated : bootstrapped = false → n ≤ cap.localName

/-- All translations of `r` are still there in `r'`. -/
abbrev Restorer.Within (r r' : Restorer) : Prop := r.ckptToRestoInfos <:+ r'.ckptToRestoInfos

theorem Restorer.Ahead.within {r r₁ r' : Restorer} (h : r.Ahead r₁) (h' : r₁.Within r') :
    r.Within r' := h.suffix.trans h'

/-- Every stored object leads to an object of the list. -/
def Leads {τ χ : Type} (r : Restorer) (cap : χ → Cap) (badge : τ → Nat) (rel : τ → χ → Prop)
    (stored : List τ) (objects : List χ) : Prop :=
  ∀ t ∈ stored, ∃ c, r.findChildObject cap (badge t) objects = .ok (some c) ∧ rel t c

section Leads

variable {τ χ : Type} {r r₀ r₁ : Restorer} {cap : χ → Cap} {badge : τ → Nat}
  {rel rel' : τ → χ → Prop} {stored : List τ} {objects objects' : List χ}

/-- An entry of the translation leads to its object. -/
theorem Restorer.Unambiguous.leads (hr : r.Unambiguous) {b : Nat} {x : Cap} {c : χ}
    (hentry : ⟨b, x⟩ ∈ r.ckptToRestoInfos)
    (hfind : findByBadge (fun c => (cap c).localName) x.localName objects = some c) :
    r.findChildObject cap b objects = .ok (some c) := by
  rw [findChildObject_of_translate (hr.translate hentry), hfind]

/-- What was found at some time is the translation in the end. -/
theorem Restorer.Unambiguous.translate_within (hr : r.Unambiguous) (h : r₀.Within r) {b : Nat}
    {x : Cap} (htr : r₀.translate b = some x) : r.translate b = some x := by
  unfold Restorer.translate at htr
  cases hfind : findByBadge (·.ckptBadge) b r₀.ckptToRestoInfos with
  | none =>
      rw [hfind] at htr
      cases htr
  | some e =>
      rw [hfind] at htr
      cases htr
      obtain ⟨he, rfl⟩ := findByBadge_some hfind
      exact hr.translate (h.subset he)

namespace RestoKind

variable {k : RestoKind τ χ}

/-- Sessions, of which one is there. -/
theorem Lawful.leads_sessions (hk : k.Lawful) {boot : τ → Bool} {first : χ}
    (hid : ∀ t objects, k.identify t objects = .ok (if boot t then some (k.cap first) else none))
    (hone : (stored.filter boot).length ≤ 1)
    (hfirst : k.find (k.cap first) objects = some first)
    (h : k.run stored objects r₀ = .ok (objects', r₁)) (hx : k.Below (objects, r₀))
    (hr : r.Unambiguous) (hlater : r₁.Within r)
    (hrel : ∀ t ∈ stored, ∀ x₁ x₂ c c', k.Turn t x₁ x₂ c c' → r₀.Ahead x₁.2 → x₂.2.Within r →
      (boot t = true → c = first) →
      (boot t = false → k.Recreated t x₁ x₂ c c' ∧ r₀.core.nextBadge ≤ (k.cap c).localName) →
      rel t c') : Leads r k.cap k.badge rel stored objects' := by
  intro t ht
  obtain ⟨x₁, x₂, c, c', hturn, hbefore, hafter, hfind, hold, hnew⟩ :=
    hk.run_session hid (List.pairwise_of_one hone) hfirst h hx ht
  have hafter := hafter.within hlater
  refine ⟨c', hr.leads (hafter.subset hturn.entry) hfind, hrel t ht x₁ x₂ c c' hturn hbefore hafter
    hold fun hb => ⟨?_, hnew hb⟩⟩
  rcases hturn.origin with hidentified | hrecreated
  · have he := hidentified.identify
    rw [hid, hb, if_neg Bool.false_ne_true] at he
    cases he
  · exact hrecreated

/-- Objects of which none is there. -/
theorem Lawful.leads_new (hk : k.Lawful) (hid : ∀ t objects, k.identify t objects = .ok none)
    (h : k.run stored objects r₀ = .ok (objects', r₁)) (hx : k.Below (objects, r₀))
    (hr : r.Unambiguous) (hlater : r₁.Within r)
    (hrel : ∀ t ∈ stored, ∀ x₁ x₂ c c', k.Turn t x₁ x₂ c c' → k.Recreated t x₁ x₂ c c' →
      r₀.Ahead x₁.2 → x₂.2.Within r → rel t c') : Leads r k.cap k.badge rel stored objects' := by
  intro t ht
  obtain ⟨x₁, x₂, c, c', hturn, hbefore, hafter, hfind, hnew⟩ := hk.run_new hid h hx ht
  have hafter := hafter.within hlater
  exact ⟨c', hr.leads (hafter.subset hturn.entry) hfind,
    hrel t ht x₁ x₂ c c' hturn hnew hbefore hafter⟩

end RestoKind

/-- A state that is restored in place: what holds of the object before
its turn gives what holds afterwards. -/
theorem StateKind.InPlace.leads {k : StateKind τ χ} (hk : k.InPlace) (hapart : k.Apart r stored)
    (h : k.run stored objects r₀ = .ok (objects', r₁))
    (htable : r₀.ckptToRestoInfos = r.ckptToRestoInfos)
    (hleads : Leads r k.cap k.badge rel stored objects)
    (hrel : ∀ t ∈ stored, ∀ c c' r₂ r₃, r₂.ckptToRestoInfos = r.ckptToRestoInfos → rel t c →
      k.restore t (some c) r₂ = .ok (some c', r₃) → rel' t c') :
    Leads r k.cap k.badge rel' stored objects' := by
  intro t ht
  have hapart₀ : k.Apart r₀ stored := hapart.imp fun {t u} hne => by
    rw [Restorer.translate_congr htable, Restorer.translate_congr htable]
    exact hne
  obtain ⟨o, o', r₂, r₃, hfind, hrestore, htable₂, hfind'⟩ := hk.run_turn hapart₀ h ht
  rw [findChildObject_congr htable] at hfind hfind'
  obtain ⟨c, hc, hrelc⟩ := hleads t ht
  rw [hc] at hfind
  obtain rfl := Except.ok.inj hfind
  obtain ⟨c', rfl, -⟩ := hk.present t c r₂ o' r₃ hrestore
  exact ⟨c', hfind', hrel t ht c c' r₂ r₃ (htable₂.trans htable) hrelc hrestore⟩

end Leads

/-! ## What the objects of the child are like -/

section Objects

variable (n : Nat) (r : Restorer)

structure RestoredRamSession (first : RamSessionComponent) (t : StoredRamSessionInfo)
    (s : RamSessionComponent) : Prop where
  origin : Origin n t.bootstrapped (· = first.cap) s.cap
  dataspaces : ∃ pairs, identifyRamDataspaces first.parentState.ramDataspaces t.storedRamdsInfos =
      .ok pairs ∧
    Leads r (·.cap) (·.badge)
      (fun u d => Origin n u.bootstrapped (fun cap => ⟨u.badge, cap⟩ ∈ pairs) d.cap)
      t.storedRamdsInfos s.parentState.ramDataspaces

/-- A signal context is always new. -/
structure RestoredSignalContext (t : StoredSignalContextInfo) (c : SignalContextInfo) : Prop where
  recreated : n ≤ c.cap.localName
  source : t.signalSourceBadge ≠ 0 → r.translate t.signalSourceBadge = some c.ssCap
  noSource : t.signalSourceBadge = 0 → c.ssCap = Cap.invalid

/-- `area` says what its three region maps are like. -/
structure RestoredPdSession (area : StoredRegionMapInfo → RegionMapComponent → Prop)
    (first : PdSessionComponent) (t : StoredPdSessionInfo) (pd : PdSessionComponent) : Prop where
  origin : Origin n t.bootstrapped (· = first.cap) pd.cap
  sources : Leads r (·.cap) (·.badge)
    (fun u x => Origin n u.bootstrapped
      (fun cap => ∃ b, first.parentState.signalSources.head? = some b ∧ cap = b.cap) x.cap)
    t.storedSourceInfos pd.parentState.signalSources
  contexts : Leads r (·.cap) (·.badge) (RestoredSignalContext n r) t.storedContextInfos
    pd.parentState.signalContexts
  areas : List.Forall₂ area t.areas pd.areas

/-- A region map and its dataspace. -/
structure IdentifiedArea (t : StoredRegionMapInfo) (rm : RegionMapComponent) : Prop where
  cap : r.translate t.badge = some rm.cap
  dataspace : r.translate t.dsBadge = some rm.parentState.dsCap

/-- `old` are the threads of the session to begin with. -/
structure IdentifiedCpuThread (old : List CpuThreadComponent) (t : StoredCpuThreadInfo)
    (c : CpuThreadComponent) : Prop where
  origin : Origin n t.bootstrapped (fun cap => ∃ d ∈ old, d.parentState.name = t.name ∧ d.cap = cap)
    c.cap
  pdSession : t.bootstrapped = false →
    r.translate t.pdSessionBadge = some c.parentState.pdSessionCap

/-- The threads a session has to begin with: those of bootstrap, or
none. -/
def threadsBefore (first : CpuSessionComponent) (t : StoredCpuSessionInfo) :
    List CpuThreadComponent :=
  if t.bootstrapped then first.parentState.cpuThreads else []

end Objects

/-! ## RAM sessions -/

section Phases

variable {g : Genode} {inBootstrap : Bool} {granularity n : Nat} {r r₀ r₁ : Restorer}

theorem identifyRecreateRamDataspace_grows {pairs : List CkptRestoBadgeInfo}
    {t : StoredRamDataspaceInfo} {x x' : RamSessionComponent × Restorer}
    (h : identifyRecreateRamDataspace inBootstrap pairs t x = .ok x') :
    x.1.parentState.ramDataspaces ⊆ x'.1.parentState.ramDataspaces := by
  rcases identifyRecreateRamDataspace_cases h with
    ⟨crInfo, -, ramds, -, -, -, -, rfl⟩ | ⟨cap, s, core, ramds, -, -, halloc, -, rfl⟩
  · exact List.Subset.refl _
  · rcases halloc.dataspaces with ⟨info, -, hlist, -, -⟩ | ⟨-, hlist⟩
    · show x.1.parentState.ramDataspaces ⊆ s.parentState.ramDataspaces
      rw [hlist]
      exact List.subset_cons_self _ _
    · show x.1.parentState.ramDataspaces ⊆ s.parentState.ramDataspaces
      rw [hlist]
      exact List.Subset.refl _

/-- What holds at the turn of a RAM dataspace. -/
structure RamTurn (n : Nat) (x : RamSessionComponent × Restorer) : Prop where
  valid : x.1.Valid
  positive : 0 < x.2.core.nextBadge
  le : n ≤ x.2.core.nextBadge

theorem RamTurn.step {pairs : List CkptRestoBadgeInfo} {t : StoredRamDataspaceInfo}
    {x x' : RamSessionComponent × Restorer} (hx : RamTurn n x)
    (h : identifyRecreateRamDataspace inBootstrap pairs t x = .ok x') : RamTurn n x' := by
  rcases identifyRecreateRamDataspace_cases h with
    ⟨crInfo, -, ramds, -, -, -, -, rfl⟩ | ⟨cap, s, core, ramds, -, -, halloc, -, rfl⟩
  · exact ⟨hx.valid, hx.positive, hx.le⟩
  · exact ⟨halloc.valid hx.valid hx.positive, hx.positive.trans_le halloc.le,
      hx.le.trans halloc.le⟩

theorem identifyRecreateRamDataspaces_leads {stored : List StoredRamDataspaceInfo}
    {s s' : RamSessionComponent} (hx : RamTurn n (s, r₀)) (hr : r.Unambiguous)
    (h : identifyRecreateRamDataspaces inBootstrap stored s r₀ = .ok (s', r₁))
    (hlater : r₁.Within r) :
    ∃ pairs, identifyRamDataspaces s.parentState.ramDataspaces stored = .ok pairs ∧
      Leads r (·.cap) (·.badge)
        (fun u d => Origin n u.bootstrapped (fun cap => ⟨u.badge, cap⟩ ∈ pairs) d.cap)
        stored s'.parentState.ramDataspaces := by
  obtain ⟨pairs, hidentify, hrest⟩ := bind_eq_ok.mp h
  split at hrest
  · cases hrest
  · refine ⟨pairs, hidentify, fun t ht => ?_⟩
    obtain ⟨before, after, x₁, x₂, -, hbefore, hstep, hafter⟩ := loop_turn hrest ht
    have hx₁ : RamTurn n x₁ := loop_keeps (fun _ _ _ _ hx hstep => hx.step hstep) hbefore hx
    have hgrows : x₂.1.parentState.ramDataspaces ⊆ s'.parentState.ramDataspaces :=
      loop_rel (I := fun _ _ => True)
        (R := fun _ (x x' : RamSessionComponent × Restorer) =>
          x.1.parentState.ramDataspaces ⊆ x'.1.parentState.ramDataspaces)
        (fun _ _ => List.Subset.refl _) (fun _ _ _ _ _ _ => trivial)
        (fun _ _ _ _ _ _ hstep hrest =>
          List.Subset.trans (identifyRecreateRamDataspace_grows hstep) hrest) hafter trivial
    have hahead : x₂.2.Within r := by
      refine Restorer.Ahead.within ?_ hlater
      exact loop_rel (I := fun _ _ => True)
        (R := fun _ (x x' : RamSessionComponent × Restorer) => x.2.Ahead x'.2)
        (fun x _ => .refl x.2) (fun _ _ _ _ _ _ => trivial)
        (fun _ _ _ _ _ _ hstep hrest =>
          (identifyRecreateRamDataspace_keeps hstep).2.trans hrest) hafter trivial
    -- the dataspace of the turn is there in the end
    have hfound : ∀ d ∈ x₂.1.parentState.ramDataspaces, ⟨t.badge, d.cap⟩ ∈ r.ckptToRestoInfos →
        Origin n t.bootstrapped (fun cap => ⟨t.badge, cap⟩ ∈ pairs) d.cap →
        ∃ d', r.findChildObject (·.cap) t.badge s'.parentState.ramDataspaces = .ok (some d') ∧
          Origin n t.bootstrapped (fun cap => ⟨t.badge, cap⟩ ∈ pairs) d'.cap := by
      intro d hd hentry horigin
      cases hfind : findByBadge (fun d => d.cap.localName) d.cap.localName
          s'.parentState.ramDataspaces with
      | none => exact absurd (List.mem_map_of_mem (hgrows hd)) (findByBadge_eq_none.mp hfind)
      | some d' =>
          have hcap : d'.cap = d.cap := Cap.ext_localName (findByBadge_some hfind).2
          exact ⟨d', hr.leads hentry hfind, hcap ▸ horigin⟩
    rcases identifyRecreateRamDataspace_cases hstep with
      ⟨crInfo, hpair, d, hd, hb, hbadge, hcap, rfl⟩ |
      ⟨cap, s₂, core, d, hd, hb, halloc, hcap, rfl⟩
    · refine hfound d hd (hahead.subset List.mem_cons_self) ⟨fun _ => ?_, fun he => ?_⟩
      · rw [hcap, ← hbadge]
        exact hpair
      · rw [hb] at he
        cases he
    · obtain ⟨hlo, -⟩ := halloc.fresh hx₁.valid hd hcap
      subst hcap
      refine hfound d hd (hahead.subset List.mem_cons_self) ⟨fun he => ?_, fun _ => hx₁.le.trans hlo⟩
      rw [hb] at he
      cases he

theorem find_first {τ χ : Type} (k : RestoKind τ χ) (b : χ) (rest : List χ) :
    k.find (k.cap b) (b :: rest) = some b := by
  unfold RestoKind.find
  rw [findByBadge_cons, if_pos rfl]

theorem identifyRecreateRamSessions_leads {stored : List StoredRamSessionInfo}
    {b : RamSessionComponent} {rest ramRoot' : List RamSessionComponent}
    (hone : (stored.filter (·.bootstrapped)).length ≤ 1)
    (hbelow : ∀ c ∈ b :: rest, c.cap.localName < r₀.core.nextBadge) (hb : RamTurn n (b, r₀))
    (hr : r.Unambiguous)
    (h : identifyRecreateRamSessions g granularity inBootstrap stored (b :: rest) r₀ =
      .ok (ramRoot', r₁)) (hlater : r₁.Within r) :
    Leads r (·.cap) (·.badge) (RestoredRamSession n r b) stored ramRoot' := by
  have hall : ∀ t ∈ stored, t.bootstrapped = true :=
    RestoKind.booted_of_run (ramSessionKind_fails b) h
  refine (ramSessionKind_lawful b).leads_sessions (fun _ _ => rfl) hone (find_first _ b rest) h
    hbelow hr hlater ?_
  intro t ht x₁ x₂ c c' hturn hbefore hafter hold _
  obtain ⟨ra, hra, hparts⟩ := hturn.parts
  have hboot := hall t ht
  have hahead := hbefore.trans hra
  have hstart : RamTurn n (b, ra) :=
    ⟨hb.valid, hb.positive.trans_le hahead.le, hb.le.trans hahead.le⟩
  obtain rfl := hold hboot
  refine ⟨⟨fun _ => hturn.cap, fun he => ?_⟩,
    identifyRecreateRamDataspaces_leads hstart hr hparts hafter⟩
  rw [hboot] at he
  cases he

/-! ## PD sessions -/

theorem identifyRecreateSignalSources_leads {stored : List StoredSignalSourceInfo}
    {sources sources' : List SignalSourceInfo}
    (hone : (stored.filter (·.bootstrapped)).length ≤ 1)
    (hbelow : ∀ c ∈ sources, c.cap.localName < r₀.core.nextBadge) (hr : r.Unambiguous)
    (h : identifyRecreateSignalSources inBootstrap stored sources r₀ = .ok (sources', r₁))
    (hlater : r₁.Within r) (hn : n ≤ r₀.core.nextBadge) :
    Leads r (·.cap) (·.badge)
      (fun u x => Origin n u.bootstrapped
        (fun cap => ∃ b, sources.head? = some b ∧ cap = b.cap) x.cap) stored sources' := by
  cases sources with
  | nil => cases h
  | cons b rest =>
      refine (signalSourceKind_lawful b).leads_sessions (fun _ _ => rfl) hone
        (find_first _ b rest) h hbelow hr hlater ?_
      intro t _ x₁ x₂ c c' hturn _ _ hold hnew
      refine ⟨fun hb => ⟨b, rfl, ?_⟩, fun hb => hn.trans ?_⟩
      · exact hturn.cap.trans (congrArg SignalSourceInfo.cap (hold hb))
      · exact (hnew hb).2.trans_eq (congrArg Cap.localName hturn.cap).symm

theorem identifyRecreateSignalContexts_leads {stored : List StoredSignalContextInfo}
    {contexts contexts' : List SignalContextInfo}
    (hbelow : ∀ c ∈ contexts, c.cap.localName < r₀.core.nextBadge) (hr : r.Unambiguous)
    (h : identifyRecreateSignalContexts inBootstrap stored contexts r₀ = .ok (contexts', r₁))
    (hlater : r₁.Within r) (hn : n ≤ r₀.core.nextBadge) :
    Leads r (·.cap) (·.badge) (RestoredSignalContext n r) stored contexts' := by
  refine signalContextKind_lawful.leads_new (fun _ _ => rfl) h hbelow hr hlater ?_
  intro t _ x₁ x₂ c c' hturn hnew hbefore hafter
  obtain ⟨ra, -, hparts⟩ := hturn.parts
  cases hparts
  obtain ⟨rb, hrec⟩ := hnew.recreate
  obtain ⟨ssCap, hss, rfl, -⟩ := signalContextKind_recreate hrec
  have hahead : x₁.2.Within r := hturn.ahead.within hafter
  refine ⟨(hn.trans hbefore.le).trans hnew.fresh, fun hne => ?_, fun hzero => ?_⟩
  · unfold contextSource at hss
    rw [if_pos hne] at hss
    split at hss
    · rename_i restoCap htr
      cases hss
      exact hr.translate_within hahead htr
    · cases hss
  · unfold contextSource at hss
    rw [if_neg (not_not.mpr hzero)] at hss
    cases hss
    rfl

theorem addRegionMap_translate (hr : r.Unambiguous) {t : StoredRegionMapInfo}
    {rm : RegionMapComponent} (hlater : (addRegionMap t rm r₀).Within r) : IdentifiedArea r t rm :=
  ⟨hr.translate (hlater.subset (List.mem_cons_of_mem _ List.mem_cons_self)),
    hr.translate (hlater.subset List.mem_cons_self)⟩

theorem identifyRecreatePdSessions_leads {stored : List StoredPdSessionInfo}
    {b : PdSessionComponent} {rest pdRoot' : List PdSessionComponent}
    (hone : (stored.filter (·.bootstrapped)).length ≤ 1)
    (hsource : ∀ t ∈ stored, (t.storedSourceInfos.filter (·.bootstrapped)).length ≤ 1)
    (hbelow : ∀ c ∈ b :: rest, c.cap.localName < r₀.core.nextBadge)
    (hsources : ∀ c ∈ b.parentState.signalSources, c.cap.localName < r₀.core.nextBadge)
    (hcontexts : ∀ c ∈ b.parentState.signalContexts, c.cap.localName < r₀.core.nextBadge)
    (hr : r.Unambiguous)
    (h : identifyRecreatePdSessions g inBootstrap stored (b :: rest) r₀ = .ok (pdRoot', r₁))
    (hlater : r₁.Within r) (hn : n ≤ r₀.core.nextBadge) :
    Leads r (·.cap) (·.badge) (RestoredPdSession n r (IdentifiedArea r) b) stored pdRoot' := by
  have hall : ∀ t ∈ stored, t.bootstrapped = true :=
    RestoKind.booted_of_run (pdSessionKind_fails b) h
  refine (pdSessionKind_lawful b).leads_sessions (fun _ _ => rfl) hone (find_first _ b rest) h
    hbelow hr hlater ?_
  intro t ht x₁ x₂ c c' hturn hbefore hafter hold _
  obtain ⟨ra, hra, hparts⟩ := hturn.parts
  obtain ⟨sources, rs, contexts, rc, hs, hc, rfl, hrest⟩ := pdSessionParts_cases hparts
  have hboot := hall t ht
  have hahead := hbefore.trans hra
  obtain ⟨first, -, hsrun⟩ := identifyRecreateSignalSources_head hs
  have hsahead := (signalSourceKind_lawful first).run_ahead hsrun
  -- the region maps come last
  have hlinker := hrest ▸ hafter
  have hstack := (addRegionMap_ahead t.storedLinkerArea c.linkerArea _).within hlinker
  have haddr := (addRegionMap_ahead t.storedStackArea c.stackArea _).within hstack
  have hrc : rc.Within r := (addRegionMap_ahead t.storedAddressSpace c.addressSpace _).within haddr
  have hrs : rs.Within r := (signalContextKind_lawful.run_ahead hc).within hrc
  have hcap : c.cap = b.cap := congrArg PdSessionComponent.cap (hold hboot)
  have hcs : c.parentState = b.parentState := congrArg PdSessionComponent.parentState (hold hboot)
  refine ⟨⟨fun _ => hcap, fun he => ?_⟩, ?_, ?_,
    .cons (addRegionMap_translate hr haddr) (.cons (addRegionMap_translate hr hstack)
      (.cons (addRegionMap_translate hr hlinker) .nil))⟩
  · rw [hboot] at he
    cases he
  · rw [hcs] at hs
    exact identifyRecreateSignalSources_leads (hsource t ht)
      (fun x hx => (hsources x hx).trans_le hahead.le) hr hs hrs (hn.trans hahead.le)
  · rw [hcs] at hc
    exact identifyRecreateSignalContexts_leads
      (fun x hx => (hcontexts x hx).trans_le (hahead.le.trans hsahead.le)) hr hc hrc
      (hn.trans (hahead.le.trans hsahead.le))

/-! ## CPU sessions -/

/-- The threads that have come in front: a new one for each stored one
that has been created. -/
theorem cpuThreads_news {pdSessions : List PdSessionComponent} {before : List StoredCpuThreadInfo}
    {x x' : List CpuThreadComponent × Restorer}
    (h : loop (cpuThreadKind inBootstrap pdSessions).step before x = .ok x') :
    ∃ news, x'.1 = news ++ x.1 ∧
      (∀ c ∈ news, x.2.core.nextBadge ≤ c.cap.localName ∧
        ∃ u ∈ before, u.bootstrapped = false ∧ c.parentState.name = u.name) ∧
      ∀ u ∈ before, u.bootstrapped = false → ∃ c ∈ news, c.parentState.name = u.name := by
  refine loop_rel (I := fun _ _ => True)
    (R := fun ts (x x' : List CpuThreadComponent × Restorer) => ∃ news, x'.1 = news ++ x.1 ∧
      (∀ c ∈ news, x.2.core.nextBadge ≤ c.cap.localName ∧
        ∃ u ∈ ts, u.bootstrapped = false ∧ c.parentState.name = u.name) ∧
      ∀ u ∈ ts, u.bootstrapped = false → ∃ c ∈ news, c.parentState.name = u.name)
    (fun _ _ => ⟨[], rfl, by simp, by simp⟩) (fun _ _ _ _ _ _ => trivial) ?_ h trivial
  rintro t ts x x₁ x' - hstep ⟨news, hx', hnews, hall⟩
  rcases cpuThreadKind_step_cases hstep with
    ⟨c, hb, -, rfl⟩ | ⟨c, pdSession, hb, -, hname, hcap, hlist, hnext, -⟩
  · refine ⟨news, hx', fun d hd => ?_, fun u hu hbu => ?_⟩
    · obtain ⟨hlo, u, hu, hrest⟩ := hnews d hd
      exact ⟨hlo, u, List.mem_cons_of_mem _ hu, hrest⟩
    · rcases List.mem_cons.mp hu with rfl | hu
      · rw [hb] at hbu
        cases hbu
      · exact hall u hu hbu
  · refine ⟨news ++ [c], by rw [hx', hlist]; simp, fun d hd => ?_, fun u hu hbu => ?_⟩
    · rcases List.mem_append.mp hd with hd | hd
      · obtain ⟨hlo, u, hu, hrest⟩ := hnews d hd
        exact ⟨by omega, u, List.mem_cons_of_mem _ hu, hrest⟩
      · obtain rfl := List.mem_singleton.mp hd
        rw [hcap]
        exact ⟨Nat.le_refl _, t, List.mem_cons_self, hb, hname⟩
    · rcases List.mem_cons.mp hu with rfl | hu
      · exact ⟨c, List.mem_append_right _ List.mem_cons_self, hname⟩
      · obtain ⟨d, hd, hdname⟩ := hall u hu hbu
        exact ⟨d, List.mem_append_left _ hd, hdname⟩

theorem threadPdSession_cap {t : StoredCpuThreadInfo} {pdSessions : List PdSessionComponent}
    {pdSession : PdSessionComponent} (h : threadPdSession t pdSessions r₀ = .ok pdSession) :
    r₀.translate t.pdSessionBadge = some pdSession.cap := by
  unfold threadPdSession at h
  split at h
  · cases h
  · rename_i restoCap htr
    split at h
    · rename_i pd hfind
      cases h
      rw [htr, Cap.ext_localName (findByBadge_some hfind).2]
    · cases h

theorem cpuThreads_leads {pdSessions : List PdSessionComponent}
    {stored : List StoredCpuThreadInfo} {threads threads' : List CpuThreadComponent}
    (hbelow : ∀ c ∈ threads, c.cap.localName < r₀.core.nextBadge) (hclear : NamesClear stored)
    (hr : r.Unambiguous)
    (h : (cpuThreadKind inBootstrap pdSessions).run stored threads r₀ = .ok (threads', r₁))
    (hlater : r₁.Within r) (hn : n ≤ r₀.core.nextBadge) :
    Leads r (·.cap) (·.badge) (IdentifiedCpuThread n r threads) stored threads' := by
  intro t ht
  obtain ⟨before, after, x₁, x₂, c, c', rfl, hbefore, hturn, hahead, hafter, hfind⟩ :=
    (cpuThreadKind_lawful pdSessions).run_turn h hbelow ht
  have hafter := hafter.within hlater
  obtain ⟨ra, -, hparts⟩ := hturn.parts
  obtain rfl : c = c' := by cases hparts; rfl
  have hspared := hfind fun u _ => .inr fun c r c' r' hp => by cases hp; rfl
  refine ⟨c, hr.leads (hafter.subset hturn.entry) hspared, ?_⟩
  rcases hturn.origin with hid | hnew
  · obtain ⟨news, hx₁, hnews, -⟩ := cpuThreads_news hbefore
    have hidentify := hid.identify
    dsimp only [cpuThreadKind] at hidentify
    split at hidentify
    · rename_i hb
      split at hidentify
      · rename_i d hname
        have hcap : d.cap = c.cap := Option.some.inj (Except.ok.inj hidentify)
        have hdname : d.parentState.name = t.name := by simpa using List.find?_some hname
        refine ⟨⟨fun _ => ⟨d, ?_, hdname, hcap⟩, fun he => ?_⟩, fun he => ?_⟩
        · have hmem := List.mem_of_find?_eq_some hname
          rw [hx₁] at hmem
          rcases List.mem_append.mp hmem with hmem | hmem
          · -- a new thread would have the name
            obtain ⟨-, u, hu, hbu, huname⟩ := hnews d hmem
            obtain ⟨-, -, hpair⟩ := List.pairwise_append.mp hclear
            exact absurd (huname.symm.trans hdname) (hpair u hu t List.mem_cons_self hbu hb)
          · exact hmem
        · rw [hb] at he
          cases he
        · rw [hb] at he
          cases he
      · cases hidentify
    · cases hidentify
  · obtain ⟨rb, hrec⟩ := hnew.recreate
    obtain ⟨pdSession, hpd, rfl, -⟩ := cpuThreadKind_recreate hrec
    have hb : t.bootstrapped = false := by
      have he := hnew.identify
      dsimp only [cpuThreadKind] at he
      split at he
      · split at he <;> cases he
      · rename_i hb
        simpa using hb
    refine ⟨⟨fun he => ?_, fun _ => (hn.trans hahead.le).trans hnew.fresh⟩, fun _ => ?_⟩
    · rw [hb] at he
      cases he
    · exact hr.translate_within (hturn.ahead.within hafter) (threadPdSession_cap hpd)

/-- Where the bootstrapped threads lead to threads of bootstrap, no new
one has had their names before. -/
theorem cpuThreads_clear {pdSessions : List PdSessionComponent}
    {stored : List StoredCpuThreadInfo} {threads threads' : List CpuThreadComponent}
    (hbelow : ∀ c ∈ threads, c.cap.localName < r₀.core.nextBadge) (hr : r.Unambiguous)
    (h : (cpuThreadKind inBootstrap pdSessions).run stored threads r₀ = .ok (threads', r₁))
    (hlater : r₁.Within r)
    (horigin : ∀ t ∈ stored, t.bootstrapped = true →
      ∃ d ∈ threads, r.translate t.badge = some d.cap) : NamesClear stored := by
  refine List.pairwise_of_split ?_
  rintro before t after rfl u hu hbu hbt hname
  obtain ⟨x₁, hbefore, hrest⟩ := loop_append.mp h
  obtain ⟨x₂, hstep, hafter⟩ := loop_cons_eq_ok.mp hrest
  have hahead : x₂.2.Within r := ((cpuThreadKind_lawful pdSessions).run_ahead hafter).within hlater
  obtain ⟨news, hx₁, hnews, hall⟩ := cpuThreads_news hbefore
  rcases cpuThreadKind_step_cases hstep with
    ⟨c, -, hfind, rfl⟩ | ⟨c, pdSession, hb, -⟩
  · -- the search stops at a new thread
    obtain ⟨d, hd, hdname⟩ := hall u hu hbu
    have hc : c ∈ news := by
      rw [hx₁, List.find?_append] at hfind
      cases hnew : news.find? fun c => c.parentState.name == t.name with
      | none =>
          have hnot := List.find?_eq_none.mp hnew d hd
          simp [hdname, hname] at hnot
      | some c₁ =>
          rw [hnew] at hfind
          obtain rfl := Option.some.inj hfind
          exact List.mem_of_find?_eq_some hnew
    obtain ⟨e, he, htr⟩ := horigin t (List.mem_append_right _ List.mem_cons_self) hbt
    have hcap : c.cap = e.cap :=
      Option.some.inj ((hr.translate (hahead.subset List.mem_cons_self)).symm.trans htr)
    have hlo : r₀.core.nextBadge ≤ c.cap.localName := (hnews c hc).1
    have hlt := hbelow e he
    rw [hcap] at hlo
    omega
  · rw [hb] at hbt
    cases hbt

/-- The threads of a CPU session, from those it has to begin with. -/
def ThreadsRun (inBootstrap : Bool) (n : Nat) (r : Restorer) (pdSessions : List PdSessionComponent)
    (first : CpuSessionComponent) (t : StoredCpuSessionInfo) (s : CpuSessionComponent) : Prop :=
  ∃ ra rb, (cpuThreadKind inBootstrap pdSessions).run t.storedCpuThreadInfos
      (threadsBefore first t) ra = .ok (s.parentState.cpuThreads, rb) ∧
    n ≤ ra.core.nextBadge ∧ rb.Within r

theorem identifyRecreateCpuSessions_leads {stored : List StoredCpuSessionInfo}
    {pdSessions : List PdSessionComponent} {b : CpuSessionComponent}
    {rest cpuRoot' : List CpuSessionComponent}
    (hone : (stored.filter (·.bootstrapped)).length ≤ 1)
    (hbelow : ∀ c ∈ b :: rest, c.cap.localName < r₀.core.nextBadge) (hr : r.Unambiguous)
    (h : identifyRecreateCpuSessions g inBootstrap stored pdSessions (b :: rest) r₀ =
      .ok (cpuRoot', r₁)) (hlater : r₁.Within r) (hn : n ≤ r₀.core.nextBadge) :
    Leads r (·.cap) (·.badge)
      (fun t s => Origin n t.bootstrapped (· = b.cap) s.cap ∧
        ThreadsRun inBootstrap n r pdSessions b t s) stored cpuRoot' := by
  refine (cpuSessionKind_lawful pdSessions b).leads_sessions (fun _ _ => rfl) hone
    (find_first _ b rest) h hbelow hr hlater ?_
  intro t _ x₁ x₂ c c' hturn hbefore hafter hold hnew
  obtain ⟨ra, hra, hparts⟩ := hturn.parts
  obtain ⟨threads, hrun, hc'⟩ := identifyRecreateCpuThreads_cases hparts
  have hthreads : c'.parentState.cpuThreads = threads := by rw [hc']; rfl
  have hstart : c.parentState.cpuThreads = threadsBefore b t := by
    unfold threadsBefore
    cases hb : t.bootstrapped with
    | true => rw [hold hb, if_pos rfl]
    | false =>
        obtain ⟨rb, hrec⟩ := (hnew hb).1.recreate
        cases hrec
        rw [if_neg Bool.false_ne_true]
        rfl
  refine ⟨⟨fun hb => ?_, fun hb => ?_⟩, ra, x₂.2, ?_, hn.trans (hbefore.trans hra).le, hafter⟩
  · exact hturn.cap.trans (congrArg CpuSessionComponent.cap (hold hb))
  · exact (hn.trans (hnew hb).2).trans_eq (congrArg Cap.localName hturn.cap).symm
  · rw [← hstart, hthreads]
    exact hrun

/-! ## RM, LOG and Timer sessions -/

theorem regionMaps_leads {stored : List StoredRegionMapInfo}
    {regionMaps' : List RegionMapComponent} (hr : r.Unambiguous)
    (h : (regionMapKind inBootstrap).run stored [] r₀ = .ok (regionMaps', r₁))
    (hlater : r₁.Within r) (hn : n ≤ r₀.core.nextBadge) :
    Leads r (·.cap) (·.badge)
      (fun u rm => n ≤ rm.cap.localName ∧ r.translate u.dsBadge = some rm.parentState.dsCap)
      stored regionMaps' := by
  refine regionMapKind_lawful.leads_new (fun _ _ => rfl) h (by intro c hc; cases hc) hr hlater ?_
  intro t _ x₁ x₂ c c' hturn hnew hbefore hafter
  obtain ⟨ra, -, hparts⟩ := hturn.parts
  obtain rfl : c = c' := congrArg Prod.fst (Except.ok.inj hparts)
  have hx₂ : x₂.2 = ra.addTranslation t.dsBadge c.parentState.dsCap :=
    (congrArg Prod.snd (Except.ok.inj hparts)).symm
  have hentry : ⟨t.dsBadge, c.parentState.dsCap⟩ ∈ x₂.2.ckptToRestoInfos := by
    rw [hx₂]
    exact List.mem_cons_self
  exact ⟨(hn.trans hbefore.le).trans hnew.fresh, hr.translate (hafter.subset hentry)⟩

theorem identifyRecreateRmSessions_leads {stored : List StoredRmSessionInfo}
    {root root' : Option (List RmSessionComponent)}
    (hbelow : ∀ c ∈ sessionInfos root, c.cap.localName < r₀.core.nextBadge) (hr : r.Unambiguous)
    (h : identifyRecreateRmSessions g inBootstrap stored root r₀ = .ok (root', r₁))
    (hlater : r₁.Within r) (hn : n ≤ r₀.core.nextBadge) :
    Leads r (·.cap) (·.badge)
      (fun t s => n ≤ s.cap.localName ∧ Leads r (·.cap) (·.badge)
        (fun u rm => n ≤ rm.cap.localName ∧ r.translate u.dsBadge = some rm.parentState.dsCap)
        t.storedRegionMapInfos s.parentState.regionMaps) stored (sessionInfos root') := by
  obtain ⟨objects, hrun, rfl, -⟩ := identifyRecreateSessions_cases h
  refine rmSessionKind_lawful.leads_new (fun _ _ => rfl) hrun hbelow hr hlater ?_
  intro t _ x₁ x₂ c c' hturn hnew hbefore hafter
  obtain ⟨ra, hra, hparts⟩ := hturn.parts
  obtain ⟨regionMaps, hmaps, rfl⟩ := identifyRecreateRegionMaps_cases hparts
  obtain ⟨rb, hrec⟩ := hnew.recreate
  cases hrec
  exact ⟨(hn.trans hbefore.le).trans hnew.fresh,
    regionMaps_leads hr hmaps hafter (hn.trans (hbefore.trans hra).le)⟩

/-- Sessions without parts, of which none is there. -/
theorem identifyRecreateSessions_leads {τ χ : Type} {k : RestoKind τ χ} {stored : List τ}
    {root root' : Option (List χ)} (hk : k.Lawful)
    (hid : ∀ t objects, k.identify t objects = .ok none)
    (hbelow : ∀ c ∈ sessionInfos root, (k.cap c).localName < r₀.core.nextBadge)
    (hr : r.Unambiguous) (h : identifyRecreateSessions k stored root r₀ = .ok (root', r₁))
    (hlater : r₁.Within r) (hn : n ≤ r₀.core.nextBadge) :
    Leads r k.cap k.badge (fun _ c => n ≤ (k.cap c).localName) stored (sessionInfos root') := by
  obtain ⟨objects, hrun, rfl, -⟩ := identifyRecreateSessions_cases h
  refine hk.leads_new hid hrun hbelow hr hlater ?_
  intro t _ x₁ x₂ c c' hturn hnew hbefore _
  exact ((hn.trans hbefore.le).trans hnew.fresh).trans_eq (congrArg Cap.localName hturn.cap).symm

end Phases

end Rtcr
