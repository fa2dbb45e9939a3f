import Rtcr.Restorer.RestoreState
import Rtcr.Restorer.Turns

/-!
# Restorer.StateSteps — what restoring one state does

The second phase changes the child's objects in place: their capabilities
stay what they are, and so does the translation.
-/

namespace Rtcr

open Fallible

/-! ## One stored object -/

section Kinds

variable {τ χ : Type} {r r' : Restorer}

theorem findChildObject_eq_ok {cap : χ → Cap} {badge : Nat} {objects : List χ} {r : Restorer}
    {o : Option χ} (h : r.findChildObject cap badge objects = .ok o) :
    ∃ restoCap, r.translate badge = some restoCap ∧
      o = findByBadge (fun c => (cap c).localName) restoCap.localName objects := by
  unfold Restorer.findChildObject at h
  split at h
  · rename_i restoCap htr
    exact ⟨restoCap, htr, (Except.ok.inj h).symm⟩
  · cases h

theorem findChildObject_congr {cap : χ → Cap} {badge : Nat} {objects : List χ}
    (h : r'.ckptToRestoInfos = r.ckptToRestoInfos) :
    r'.findChildObject cap badge objects = r.findChildObject cap badge objects := by
  unfold Restorer.findChildObject
  rw [Restorer.translate_congr h]

theorem findChildObject_of_translate {cap : χ → Cap} {badge : Nat} {objects : List χ}
    {restoCap : Cap} (h : r.translate badge = some restoCap) :
    r.findChildObject cap badge objects =
      .ok (findByBadge (fun c => (cap c).localName) restoCap.localName objects) := by
  unfold Restorer.findChildObject
  rw [h]

theorem ifPresent_eq_ok {missing : τ → Err}
    {restore : τ → χ → Restorer → Except Err (χ × Restorer)} {t : τ} {object o : Option χ}
    (h : ifPresent missing restore t object r = .ok (o, r')) :
    ∃ c d, object = some c ∧ o = some d ∧ restore t c r = .ok (d, r') := by
  cases object with
  | none => cases h
  | some c =>
      cases hc : restore t c r with
      | error e =>
          simp only [ifPresent, hc] at h
          cases h
      | ok x =>
          simp only [ifPresent, hc] at h
          cases h
          exact ⟨c, x.1, rfl, rfl, hc⟩

namespace StateKind

/-- An object is changed where it is; the translation is only read. -/
structure InPlace (k : StateKind τ χ) : Prop where
  present : ∀ t c r o r', k.restore t (some c) r = .ok (o, r') →
    ∃ d, o = some d ∧ k.cap d = k.cap c
  missing : ∀ t r o r', k.restore t none r = .ok (o, r') → o = none
  table : ∀ t o r o' r', k.restore t o r = .ok (o', r') →
    r'.ckptToRestoInfos = r.ckptToRestoInfos

variable {k : StateKind τ χ}

/-- A kind whose objects have to be there. -/
theorem restore_eq_ok {missing : τ → Err}
    {restore : τ → χ → Restorer → Except Err (χ × Restorer)}
    (hk : k.restore = ifPresent missing restore) {t : τ} {o o' : Option χ}
    (h : k.restore t o r = .ok (o', r')) :
    ∃ c d, o = some c ∧ o' = some d ∧ restore t c r = .ok (d, r') := by
  rw [hk] at h
  exact ifPresent_eq_ok h

theorem InPlace.ofPresent {missing : τ → Err}
    {restore : τ → χ → Restorer → Except Err (χ × Restorer)}
    (hk : k.restore = ifPresent missing restore)
    (h : ∀ t c r d r', restore t c r = .ok (d, r') →
      k.cap d = k.cap c ∧ r'.ckptToRestoInfos = r.ckptToRestoInfos) : k.InPlace where
  present t c r o r' hrun := by
    obtain ⟨c', d, hc, rfl, hd⟩ := restore_eq_ok hk hrun
    obtain rfl := Option.some.inj hc
    exact ⟨d, rfl, (h t c r d r' hd).1⟩
  missing t r o r' hrun := by
    obtain ⟨c, d, hc, -⟩ := restore_eq_ok hk hrun
    cases hc
  table t o r o' r' hrun := by
    obtain ⟨c, d, rfl, rfl, hd⟩ := restore_eq_ok hk hrun
    exact (h t c r d r' hd).2

/-- What the turn of a stored object does to the child's list. -/
structure Turned (k : StateKind τ χ) (t : τ) (x x' : List χ × Restorer) (restoCap : Cap)
    (o o' : Option χ) : Prop where
  translate : x.2.translate (k.badge t) = some restoCap
  before : findByBadge (fun c => (k.cap c).localName) restoCap.localName x.1 = o
  restore : k.restore t o x.2 = .ok (o', x'.2)
  after : findByBadge (fun c => (k.cap c).localName) restoCap.localName x'.1 = o'
  others : ∀ b, b ≠ restoCap.localName →
    findByBadge (fun c => (k.cap c).localName) b x'.1 =
      findByBadge (fun c => (k.cap c).localName) b x.1

theorem InPlace.step (hk : k.InPlace) {t : τ} {x x' : List χ × Restorer}
    (h : k.step t x = .ok x') : ∃ restoCap o o', k.Turned t x x' restoCap o o' := by
  obtain ⟨o, hfind, hrest⟩ := bind_eq_ok.mp h
  obtain ⟨⟨o', r₁⟩, hrestore, hlast⟩ := bind_eq_ok.mp hrest
  obtain ⟨restoCap, htr, ho⟩ := findChildObject_eq_ok hfind
  refine ⟨restoCap, o, o', ?_⟩
  cases o with
  | none =>
      obtain rfl := hk.missing t x.2 o' r₁ hrestore
      cases hlast
      exact ⟨htr, ho.symm, hrestore, ho.symm, fun _ _ => rfl⟩
  | some c =>
      obtain ⟨d, rfl, hcap⟩ := hk.present t c x.2 o' r₁ hrestore
      cases hlast
      have hname : (k.cap d).localName = restoCap.localName := by
        rw [hcap]
        exact (findByBadge_some ho.symm).2
      refine ⟨htr, ho.symm, hrestore, ?_, fun b hb => ?_⟩
      · rw [← hname] at ho ⊢
        exact @findByBadge_modifyFirst_same _ (fun c => (k.cap c).localName) _ _ _ ho.symm
      · rw [← hname] at hb
        exact @findByBadge_modifyFirst_ne _ (fun c => (k.cap c).localName) _ _ _ hb

/-- The turn of an object that has to be there: it is changed where it
is. -/
theorem InPlace.step_present (hk : k.InPlace) {missing : τ → Err}
    {restore : τ → χ → Restorer → Except Err (χ × Restorer)}
    (hpresent : k.restore = ifPresent missing restore) {t : τ} {x x' : List χ × Restorer}
    (h : k.step t x = .ok x') :
    ∃ before c d after, x.1 = before ++ c :: after ∧ x'.1 = before ++ d :: after ∧
      x.2.translate (k.badge t) = some (k.cap c) ∧ k.cap d = k.cap c ∧
      restore t c x.2 = .ok (d, x'.2) := by
  obtain ⟨o, hfind, hrest⟩ := bind_eq_ok.mp h
  obtain ⟨⟨o', r₁⟩, hrestore, hlast⟩ := bind_eq_ok.mp hrest
  obtain ⟨restoCap, htr, ho⟩ := findChildObject_eq_ok hfind
  have hwhole := hrestore
  obtain ⟨c, d, rfl, rfl, hd⟩ := restore_eq_ok hpresent hrestore
  cases hlast
  obtain ⟨d', hsome, hcap⟩ := hk.present t c x.2 _ r₁ hwhole
  obtain rfl := Option.some.inj hsome
  have hname : k.cap c = restoCap := Cap.ext_localName (findByBadge_some ho.symm).2
  rw [← hname, ← hcap] at ho
  obtain ⟨before, after, hsplit, -, hmod⟩ := List.modifyFirst_split (f := fun _ => d) ho.symm
  exact ⟨before, c, d, after, hsplit, hmod, by rw [htr, hname], hcap, hd⟩

variable {stored : List τ} {objects objects' : List χ}

theorem InPlace.run_table (hk : k.InPlace) (h : k.run stored objects r = .ok (objects', r')) :
    r'.ckptToRestoInfos = r.ckptToRestoInfos := by
  refine loop_rel (I := fun _ _ => True)
    (R := fun _ (x x' : List χ × Restorer) => x'.2.ckptToRestoInfos = x.2.ckptToRestoInfos)
    (fun _ _ => rfl) (fun _ _ _ _ _ _ => trivial) ?_ h trivial
  intro t ts x x₁ x' _ hstep hrest
  obtain ⟨restoCap, o, o', hturn⟩ := hk.step hstep
  exact hrest.trans (hk.table t o x.2 o' x₁.2 hturn.restore)

/-- Objects stay where they are. -/
theorem run_caps (h : k.run stored objects r = .ok (objects', r')) :
    objects'.map k.cap = objects.map k.cap := by
  refine loop_rel (I := fun _ _ => True)
    (R := fun _ (x x' : List χ × Restorer) => x'.1.map k.cap = x.1.map k.cap)
    (fun _ _ => rfl) (fun _ _ _ _ _ _ => trivial) ?_ h trivial
  intro t ts x x₁ x' _ hstep hrest
  refine hrest.trans ?_
  obtain ⟨o, hfind, hrest⟩ := bind_eq_ok.mp hstep
  obtain ⟨⟨o', r₁⟩, hrestore, hlast⟩ := bind_eq_ok.mp hrest
  cases o' with
  | none =>
      cases hlast
      rfl
  | some d =>
      cases hlast
      refine List.map_modifyFirst (fun c hc => ?_) x.1
      have hname : (k.cap c).localName = (k.cap d).localName := by simpa using hc
      exact (Cap.ext_localName hname).symm

/-- Objects that no stored one is translated to stay. -/
theorem InPlace.run_others (hk : k.InPlace) (cap : Cap)
    (h : k.run stored objects r = .ok (objects', r'))
    (hcap : ∀ t ∈ stored, r.translate (k.badge t) ≠ some cap) :
    findByBadge (fun c => (k.cap c).localName) cap.localName objects' =
      findByBadge (fun c => (k.cap c).localName) cap.localName objects := by
  refine loop_rel (I := fun ts (x : List χ × Restorer) =>
      ∀ t ∈ ts, x.2.translate (k.badge t) ≠ some cap)
    (R := fun _ (x x' : List χ × Restorer) =>
      findByBadge (fun c => (k.cap c).localName) cap.localName x'.1 =
        findByBadge (fun c => (k.cap c).localName) cap.localName x.1)
    (fun _ _ => rfl) ?_ ?_ h hcap
  · intro t ts x x₁ hx hstep u hu
    obtain ⟨restoCap, o, o', hturn⟩ := hk.step hstep
    have htable := hk.table t o x.2 o' x₁.2 hturn.restore
    rw [Restorer.translate_congr htable]
    exact hx u (List.mem_cons_of_mem _ hu)
  · intro t ts x x₁ x' hx hstep hrest
    obtain ⟨restoCap, o, o', hturn⟩ := hk.step hstep
    refine hrest.trans (hturn.others _ fun he => hx t List.mem_cons_self ?_)
    rw [hturn.translate, Cap.ext_localName he]

/-- Stored objects with different translations. -/
def Apart (k : StateKind τ χ) (r : Restorer) (stored : List τ) : Prop :=
  stored.Pairwise fun t u => r.translate (k.badge t) ≠ r.translate (k.badge u)

/-- **One stored object in a whole run**: it is found, its state is
restored once, and what that gives is found in the end. -/
theorem InPlace.run_turn (hk : k.InPlace) (hapart : k.Apart r stored)
    (h : k.run stored objects r = .ok (objects', r')) {t : τ} (ht : t ∈ stored) :
    ∃ o o' r₁ r₂, r.findChildObject k.cap (k.badge t) objects = .ok o ∧
      k.restore t o r₁ = .ok (o', r₂) ∧ r₁.ckptToRestoInfos = r.ckptToRestoInfos ∧
      r.findChildObject k.cap (k.badge t) objects' = .ok o' := by
  obtain ⟨before, after, x₁, x₂, rfl, hbefore, hstep, hafter⟩ := loop_turn h ht
  obtain ⟨restoCap, o, o', hturn⟩ := hk.step hstep
  have htable₁ : x₁.2.ckptToRestoInfos = r.ckptToRestoInfos := hk.run_table hbefore
  have htable₂ : x₂.2.ckptToRestoInfos = r.ckptToRestoInfos :=
    (hk.table t o x₁.2 o' x₂.2 hturn.restore).trans htable₁
  have htr : r.translate (k.badge t) = some restoCap := by
    rw [← hturn.translate, Restorer.translate_congr htable₁]
  obtain ⟨-, hlater, hearlier⟩ := List.pairwise_append.mp hapart
  have hpre := hk.run_others restoCap hbefore fun u hu he =>
    hearlier u hu t List.mem_cons_self (he.trans htr.symm)
  have hpost := hk.run_others restoCap hafter fun u hu he => by
    refine (List.pairwise_cons.mp hlater).1 u hu ?_
    rw [htr, ← he, Restorer.translate_congr htable₂]
  refine ⟨o, o', x₁.2, x₂.2, ?_, hturn.restore, htable₁, ?_⟩
  · rw [findChildObject_of_translate htr, ← hpre, hturn.before]
  · rw [findChildObject_of_translate htr, hpost, hturn.after]

end StateKind

end Kinds

/-! ## Kind by kind -/

section States

variable {g : Genode} {inBootstrap : Bool} {pdSessions : List PdSessionComponent} {r r' : Restorer}

/-- The handler is the translation of the stored one. -/
theorem findSignalContext_translate {badge : Nat} {context : SignalContextInfo}
    (h : findSignalContext badge pdSessions r = .ok context) :
    r.translate badge = some context.cap := by
  induction pdSessions with
  | nil => cases h
  | cons pd pds ih =>
      obtain ⟨o, hfind, hrest⟩ := bind_eq_ok.mp h
      cases o with
      | none => exact ih hrest
      | some c =>
          cases hrest
          obtain ⟨restoCap, htr, ho⟩ := findChildObject_eq_ok hfind
          rw [htr, Cap.ext_localName (findByBadge_some ho.symm).2]

theorem restoreSigh_cases {χ : Type} {setSigh : Cap → χ → χ} {badge : Nat} {c c' : χ}
    (h : restoreSigh setSigh badge c pdSessions r = .ok c') :
    (badge = 0 ∧ c' = c) ∨ ∃ handler, r.translate badge = some handler ∧ c' = setSigh handler c := by
  unfold restoreSigh at h
  split at h
  · cases hf : findSignalContext badge pdSessions r with
    | error e =>
        rw [hf] at h
        cases h
    | ok context =>
        rw [hf] at h
        cases h
        exact .inr ⟨context.cap, findSignalContext_translate hf, rfl⟩
  · rename_i hzero
    cases h
    exact .inl ⟨not_not.mp hzero, rfl⟩

theorem restoreStateRamDataspaces_table {stored : List StoredRamDataspaceInfo}
    {infos : List RamDataspaceInfo} (h : restoreStateRamDataspaces stored infos r = .ok r') :
    r'.ckptToRestoInfos = r.ckptToRestoInfos := by
  refine loop_rel (I := fun _ _ => True)
    (R := fun _ (r r' : Restorer) => r'.ckptToRestoInfos = r.ckptToRestoInfos)
    (fun _ _ => rfl) (fun _ _ _ _ _ _ => trivial) ?_ h trivial
  intro t ts r r₁ r' _ hstep hrest
  obtain ⟨o, -, hstep⟩ := bind_eq_ok.mp hstep
  cases o with
  | none => cases hstep
  | some ramds =>
      cases hstep
      exact hrest

/-- What no upgrade changes stays. -/
theorem upgradeIfNecessary_keeps {χ α : Type} {upgrade : Genode → String → χ → χ} {f : χ → α}
    (hf : ∀ args c, f (upgrade g args c) = f c) (args : String) (c : χ) :
    f (upgradeIfNecessary g upgrade args c) = f c := by
  unfold upgradeIfNecessary
  split
  · exact hf args c
  · rfl

theorem ramSessionState_inPlace : (ramSessionState g).InPlace := by
  refine .ofPresent rfl ?_
  intro t c r d r' h
  obtain ⟨r₁, hds, hrest⟩ := bind_eq_ok.mp h
  cases hrest
  have hcap : (upgradeIfNecessary g RamSessionComponent.upgrade t.upgradeArgs c).cap = c.cap :=
    upgradeIfNecessary_keeps (f := fun c : RamSessionComponent => c.cap) (fun _ _ => rfl) ..
  exact ⟨hcap, restoreStateRamDataspaces_table hds⟩

theorem scheduleRegion_table (t : StoredAttachedRegionInfo) (info : AttachedRegionInfo)
    (r : Restorer) : (r.scheduleRegion t info).ckptToRestoInfos = r.ckptToRestoInfos := by
  unfold Restorer.scheduleRegion
  split
  · rfl
  · split <;> rfl

/-- A bootstrapped region is there, any other is attached again; the one
that is found at the address is scheduled. -/
theorem restoreStateAttachedRegion_cases {t : StoredAttachedRegionInfo}
    {x x' : RegionMapComponent × Restorer}
    (h : restoreStateAttachedRegion g inBootstrap t x = .ok x') :
    ∃ info, findAttachedByAddr t.relAddr x'.1.parentState.attachedRegions = some info ∧
      x'.2 = x.2.scheduleRegion t info ∧
      (t.bootstrapped = true ∧ x'.1 = x.1 ∨ t.bootstrapped = false ∧
        ∃ dsCap, x.2.translate t.attachedDsBadge = some dsCap ∧
          x'.1 = x.1.attach dsCap t.size (g.dataspaceSize dsCap) t.offset t.relAddr t.executable
            inBootstrap) := by
  unfold restoreStateAttachedRegion at h
  dsimp only at h
  cases hb : t.bootstrapped with
  | true =>
      rw [hb, if_pos rfl] at h
      obtain ⟨rm, hrm, hrest⟩ := bind_eq_ok.mp h
      cases hrm
      split at hrest
      · rename_i info hfind
        cases hrest
        exact ⟨info, hfind, rfl, .inl ⟨rfl, rfl⟩⟩
      · cases hrest
  | false =>
      rw [hb, if_neg Bool.false_ne_true] at h
      obtain ⟨rm, hrm, hrest⟩ := bind_eq_ok.mp h
      unfold reattach at hrm
      split at hrm
      · rename_i dsCap htr
        cases hrm
        split at hrest
        · rename_i info hfind
          cases hrest
          exact ⟨info, hfind, rfl, .inr ⟨rfl, dsCap, htr, rfl⟩⟩
        · cases hrest
      · cases hrm

/-- A region map before and after its stored regions are restored. -/
structure RegionsRestored (ts : List StoredAttachedRegionInfo) (x x' : RegionMapComponent × Restorer) :
    Prop where
  cap : x'.1.cap = x.1.cap
  dsCap : x'.1.parentState.dsCap = x.1.parentState.dsCap
  sigh : x'.1.parentState.sigh = x.1.parentState.sigh
  table : x'.2.ckptToRestoInfos = x.2.ckptToRestoInfos
  kept : x.1.parentState.attachedRegions ⊆ x'.1.parentState.attachedRegions
  attached : ∀ t ∈ ts, t.bootstrapped = false → ∃ info ∈ x'.1.parentState.attachedRegions,
    info.relAddr = t.relAddr ∧ x.2.translate t.attachedDsBadge = some info.attachedDsCap

theorem restoreStateAttachedRegion_restored {t : StoredAttachedRegionInfo}
    {x x' : RegionMapComponent × Restorer}
    (h : restoreStateAttachedRegion g inBootstrap t x = .ok x') : RegionsRestored [t] x x' := by
  obtain ⟨info, -, hr, ⟨hb, hrm⟩ | ⟨hb, dsCap, htr, hrm⟩⟩ :=
    restoreStateAttachedRegion_cases h
  · refine ⟨by rw [hrm], by rw [hrm], by rw [hrm], by rw [hr, scheduleRegion_table], by rw [hrm]; exact fun _ h => h,
      fun u hu hbu => ?_⟩
    obtain rfl := List.mem_singleton.mp hu
    rw [hb] at hbu
    cases hbu
  · refine ⟨by rw [hrm]; rfl, by rw [hrm]; rfl, by rw [hrm]; rfl, by rw [hr, scheduleRegion_table],
      by rw [hrm]; exact List.subset_cons_self _ _, fun u hu _ => ?_⟩
    obtain rfl := List.mem_singleton.mp hu
    rw [hrm]
    exact ⟨_, List.mem_cons_self, rfl, htr⟩

theorem restoreStateAttachedRegions_restored {ts : List StoredAttachedRegionInfo}
    {x x' : RegionMapComponent × Restorer}
    (h : loop (restoreStateAttachedRegion g inBootstrap) ts x = .ok x') :
    RegionsRestored ts x x' := by
  refine loop_rel (I := fun _ _ => True) (R := RegionsRestored) ?_ (fun _ _ _ _ _ _ => trivial) ?_ h
    trivial
  · exact fun x _ => ⟨rfl, rfl, rfl, rfl, fun _ h => h, fun t ht => absurd ht List.not_mem_nil⟩
  · intro t ts x x₁ x' _ hstep hrest
    have hfirst := restoreStateAttachedRegion_restored hstep
    refine ⟨hrest.cap.trans hfirst.cap, hrest.dsCap.trans hfirst.dsCap, hrest.sigh.trans hfirst.sigh,
      hrest.table.trans hfirst.table, fun i hi => hrest.kept (hfirst.kept hi), fun u hu hb => ?_⟩
    rcases List.mem_cons.mp hu with rfl | hu
    · obtain ⟨info, hinfo, hspec⟩ := hfirst.attached u (List.mem_singleton.mpr rfl) hb
      exact ⟨info, hrest.kept hinfo, hspec⟩
    · obtain ⟨info, hinfo, haddr, htr⟩ := hrest.attached u hu hb
      refine ⟨info, hinfo, haddr, ?_⟩
      rw [← htr, Restorer.translate_congr hfirst.table]

/-- A region map whose state is restored. -/
theorem regionMapState_restore {t : StoredRegionMapInfo} {rm : RegionMapComponent}
    {o : Option RegionMapComponent}
    (h : (regionMapState g inBootstrap pdSessions).restore t (some rm) r = .ok (o, r')) :
    ∃ rm₁ rm', o = some rm' ∧
      restoreSigh RegionMapComponent.faultHandler t.sighBadge rm pdSessions r = .ok rm₁ ∧
      RegionsRestored t.storedAttachedRegionInfos (rm₁, r) (rm', r') := by
  obtain ⟨c, d, hc, rfl, hd⟩ := StateKind.restore_eq_ok rfl h
  obtain rfl := Option.some.inj hc
  obtain ⟨rm₁, hsigh, hloop⟩ := bind_eq_ok.mp hd
  exact ⟨rm₁, d, rfl, hsigh, restoreStateAttachedRegions_restored hloop⟩

theorem regionMapState_inPlace : (regionMapState g inBootstrap pdSessions).InPlace := by
  refine .ofPresent rfl ?_
  intro t c r d r' h
  obtain ⟨rm₁, hsigh, hloop⟩ := bind_eq_ok.mp h
  have hrestored := restoreStateAttachedRegions_restored hloop
  refine ⟨hrestored.cap.trans ?_, hrestored.table⟩
  rcases restoreSigh_cases hsigh with ⟨-, rfl⟩ | ⟨handler, -, rfl⟩ <;> rfl

theorem setAreas_cap (areas : List RegionMapComponent) (pd : PdSessionComponent) :
    (pd.setAreas areas).cap = pd.cap := by
  unfold PdSessionComponent.setAreas
  split <;> rfl

theorem setAreas_parentState (areas : List RegionMapComponent) (pd : PdSessionComponent) :
    (pd.setAreas areas).parentState = pd.parentState := by
  unfold PdSessionComponent.setAreas
  split <;> rfl

theorem setAreas_areas {areas : List RegionMapComponent} {pd : PdSessionComponent}
    (h : areas.length = 3) : (pd.setAreas areas).areas = areas := by
  match areas, h with
  | [_, _, _], _ => rfl

theorem pdSessionState_inPlace : (pdSessionState g inBootstrap pdSessions).InPlace := by
  refine .ofPresent rfl ?_
  intro t c r d r' h
  obtain ⟨areas, hrun, hrest⟩ := bind_eq_ok.mp h
  cases hrest
  have hcap : (upgradeIfNecessary g PdSessionComponent.upgrade t.upgradeArgs c).cap = c.cap :=
    upgradeIfNecessary_keeps (f := fun c : PdSessionComponent => c.cap) (fun _ _ => rfl) ..
  exact ⟨(setAreas_cap ..).trans hcap, regionMapState_inPlace.run_table hrun⟩

theorem cpuThreadState_inPlace : (cpuThreadState pdSessions).InPlace := by
  refine .ofPresent rfl ?_
  intro t c r d r' h
  obtain ⟨c', hsigh, hlast⟩ := bind_eq_ok.mp h
  cases hlast
  refine ⟨?_, rfl⟩
  rcases restoreSigh_cases hsigh with ⟨-, rfl⟩ | ⟨handler, -, rfl⟩ <;> split <;> rfl

theorem cpuSessionState_inPlace : (cpuSessionState g pdSessions).InPlace := by
  refine .ofPresent rfl ?_
  intro t c r d r' h
  obtain ⟨c₀, hsigh, hrest⟩ := bind_eq_ok.mp h
  obtain ⟨threads, hrun, hlast⟩ := bind_eq_ok.mp hrest
  cases hlast
  refine ⟨?_, cpuThreadState_inPlace.run_table hrun⟩
  unfold upgradeIfNecessary
  rcases restoreSigh_cases hsigh with ⟨-, rfl⟩ | ⟨handler, -, rfl⟩ <;> split <;> rfl

theorem rmSessionState_inPlace : (rmSessionState g inBootstrap pdSessions).InPlace := by
  refine .ofPresent rfl ?_
  intro t c r d r' h
  obtain ⟨regionMaps, hrun, hrest⟩ := bind_eq_ok.mp h
  cases hrest
  have hcap : (upgradeIfNecessary g RmSessionComponent.upgrade t.upgradeArgs c).cap = c.cap :=
    upgradeIfNecessary_keeps (f := fun c : RmSessionComponent => c.cap) (fun _ _ => rfl) ..
  exact ⟨hcap, regionMapState_inPlace.run_table hrun⟩

theorem logSessionState_inPlace : (logSessionState g).InPlace where
  present t c r o r' h := by
    cases h
    refine ⟨_, rfl, ?_⟩
    unfold upgradeIfNecessary
    split <;> rfl
  missing t r o r' h := by
    dsimp only [logSessionState] at h
    split at h
    · cases h
    · cases h
      rfl
  table t o r o' r' h := by
    cases o with
    | some c =>
        cases h
        rfl
    | none =>
        dsimp only [logSessionState] at h
        split at h
        · cases h
        · cases h
          rfl

/-- A timer session whose state is restored. -/
theorem timerSessionState_restore {t : StoredTimerSessionInfo} {c : TimerSessionComponent}
    {o : Option TimerSessionComponent}
    (h : (timerSessionState g pdSessions).restore t (some c) r = .ok (o, r')) :
    ∃ c₁ d, o = some d ∧ r' = r ∧
      restoreSigh TimerSessionComponent.setSigh t.sighBadge c pdSessions r = .ok c₁ ∧
      d.cap = c₁.cap ∧ d.parentState.sigh = c₁.parentState.sigh := by
  obtain ⟨c₁, hsigh, hlast⟩ := bind_eq_ok.mp h
  cases hlast
  refine ⟨c₁, _, rfl, rfl, hsigh, ?_, ?_⟩ <;> unfold upgradeIfNecessary <;> split <;> split <;> rfl

theorem timerSessionState_missing {t : StoredTimerSessionInfo} {o : Option TimerSessionComponent}
    (h : (timerSessionState g pdSessions).restore t none r = .ok (o, r')) : o = none ∧ r' = r := by
  dsimp only [timerSessionState] at h
  split at h
  · obtain ⟨context, -, hlast⟩ := bind_eq_ok.mp h
    cases hlast
  · split at h
    · cases h
    · cases h
      exact ⟨rfl, rfl⟩

theorem timerSessionState_inPlace : (timerSessionState g pdSessions).InPlace where
  present t c r o r' h := by
    obtain ⟨c₁, d, rfl, -, hsigh, hcap, -⟩ := timerSessionState_restore h
    refine ⟨d, rfl, hcap.trans ?_⟩
    rcases restoreSigh_cases hsigh with ⟨-, rfl⟩ | ⟨handler, -, rfl⟩ <;> rfl
  missing t r o r' h := (timerSessionState_missing h).1
  table t o r o' r' h := by
    cases o with
    | some c =>
        obtain ⟨_, _, -, rfl, -⟩ := timerSessionState_restore h
        rfl
    | none =>
        obtain ⟨-, rfl⟩ := timerSessionState_missing h
        rfl

end States

/-! ## The phase -/

theorem restoreStateSessions_cases {τ χ : Type} {ks : StateKind τ χ} {stored : List τ}
    {r r₁ : Restorer} {root root' : Option (List χ)}
    (h : restoreStateSessions ks stored root r = .ok (root', r₁)) :
    (root = none ∧ root' = none ∧ r₁ = r) ∨
      ∃ objects objects', root = some objects ∧ root' = some objects' ∧
        ks.run stored objects r = .ok (objects', r₁) := by
  cases root with
  | none =>
      cases h
      exact .inl ⟨rfl, rfl, rfl⟩
  | some objects =>
      unfold restoreStateSessions at h
      cases hrun : ks.run stored objects r with
      | error e =>
          simp only [hrun] at h
          cases h
      | ok x =>
          simp only [hrun] at h
          cases h
          exact .inr ⟨objects, x.1, rfl, rfl, hrun⟩

/-- A run of the second phase: the restorer after each kind. -/
structure RestoreRun (g : Genode) (inBootstrap : Bool) (st : TargetState) (s : CustomServices)
    (r : Restorer) (s' : CustomServices) (r' : Restorer) where
  afterRam : Restorer
  afterPd : Restorer
  afterCpu : Restorer
  afterRm : Restorer
  afterLog : Restorer
  ram : (ramSessionState g).run st.ramSessions s.ramRoot r = .ok (s'.ramRoot, afterRam)
  pd : (pdSessionState g inBootstrap s.pdRoot).run st.pdSessions s.pdRoot afterRam =
    .ok (s'.pdRoot, afterPd)
  cpu : (cpuSessionState g s'.pdRoot).run st.cpuSessions s.cpuRoot afterPd =
    .ok (s'.cpuRoot, afterCpu)
  rm : restoreStateSessions (rmSessionState g inBootstrap s'.pdRoot) st.rmSessions s.rmRoot
    afterCpu = .ok (s'.rmRoot, afterRm)
  log : restoreStateSessions (logSessionState g) st.logSessions s.logRoot afterRm =
    .ok (s'.logRoot, afterLog)
  timer : restoreStateSessions (timerSessionState g s'.pdRoot) st.timerSessions s.timerRoot
    afterLog = .ok (s'.timerRoot, r')

theorem restoreState_cases {g : Genode} {inBootstrap : Bool} {st : TargetState}
    {s s' : CustomServices} {r r' : Restorer}
    (h : restoreState g inBootstrap st s r = .ok (s', r')) :
    Nonempty (RestoreRun g inBootstrap st s r s' r') := by
  obtain ⟨ram, hram, h⟩ := bind_eq_ok.mp h
  obtain ⟨pd, hpd, h⟩ := bind_eq_ok.mp h
  obtain ⟨cpu, hcpu, h⟩ := bind_eq_ok.mp h
  obtain ⟨rm, hrm, h⟩ := bind_eq_ok.mp h
  obtain ⟨log, hlog, h⟩ := bind_eq_ok.mp h
  obtain ⟨timer, htimer, h⟩ := bind_eq_ok.mp h
  cases h
  exact ⟨⟨ram.2, pd.2, cpu.2, rm.2, log.2, hram, hpd, hcpu, hrm, hlog, htimer⟩⟩

end Rtcr
