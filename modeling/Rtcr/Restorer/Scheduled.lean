import Rtcr.Checkpointer.Counts
import Rtcr.Incremental.WorkList
import Rtcr.Restorer.Quiet
import Rtcr.Restorer.Restore
import Rtcr.Restorer.StateSteps

/-!
# Restorer.Scheduled — what `restore()` is going to copy

`_memory_to_restore` is filled while the states are restored, one entry at
a time, and never looked at as a whole. `untilCopy_scheduled` says what it
holds before the memory phase, in terms of what is stored: every stored RAM
dataspace, and every memory content of an attached region once.
-/

namespace Rtcr

open Checkpointer (ramDataspaceInfos regionMapInfos)
open Fallible

/-! ## Work items -/

/-- The content of a stored RAM dataspace, for the child's dataspace
`orig`. -/
def StoredRamDataspaceInfo.item (t : StoredRamDataspaceInfo) (orig : Cap) : OrigCopyInfo where
  origDsCap := orig
  copyDsCap := t.memoryContent
  copyRelAddr := 0
  copySize := t.size
  done := false

/-- The turn of a stored attached region: `orig` is the dataspace that the
child has at its address. -/
structure RegionVisit where
  map : StoredRegionMapInfo
  region : StoredAttachedRegionInfo
  orig : Cap

/-- The content of the region. -/
def RegionVisit.item (v : RegionVisit) : OrigCopyInfo where
  origDsCap := v.orig
  copyDsCap := v.region.memoryContent
  copyRelAddr := 0
  copySize := v.region.size
  done := false

/-- The badge of the memory content. -/
def RegionVisit.content (v : RegionVisit) : Nat := v.region.memoryContent.localName

/-- The visits whose regions are scheduled: no region map is, and no
memory content a second time. `taken` are those that have an entry. -/
def scheduledVisits (regionMaps : List Nat) : List Nat → List RegionVisit → List RegionVisit
  | _, [] => []
  | taken, v :: vs =>
      if v.region.attachedDsBadge ∈ regionMaps ∨ v.content ∈ taken then
        scheduledVisits regionMaps taken vs
      else v :: scheduledVisits regionMaps (v.content :: taken) vs

section

variable {regionMaps : List Nat}

theorem scheduledVisits_skip {taken : List Nat} {v : RegionVisit} {vs : List RegionVisit}
    (h : v.region.attachedDsBadge ∈ regionMaps ∨ v.content ∈ taken) :
    scheduledVisits regionMaps taken (v :: vs) = scheduledVisits regionMaps taken vs := if_pos h

theorem scheduledVisits_take {taken : List Nat} {v : RegionVisit} {vs : List RegionVisit}
    (h : ¬(v.region.attachedDsBadge ∈ regionMaps ∨ v.content ∈ taken)) :
    scheduledVisits regionMaps taken (v :: vs) =
      v :: scheduledVisits regionMaps (v.content :: taken) vs := if_neg h

theorem scheduledVisits_append (taken : List Nat) (vs us : List RegionVisit) :
    scheduledVisits regionMaps taken (vs ++ us) =
      scheduledVisits regionMaps taken vs ++ scheduledVisits regionMaps
        (((scheduledVisits regionMaps taken vs).map (·.content)).reverse ++ taken) us := by
  induction vs generalizing taken with
  | nil => rfl
  | cons v vs ih =>
      rw [List.cons_append]
      by_cases h : v.region.attachedDsBadge ∈ regionMaps ∨ v.content ∈ taken
      · rw [scheduledVisits_skip h, scheduledVisits_skip h, ih]
      · rw [scheduledVisits_take h, scheduledVisits_take h, ih]
        simp

/-- Only what is in the lists counts. -/
theorem scheduledVisits_congr {regionMaps' taken taken' : List Nat}
    (hmaps : ∀ b, b ∈ regionMaps ↔ b ∈ regionMaps') (htaken : ∀ b, b ∈ taken ↔ b ∈ taken')
    (vs : List RegionVisit) :
    scheduledVisits regionMaps taken vs = scheduledVisits regionMaps' taken' vs := by
  induction vs generalizing taken taken' with
  | nil => rfl
  | cons v vs ih =>
      have hskip : v.region.attachedDsBadge ∈ regionMaps ∨ v.content ∈ taken ↔
          v.region.attachedDsBadge ∈ regionMaps' ∨ v.content ∈ taken' := by rw [hmaps, htaken]
      by_cases h : v.region.attachedDsBadge ∈ regionMaps ∨ v.content ∈ taken
      · rw [scheduledVisits_skip h, scheduledVisits_skip (hskip.mp h)]
        exact ih htaken
      · rw [scheduledVisits_take h, scheduledVisits_take (mt hskip.mpr h)]
        have hcons : ∀ b, b ∈ v.content :: taken ↔ b ∈ v.content :: taken' := by
          intro b
          rw [List.mem_cons, List.mem_cons, htaken]
        rw [ih hcons]

/-- **No region is missed**: its content is scheduled, for itself or for
one that came before it. -/
theorem content_scheduled {taken : List Nat} {vs : List RegionVisit} {v : RegionVisit}
    (hv : v ∈ vs) (hmap : v.region.attachedDsBadge ∉ regionMaps) :
    v.content ∈ taken ∨ ∃ u ∈ scheduledVisits regionMaps taken vs, u.content = v.content := by
  induction vs generalizing taken with
  | nil => cases hv
  | cons u us ih =>
      by_cases h : u.region.attachedDsBadge ∈ regionMaps ∨ u.content ∈ taken
      · rw [scheduledVisits_skip h]
        rcases List.mem_cons.mp hv with rfl | hv
        · exact .inl (h.resolve_left hmap)
        · exact ih hv
      · rw [scheduledVisits_take h]
        rcases List.mem_cons.mp hv with rfl | hv
        · exact .inr ⟨v, List.mem_cons_self, rfl⟩
        · have hrest : v.content ∈ u.content :: taken ∨
              ∃ w ∈ scheduledVisits regionMaps (u.content :: taken) us, w.content = v.content :=
            ih hv
          -- `u` has taken it, or one before
          rcases hrest with htaken | ⟨w, hw, he⟩
          · rcases List.mem_cons.mp htaken with he | htaken
            · exact .inr ⟨u, List.mem_cons_self, he.symm⟩
            · exact .inl htaken
          · exact .inr ⟨w, List.mem_cons_of_mem _ hw, he⟩

end

/-! ## The restorer -/

/-- The memory contents that have an entry. -/
def Restorer.taken (r : Restorer) : List Nat := r.memoryToRestore.map (·.copyDsCap.localName)

/-- The items come to the head of the work list, one after the other;
nothing else changes. -/
structure Restorer.Schedules (r r' : Restorer) (items : List OrigCopyInfo) : Prop where
  memory : r'.memoryToRestore = items.reverse ++ r.memoryToRestore
  regionMaps : r'.regionMapDataspacesFromStored = r.regionMapDataspacesFromStored
  table : r'.ckptToRestoInfos = r.ckptToRestoInfos
  core : r'.core = r.core

namespace Restorer

variable {r r₁ r' : Restorer} {items items' : List OrigCopyInfo}

theorem Schedules.refl (r : Restorer) : r.Schedules r [] := ⟨rfl, rfl, rfl, rfl⟩

theorem Schedules.trans (h : r.Schedules r₁ items) (h' : r₁.Schedules r' items') :
    r.Schedules r' (items ++ items') where
  memory := by rw [h'.memory, h.memory, List.reverse_append, List.append_assoc]
  regionMaps := h'.regionMaps.trans h.regionMaps
  table := h'.table.trans h.table
  core := h'.core.trans h.core

theorem Schedules.taken (h : r.Schedules r' items) :
    r'.taken = (items.map (·.copyDsCap.localName)).reverse ++ r.taken := by
  unfold Restorer.taken
  rw [h.memory, List.map_append, List.map_reverse]

theorem schedules_ram (t : StoredRamDataspaceInfo) (orig : Cap) (r : Restorer) :
    r.Schedules (r.schedule orig t.memoryContent t.size) [t.item orig] := ⟨rfl, rfl, rfl, rfl⟩

/-- The turn of one region. -/
theorem schedules_region (map : StoredRegionMapInfo) (t : StoredAttachedRegionInfo)
    (info : AttachedRegionInfo) (r : Restorer) :
    r.Schedules (r.scheduleRegion t info)
      ((scheduledVisits r.regionMapDataspacesFromStored r.taken
        [⟨map, t, info.attachedDsCap⟩]).map (·.item)) := by
  have htaken : (r.memoryToRestore.any fun i => i.copyDsCap.localName == t.memoryContent.localName)
      = true ↔ t.memoryContent.localName ∈ r.taken := by
    simp [Restorer.taken, List.any_eq_true]
  unfold Restorer.scheduleRegion scheduledVisits
  by_cases hmap : t.attachedDsBadge ∈ r.regionMapDataspacesFromStored
  · rw [if_pos (by simpa using hmap), if_pos (.inl hmap)]
    exact .refl r
  · rw [if_neg (by simpa using hmap)]
    by_cases hin : t.memoryContent.localName ∈ r.taken
    · rw [if_pos (htaken.mpr hin), if_pos (.inr hin)]
      exact .refl r
    · rw [if_neg (mt htaken.mp hin), if_neg (by rintro (h | h); exacts [hmap h, hin h])]
      exact ⟨rfl, rfl, rfl, rfl⟩

end Restorer

/-! ## Region maps that grow -/

/-- Region maps stay, and with them what is attached. -/
def MapsGrow (l l' : List RegionMapComponent) : Prop :=
  ∀ a ∈ l, ∃ a' ∈ l', a'.cap = a.cap ∧
    a.parentState.attachedRegions ⊆ a'.parentState.attachedRegions

theorem MapsGrow.of_subset {l l' : List RegionMapComponent} (h : l ⊆ l') : MapsGrow l l' :=
  fun a ha => ⟨a, h ha, rfl, fun _ hi => hi⟩

theorem MapsGrow.trans {l l₁ l' : List RegionMapComponent} (h : MapsGrow l l₁)
    (h' : MapsGrow l₁ l') : MapsGrow l l' := by
  intro a ha
  obtain ⟨a₁, ha₁, hcap₁, hsub₁⟩ := h a ha
  obtain ⟨a', ha', hcap', hsub'⟩ := h' a₁ ha₁
  exact ⟨a', ha', hcap'.trans hcap₁, fun _ hi => hsub' (hsub₁ hi)⟩

theorem MapsGrow.append {l l' m m' : List RegionMapComponent} (h : MapsGrow l l')
    (h' : MapsGrow m m') : MapsGrow (l ++ m) (l' ++ m') := by
  intro a ha
  rcases List.mem_append.mp ha with ha | ha
  · obtain ⟨a', ha', hspec⟩ := h a ha
    exact ⟨a', List.mem_append_left _ ha', hspec⟩
  · obtain ⟨a', ha', hspec⟩ := h' a ha
    exact ⟨a', List.mem_append_right _ ha', hspec⟩

/-! ## Visits -/

/-- The stored attached regions with their region maps, in the order of
their turns. -/
def regionsOf (maps : List StoredRegionMapInfo) :
    List (StoredRegionMapInfo × StoredAttachedRegionInfo) :=
  maps.flatMap fun m => m.storedAttachedRegionInfos.map fun t => (m, t)

/-- `orig` is attached in the child's region map for the stored one, at
the stored address. A region that was attached again has the dataspace its
stored badge is translated to. -/
structure RegionVisit.Found (maps : List RegionMapComponent) (r : Restorer) (v : RegionVisit) :
    Prop where
  attached : ∃ a ∈ maps, r.translate v.map.badge = some a.cap ∧
    ∃ info ∈ a.parentState.attachedRegions, info.covers v.region.relAddr = true ∧
      info.attachedDsCap = v.orig
  translated : v.region.bootstrapped = false →
    r.translate v.region.attachedDsBadge = some v.orig

theorem RegionVisit.Found.grow {maps maps' : List RegionMapComponent} {r : Restorer}
    {v : RegionVisit} (h : v.Found maps r) (hgrow : MapsGrow maps maps') : v.Found maps' r where
  attached := by
    obtain ⟨a, ha, htr, info, hinfo, hspec⟩ := h.attached
    obtain ⟨a', ha', hcap, hsub⟩ := hgrow a ha
    exact ⟨a', ha', by rw [hcap]; exact htr, info, hsub hinfo, hspec⟩
  translated := h.translated

theorem RegionVisit.Found.congr {maps : List RegionMapComponent} {r r' : Restorer}
    {v : RegionVisit} (h : v.Found maps r') (htable : r'.ckptToRestoInfos = r.ckptToRestoInfos) :
    v.Found maps r where
  attached := by
    obtain ⟨a, ha, htr, hinfo⟩ := h.attached
    exact ⟨a, ha, by rw [← Restorer.translate_congr htable]; exact htr, hinfo⟩
  translated hb := by
    rw [← Restorer.translate_congr htable]
    exact h.translated hb

/-- The regions `stored` have had their turns, and `maps` are the child's
region maps afterwards. -/
structure Visits (stored : List (StoredRegionMapInfo × StoredAttachedRegionInfo))
    (maps : List RegionMapComponent) (r r' : Restorer) (visits : List RegionVisit) : Prop where
  regions : visits.map (fun v => (v.map, v.region)) = stored
  found : ∀ v ∈ visits, v.Found maps r
  schedules : r.Schedules r'
    ((scheduledVisits r.regionMapDataspacesFromStored r.taken visits).map (·.item))

section Visits

variable {stored stored' : List (StoredRegionMapInfo × StoredAttachedRegionInfo)}
  {maps maps' : List RegionMapComponent} {r r₁ r' : Restorer} {visits visits' : List RegionVisit}

theorem Visits.nil (maps : List RegionMapComponent) (r : Restorer) : Visits [] maps r r [] where
  regions := rfl
  found := List.forall_mem_nil _
  schedules := .refl r

theorem Visits.grow (h : Visits stored maps r r' visits) (hgrow : MapsGrow maps maps') :
    Visits stored maps' r r' visits where
  regions := h.regions
  found v hv := (h.found v hv).grow hgrow
  schedules := h.schedules

theorem Visits.append (h : Visits stored maps r r₁ visits) (h' : Visits stored' maps r₁ r' visits') :
    Visits (stored ++ stored') maps r r' (visits ++ visits') where
  regions := by rw [List.map_append, h.regions, h'.regions]
  found v hv := by
    rcases List.mem_append.mp hv with hv | hv
    · exact h.found v hv
    · exact (h'.found v hv).congr h.schedules.table
  schedules := by
    have hboth := h.schedules.trans h'.schedules
    rw [h.schedules.taken, h.schedules.regionMaps, List.map_map] at hboth
    rw [scheduledVisits_append, List.map_append]
    exact hboth

end Visits

/-! ## Kind by kind -/

section Kinds

variable {τ χ : Type} {g : Genode} {inBootstrap : Bool} {pdSessions : List PdSessionComponent}
  {r r' : Restorer}

/-- The turn of one region. -/
theorem attachedRegion_visits {map : StoredRegionMapInfo} {t : StoredAttachedRegionInfo}
    {x x' : RegionMapComponent × Restorer}
    (h : restoreStateAttachedRegion g inBootstrap t x = .ok x')
    (htr : x.2.translate map.badge = some x.1.cap) :
    ∃ v, Visits [(map, t)] [x'.1] x.2 x'.2 [v] := by
  have hrestored := restoreStateAttachedRegion_restored h
  obtain ⟨info, hfind, hr, hcase⟩ := restoreStateAttachedRegion_cases h
  have hinfo : info ∈ x'.1.parentState.attachedRegions := List.mem_of_find?_eq_some hfind
  have hcov : info.covers t.relAddr = true :=
    List.find?_some (p := fun info => AttachedRegionInfo.covers info t.relAddr) hfind
  -- a region that is attached again is the one the search then finds
  have htranslated : t.bootstrapped = false →
      x.2.translate t.attachedDsBadge = some info.attachedDsCap := by
    intro hb
    rcases hcase with ⟨hboot, -⟩ | ⟨-, dsCap, hds, hrm⟩
    · rw [hb] at hboot
      cases hboot
    · rw [hrm, RegionMapComponent.find_attach] at hfind
      rw [hds, ← Option.some.inj hfind]
  refine ⟨⟨map, t, info.attachedDsCap⟩, rfl, fun v hv => ?_, ?_⟩
  · obtain rfl := List.mem_singleton.mp hv
    refine ⟨⟨x'.1, List.mem_singleton.mpr rfl, ?_, info, hinfo, hcov, rfl⟩, htranslated⟩
    rw [htr, hrestored.cap]
  · rw [hr]
    exact Restorer.schedules_region map t info x.2

/-- The regions of one region map. -/
theorem attachedRegions_visits {map : StoredRegionMapInfo} {ts : List StoredAttachedRegionInfo}
    {x x' : RegionMapComponent × Restorer}
    (h : loop (restoreStateAttachedRegion g inBootstrap) ts x = .ok x')
    (htr : x.2.translate map.badge = some x.1.cap) :
    ∃ visits, Visits (ts.map fun t => (map, t)) [x'.1] x.2 x'.2 visits := by
  induction ts generalizing x with
  | nil =>
      cases h
      exact ⟨[], .nil ..⟩
  | cons t ts ih =>
      obtain ⟨x₁, hstep, hrest⟩ := loop_cons_eq_ok.mp h
      have hfirst := restoreStateAttachedRegion_restored hstep
      have hlater := restoreStateAttachedRegions_restored hrest
      have htr₁ : x₁.2.translate map.badge = some x₁.1.cap := by
        rw [Restorer.translate_congr hfirst.table, hfirst.cap, htr]
      -- later turns attach more, and detach nothing
      have hgrow : MapsGrow [x₁.1] [x'.1] := by
        intro a ha
        obtain rfl := List.mem_singleton.mp ha
        exact ⟨x'.1, List.mem_singleton.mpr rfl, hlater.cap, hlater.kept⟩
      obtain ⟨v, hone⟩ := attachedRegion_visits hstep htr
      obtain ⟨visits, hvisits⟩ := ih hrest htr₁
      exact ⟨v :: visits, (hone.grow hgrow).append hvisits⟩

/-- What the stored objects of a kind visit: `regionMaps` are the stored
region maps of one, and `maps` those of an object of the child. -/
theorem StateKind.InPlace.run_visits {k : StateKind τ χ} {missing : τ → Err}
    {restore : τ → χ → Restorer → Except Err (χ × Restorer)} (hin : k.InPlace)
    (hk : k.restore = ifPresent missing restore) (regionMaps : τ → List StoredRegionMapInfo)
    (maps : χ → List RegionMapComponent)
    (hturn : ∀ t c d r r', restore t c r = .ok (d, r') →
      r.translate (k.badge t) = some (k.cap c) → MapsGrow (maps c) (maps d) ∧
        ∃ visits, Visits (regionsOf (regionMaps t)) (maps d) r r' visits)
    {stored : List τ} {objects objects' : List χ}
    (h : k.run stored objects r = .ok (objects', r')) :
    MapsGrow (objects.flatMap maps) (objects'.flatMap maps) ∧
      ∃ visits, Visits (regionsOf (stored.flatMap regionMaps)) (objects'.flatMap maps) r r'
        visits := by
  refine loop_rel (I := fun _ _ => True) (R := fun ts (x x' : List χ × Restorer) =>
      MapsGrow (x.1.flatMap maps) (x'.1.flatMap maps) ∧
        ∃ visits, Visits (regionsOf (ts.flatMap regionMaps)) (x'.1.flatMap maps) x.2 x'.2 visits)
    ?_ (fun _ _ _ _ _ _ => trivial) ?_ h trivial
  · exact fun x _ => ⟨.of_subset (List.Subset.refl _), [], .nil ..⟩
  · rintro t ts x x₁ x' - hstep ⟨hgrow', visits', hvisits'⟩
    obtain ⟨before, c, d, after, hx, hx₁, htr, -, hrestore⟩ := hin.step_present hk hstep
    obtain ⟨hgrow, visits, hvisits⟩ := hturn t c d x.2 x₁.2 hrestore htr
    -- the turn changes the maps of `c` only
    have hwhole : MapsGrow (x.1.flatMap maps) (x₁.1.flatMap maps) := by
      rw [hx, hx₁, List.flatMap_append, List.flatMap_append, List.flatMap_cons, List.flatMap_cons]
      exact MapsGrow.append (.of_subset (List.Subset.refl _))
        (hgrow.append (.of_subset (List.Subset.refl _)))
    have hin₁ : MapsGrow (maps d) (x₁.1.flatMap maps) := by
      refine .of_subset fun a ha => List.mem_flatMap.mpr ⟨d, ?_, ha⟩
      rw [hx₁]
      simp
    refine ⟨hwhole.trans hgrow', visits ++ visits', ?_⟩
    have hsplit : regionsOf ((t :: ts).flatMap regionMaps) =
        regionsOf (regionMaps t) ++ regionsOf (ts.flatMap regionMaps) := by
      rw [List.flatMap_cons, regionsOf, List.flatMap_append]
      rfl
    rw [hsplit]
    exact (hvisits.grow (hin₁.trans hgrow')).append hvisits'

theorem regionMaps_visits {stored : List StoredRegionMapInfo}
    {maps maps' : List RegionMapComponent}
    (h : (regionMapState g inBootstrap pdSessions).run stored maps r = .ok (maps', r')) :
    MapsGrow maps maps' ∧ ∃ visits, Visits (regionsOf stored) maps' r r' visits := by
  have hone : ∀ l : List RegionMapComponent, l.flatMap (fun a => [a]) = l :=
    List.flatMap_singleton'
  have hrun := regionMapState_inPlace.run_visits rfl (fun t => [t]) (fun a => [a]) ?_ h
  · rwa [hone, hone, List.flatMap_singleton'] at hrun
  · intro t c d r r' hrestore htr
    obtain ⟨rm, hsigh, hloop⟩ := bind_eq_ok.mp hrestore
    have hrm : rm.cap = c.cap ∧
        rm.parentState.attachedRegions = c.parentState.attachedRegions := by
      rcases restoreSigh_cases hsigh with ⟨-, rfl⟩ | ⟨handler, -, rfl⟩
      · exact ⟨rfl, rfl⟩
      · exact ⟨rfl, rfl⟩
    have hrestored := restoreStateAttachedRegions_restored hloop
    have htr' : r.translate t.badge = some rm.cap := by
      rw [hrm.1]
      exact htr
    obtain ⟨visits, hvisits⟩ := attachedRegions_visits hloop htr'
    refine ⟨fun a ha => ?_, visits, ?_⟩
    · obtain rfl := List.mem_singleton.mp ha
      refine ⟨d, List.mem_singleton.mpr rfl, hrestored.cap.trans hrm.1, ?_⟩
      rw [← hrm.2]
      exact hrestored.kept
    · simpa [regionsOf] using hvisits

theorem pdSessions_visits {stored : List StoredPdSessionInfo}
    {objects objects' : List PdSessionComponent}
    (h : (pdSessionState g inBootstrap pdSessions).run stored objects r = .ok (objects', r')) :
    ∃ visits, Visits (regionsOf (stored.flatMap (·.areas))) (objects'.flatMap (·.areas)) r r'
      visits := by
  refine (pdSessionState_inPlace.run_visits rfl _ _ ?_ h).2
  intro t c d r r' hrestore _
  obtain ⟨⟨areas, r₁⟩, hrun, hlast⟩ := bind_eq_ok.mp hrestore
  cases hlast
  have hup : (upgradeIfNecessary g PdSessionComponent.upgrade t.upgradeArgs c).areas = c.areas :=
    upgradeIfNecessary_keeps (f := fun c : PdSessionComponent => c.areas) (fun _ _ => rfl) ..
  -- the loop keeps the three areas in their places
  have hlength : areas.length = 3 := by
    have hcaps := congrArg List.length (StateKind.run_caps hrun)
    simpa [PdSessionComponent.areas] using hcaps
  rw [hup] at hrun
  rw [setAreas_areas hlength]
  exact regionMaps_visits hrun

theorem rmSessions_visits {stored : List StoredRmSessionInfo}
    {objects objects' : List RmSessionComponent}
    (h : (rmSessionState g inBootstrap pdSessions).run stored objects r = .ok (objects', r')) :
    ∃ visits, Visits (regionsOf (stored.flatMap (·.storedRegionMapInfos)))
      (objects'.flatMap (·.parentState.regionMaps)) r r' visits := by
  refine (rmSessionState_inPlace.run_visits rfl _ _ ?_ h).2
  intro t c d r r' hrestore _
  obtain ⟨⟨maps, r₁⟩, hrun, hlast⟩ := bind_eq_ok.mp hrestore
  cases hlast
  have hup :
      (upgradeIfNecessary g RmSessionComponent.upgrade t.upgradeArgs c).parentState.regionMaps =
        c.parentState.regionMaps :=
    upgradeIfNecessary_keeps (f := fun c : RmSessionComponent => c.parentState.regionMaps)
      (fun _ _ => rfl) ..
  rw [hup] at hrun
  exact regionMaps_visits hrun

end Kinds

/-! ## RAM dataspaces -/

/-- The child's dataspace that a stored badge is translated to. -/
def Restorer.target (r : Restorer) (badge : Nat) : Cap := (r.translate badge).getD Cap.invalid

theorem Restorer.target_of_translate {r : Restorer} {badge : Nat} {cap : Cap}
    (h : r.translate badge = some cap) : r.target badge = cap := by
  unfold Restorer.target
  rw [h]
  rfl

theorem Restorer.target_congr {r r' : Restorer} (h : r'.ckptToRestoInfos = r.ckptToRestoInfos)
    (badge : Nat) : r'.target badge = r.target badge := by
  unfold Restorer.target
  rw [Restorer.translate_congr h]

/-- The stored RAM dataspaces have had their turns. -/
structure RamScheduled (stored : List StoredRamDataspaceInfo) (r r' : Restorer) : Prop where
  translated : ∀ t ∈ stored, r.translate t.badge = some (r.target t.badge)
  schedules : r.Schedules r' (stored.map fun t => t.item (r.target t.badge))

theorem RamScheduled.nil (r : Restorer) : RamScheduled [] r r := ⟨List.forall_mem_nil _, .refl r⟩

theorem RamScheduled.append {stored stored' : List StoredRamDataspaceInfo} {r r₁ r' : Restorer}
    (h : RamScheduled stored r r₁) (h' : RamScheduled stored' r₁ r') :
    RamScheduled (stored ++ stored') r r' where
  translated t ht := by
    rcases List.mem_append.mp ht with ht | ht
    · exact h.translated t ht
    · have htr := h'.translated t ht
      rwa [Restorer.translate_congr h.schedules.table,
        Restorer.target_congr h.schedules.table] at htr
  schedules := by
    have hboth := h.schedules.trans h'.schedules
    simp only [Restorer.target_congr h.schedules.table] at hboth
    rw [List.map_append]
    exact hboth

section Ram

variable {g : Genode} {r r' : Restorer}

theorem restoreStateRamDataspaces_scheduled {stored : List StoredRamDataspaceInfo}
    {infos : List RamDataspaceInfo} (h : restoreStateRamDataspaces stored infos r = .ok r') :
    RamScheduled stored r r' := by
  refine loop_rel (I := fun _ _ => True) (R := RamScheduled) (fun r _ => .nil r)
    (fun _ _ _ _ _ _ => trivial) ?_ h trivial
  intro t ts r r₁ r' _ hstep hrest
  obtain ⟨o, hfind, hstep⟩ := bind_eq_ok.mp hstep
  cases o with
  | none => cases hstep
  | some ramds =>
      cases hstep
      obtain ⟨restoCap, htr, ho⟩ := findChildObject_eq_ok hfind
      -- the item names the dataspace that the badge was translated to
      have hcap : restoCap = ramds.cap := (Cap.ext_localName (findByBadge_some ho.symm).2).symm
      have htarget : r.target t.badge = ramds.cap := by
        rw [Restorer.target_of_translate htr, hcap]
      have hone : RamScheduled [t] r (r.schedule ramds.cap t.memoryContent t.size) := by
        refine ⟨fun u hu => ?_, ?_⟩
        · obtain rfl := List.mem_singleton.mp hu
          rw [htr, htarget, hcap]
        · rw [List.map_singleton, htarget]
          exact Restorer.schedules_ram t ramds.cap r
      exact hone.append hrest

theorem ramSessions_scheduled {stored : List StoredRamSessionInfo}
    {objects objects' : List RamSessionComponent}
    (h : (ramSessionState g).run stored objects r = .ok (objects', r')) :
    RamScheduled (stored.flatMap (·.storedRamdsInfos)) r r' := by
  refine loop_rel (I := fun _ _ => True)
    (R := fun ts (x x' : List RamSessionComponent × Restorer) =>
      RamScheduled (ts.flatMap (·.storedRamdsInfos)) x.2 x'.2)
    (fun x _ => .nil x.2) (fun _ _ _ _ _ _ => trivial) ?_ h trivial
  intro t ts x x₁ x' _ hstep hrest
  obtain ⟨_, c, d, _, -, -, -, -, hrestore⟩ := ramSessionState_inPlace.step_present rfl hstep
  obtain ⟨r₁, hds, hlast⟩ := bind_eq_ok.mp hrestore
  cases hlast
  rw [List.flatMap_cons]
  exact (restoreStateRamDataspaces_scheduled hds).append hrest

/-- Restoring a state manages nothing. -/
theorem ramSessions_unmanaged {stored : List StoredRamSessionInfo}
    {objects objects' : List RamSessionComponent}
    (h : (ramSessionState g).run stored objects r = .ok (objects', r'))
    (hobjects : ∀ s ∈ objects, s.Unmanaged) : ∀ s ∈ objects', s.Unmanaged := by
  refine loop_keeps (I := fun x : List RamSessionComponent × Restorer => ∀ s ∈ x.1, s.Unmanaged)
    ?_ h hobjects
  intro t _ x x' hx hstep s hs
  obtain ⟨before, c, d, after, hsplit, hsplit', -, -, hrestore⟩ :=
    ramSessionState_inPlace.step_present rfl hstep
  obtain ⟨r₁, -, hlast⟩ := bind_eq_ok.mp hrestore
  cases hlast
  rw [hsplit'] at hs
  rw [hsplit] at hx
  rcases List.mem_replace (a := c) hs with rfl | hs
  · have hc := hx c (by simp)
    unfold upgradeIfNecessary
    split
    · exact hc
    · exact hc
  · exact hx s hs

end Ram

/-! ## The other kinds -/

/-- Kinds that schedule nothing. -/
theorem StateKind.run_same {τ χ : Type} {k : StateKind τ χ} {stored : List τ}
    {objects objects' : List χ} {r r' : Restorer}
    (hk : ∀ t o r o' r', k.restore t o r = .ok (o', r') → r' = r)
    (h : k.run stored objects r = .ok (objects', r')) : r' = r := by
  refine loop_keeps (I := fun x : List χ × Restorer => x.2 = r) ?_ h rfl
  intro t _ x x' hx hstep
  obtain ⟨o, -, hrest⟩ := bind_eq_ok.mp hstep
  obtain ⟨⟨o', r₁⟩, hrestore, hlast⟩ := bind_eq_ok.mp hrest
  have hsame := hk t o x.2 o' r₁ hrestore
  cases o' with
  | none =>
      cases hlast
      exact hsame.trans hx
  | some d =>
      cases hlast
      exact hsame.trans hx

theorem cpuSessions_same {g : Genode} {pdSessions : List PdSessionComponent}
    {stored : List StoredCpuSessionInfo} {objects objects' : List CpuSessionComponent}
    {r r' : Restorer}
    (h : (cpuSessionState g pdSessions).run stored objects r = .ok (objects', r')) : r' = r := by
  refine StateKind.run_same ?_ h
  intro t o r o' r' hrestore
  obtain ⟨c, d, rfl, rfl, hd⟩ := StateKind.restore_eq_ok rfl hrestore
  obtain ⟨c₀, -, hrest⟩ := bind_eq_ok.mp hd
  obtain ⟨⟨threads, r₁⟩, hrun, hlast⟩ := bind_eq_ok.mp hrest
  cases hlast
  refine StateKind.run_same ?_ hrun
  intro u p r p' r' hrestore
  obtain ⟨c, d, rfl, rfl, hd⟩ := StateKind.restore_eq_ok rfl hrestore
  obtain ⟨c₁, -, hlast⟩ := bind_eq_ok.mp hd
  cases hlast
  rfl

theorem restoreStateSessions_same {τ χ : Type} {k : StateKind τ χ} {stored : List τ}
    {root root' : Option (List χ)} {r r' : Restorer}
    (hk : ∀ t o r o' r', k.restore t o r = .ok (o', r') → r' = r)
    (h : restoreStateSessions k stored root r = .ok (root', r')) : r' = r := by
  rcases restoreStateSessions_cases h with ⟨-, -, hsame⟩ | ⟨objects, objects', -, -, hrun⟩
  · exact hsame
  · exact StateKind.run_same hk hrun

theorem logSessionState_same_restorer {g : Genode} {t : StoredLogSessionInfo}
    {o o' : Option LogSessionComponent} {r r' : Restorer}
    (h : (logSessionState g).restore t o r = .ok (o', r')) : r' = r := by
  cases o with
  | some c =>
      cases h
      rfl
  | none =>
      dsimp only [logSessionState] at h
      split at h
      · cases h
      · cases h
        rfl

theorem timerSessionState_same_restorer {g : Genode} {pdSessions : List PdSessionComponent}
    {t : StoredTimerSessionInfo} {o o' : Option TimerSessionComponent} {r r' : Restorer}
    (h : (timerSessionState g pdSessions).restore t o r = .ok (o', r')) : r' = r := by
  cases o with
  | some c =>
      obtain ⟨_, _, -, hsame, -⟩ := timerSessionState_restore h
      exact hsame
  | none => exact (timerSessionState_missing h).2

/-! ## The work list -/

/-- The stored attached regions whose memory is scheduled: not those of
region maps, and of the others the first one for every memory content
that is not of a RAM dataspace. -/
def scheduledRegions (st : TargetState) (visits : List RegionVisit) : List RegionVisit :=
  scheduledVisits ((regionMapInfos st).map (·.dsBadge))
    ((ramDataspaceInfos st).map (·.memoryContent.localName)) visits

/-- What is to be copied for a stored state, in the order in which it is
scheduled. -/
def workItems (st : TargetState) (r : Restorer) (visits : List RegionVisit) : List OrigCopyInfo :=
  (ramDataspaceInfos st).map (fun t => t.item (r.target t.badge)) ++
    (scheduledRegions st visits).map (·.item)

/-- The memory of `st` is scheduled for a child with the region maps
`maps`. -/
structure Scheduled (st : TargetState) (maps : List RegionMapComponent) (r : Restorer)
    (visits : List RegionVisit) : Prop where
  /-- every stored RAM dataspace has one in the child -/
  translated : ∀ t ∈ ramDataspaceInfos st, r.translate t.badge = some (r.target t.badge)
  /-- every stored attached region has had its turn -/
  regions : visits.map (fun v => (v.map, v.region)) = regionsOf (regionMapInfos st)
  found : ∀ v ∈ visits, v.Found maps r
  /-- the newest item is in front -/
  list : r.memoryToRestore = (workItems st r visits).reverse

/-- **No entry is missed**: the memory content of every stored region that
is not a region map has an item. -/
theorem Scheduled.covers {st : TargetState} {maps : List RegionMapComponent} {r : Restorer}
    {visits : List RegionVisit} (h : Scheduled st maps r visits) {v : RegionVisit} (hv : v ∈ visits)
    (hmap : v.region.attachedDsBadge ∉ (regionMapInfos st).map (·.dsBadge)) :
    ∃ x ∈ r.memoryToRestore, x.copyDsCap.localName = v.content := by
  rw [h.list]
  simp only [List.mem_reverse, workItems, List.mem_append, List.mem_map]
  have hcontent : v.content ∈ (ramDataspaceInfos st).map (·.memoryContent.localName) ∨
      ∃ u ∈ scheduledRegions st visits, u.content = v.content := content_scheduled hv hmap
  rcases hcontent with hram | ⟨u, hu, he⟩
  · obtain ⟨t, ht, he⟩ := List.mem_map.mp hram
    exact ⟨_, .inl ⟨t, ht, rfl⟩, he⟩
  · exact ⟨_, .inr ⟨u, hu, rfl⟩, he⟩

theorem mem_createStoredRegionMapDataspaces (st : TargetState) (b : Nat) :
    b ∈ createStoredRegionMapDataspaces st.pdSessions st.rmSessions ↔
      b ∈ (regionMapInfos st).map (·.dsBadge) := by
  simp only [createStoredRegionMapDataspaces, regionMapInfos, Checkpointer.storedAreas,
    List.mem_reverse, List.map_append, List.map_flatMap, List.map_cons, List.map_nil]

section Phase

variable {g : Genode} {st : TargetState} {child : TargetChild} {core : Core} {r r' : Restorer}
  {s s' : CustomServices}

/-- The turns of all attached regions, in the region maps of the child:
those of the PD sessions first. No other kind schedules anything. -/
theorem RestoreRun.visits (run : RestoreRun g child.inBootstrap st s r s' r')
    (hroot : s.rmRoot = none → st.rmSessions = []) :
    ∃ visits, Visits (regionsOf (regionMapInfos st))
      (s'.pdRoot.flatMap (·.areas) ++ (sessionInfos s'.rmRoot).flatMap (·.parentState.regionMaps))
      run.afterRam r' visits := by
  obtain ⟨pdVisits, hpd⟩ := pdSessions_visits run.pd
  have hcpu : run.afterCpu = run.afterPd := cpuSessions_same run.cpu
  have hlog : run.afterLog = run.afterRm :=
    restoreStateSessions_same (fun _ _ _ _ _ => logSessionState_same_restorer) run.log
  have htimer : r' = run.afterLog :=
    restoreStateSessions_same (fun _ _ _ _ _ => timerSessionState_same_restorer) run.timer
  have hrm : ∃ visits, Visits (regionsOf (st.rmSessions.flatMap (·.storedRegionMapInfos)))
      ((sessionInfos s'.rmRoot).flatMap (·.parentState.regionMaps)) run.afterCpu run.afterRm
      visits := by
    rcases restoreStateSessions_cases run.rm with ⟨hnone, hnone', hsame⟩ |
      ⟨objects, objects', -, hsome', hrun⟩
    · rw [hroot hnone, hnone', hsame]
      exact ⟨[], .nil ..⟩
    · rw [hsome']
      exact rmSessions_visits hrun
  rw [hcpu, ← hlog, ← htimer] at hrm
  obtain ⟨rmVisits, hrm⟩ := hrm
  have hleft := hpd.grow (.of_subset (List.subset_append_left _
    ((sessionInfos s'.rmRoot).flatMap (·.parentState.regionMaps))))
  have hright := hrm.grow (.of_subset (List.subset_append_right
    (s'.pdRoot.flatMap (·.areas)) _))
  refine ⟨pdVisits ++ rmVisits, ?_⟩
  have hall : regionsOf (regionMapInfos st) = regionsOf (st.pdSessions.flatMap (·.areas)) ++
      regionsOf (st.rmSessions.flatMap (·.storedRegionMapInfos)) := by
    unfold regionsOf regionMapInfos
    rw [List.flatMap_append]
    rfl
  rw [hall]
  exact hleft.append hright

/-- The second phase, for a restorer that has scheduled nothing yet. -/
theorem RestoreRun.scheduled (run : RestoreRun g child.inBootstrap st s r s' r')
    (hempty : r.memoryToRestore = [])
    (hmaps : r.regionMapDataspacesFromStored =
      createStoredRegionMapDataspaces st.pdSessions st.rmSessions)
    (hroot : s.rmRoot = none → st.rmSessions = []) :
    r'.core = r.core ∧ ∃ visits, Scheduled st
      (s'.pdRoot.flatMap (·.areas) ++ (sessionInfos s'.rmRoot).flatMap (·.parentState.regionMaps))
      r' visits := by
  have hram := ramSessions_scheduled run.ram
  obtain ⟨visits, hvisits⟩ := run.visits hroot
  have htable : r'.ckptToRestoInfos = r.ckptToRestoInfos :=
    hvisits.schedules.table.trans hram.schedules.table
  refine ⟨hvisits.schedules.core.trans hram.schedules.core, visits, fun t ht => ?_,
    hvisits.regions, fun v hv => (hvisits.found v hv).congr hvisits.schedules.table.symm, ?_⟩
  · rw [Restorer.translate_congr htable, Restorer.target_congr htable]
    exact hram.translated t ht
  · -- what counts as taken are the RAM dataspaces and the region maps of the stored state
    have htaken : ∀ b, b ∈ run.afterRam.taken ↔
        b ∈ (st.ramSessions.flatMap (·.storedRamdsInfos)).map (·.memoryContent.localName) := by
      intro b
      rw [hram.schedules.taken]
      unfold Restorer.taken
      rw [hempty]
      simp [StoredRamDataspaceInfo.item]
    have hsame : ∀ b, b ∈ run.afterRam.regionMapDataspacesFromStored ↔
        b ∈ (regionMapInfos st).map (·.dsBadge) := by
      intro b
      rw [hram.schedules.regionMaps, hmaps, mem_createStoredRegionMapDataspaces]
    have hboth := (hram.schedules.trans hvisits.schedules).memory
    rw [hempty, List.append_nil] at hboth
    rw [hboth]
    unfold workItems scheduledRegions ramDataspaceInfos
    simp only [Restorer.target_congr htable]
    rw [scheduledVisits_congr hsame htaken]

/-- Where nothing is managed, no item is replaced. -/
theorem resolve_unmanaged {sessions : List RamSessionComponent}
    (h : ∀ s ∈ sessions, s.Unmanaged) (items : List OrigCopyInfo) :
    resolveIncCheckpointDataspaces sessions items = items := by
  have hnone : ∀ d ∈ dataspacesOf sessions, d.mrmInfo = none := by
    intro d hd
    obtain ⟨s, hs, hds⟩ := List.mem_flatMap.mp hd
    exact (h s hs).2 d hds
  rw [resolveIncCheckpointDataspaces_eq]
  generalize dataspacesOf sessions = ds at hnone
  unfold resolveAll
  induction ds with
  | nil => rfl
  | cons d ds ih =>
      rw [List.foldl_cons, hnone d List.mem_cons_self]
      exact ih fun d hd => hnone d (List.mem_cons_of_mem _ hd)

/-- **Before the memory phase** the memory of the stored state is
scheduled, and of the dataspaces there were only the one with the stored
capability index array has been written. -/
theorem untilCopy_scheduled {before : BeforeCopy} (hchild : child.Unmanaged)
    (h : Restorer.untilCopy g st child (.new core) = .ok before) :
    (∃ visits, Scheduled st before.child.regionMaps before.restorer visits) ∧
      ∃ arrays, findCapArrays g before.child st = .ok arrays ∧
        ∀ d < core.nextBadge, d ≠ arrays.stateDs.localName →
          before.restorer.core.bytes d = core.bytes d := by
  obtain ⟨⟨s', r'⟩, hobjects, h⟩ := bind_eq_ok.mp h
  obtain ⟨core', hcapMap, hlast⟩ := bind_eq_ok.mp h
  cases hlast
  obtain ⟨⟨s, r⟩, hidentify, hrestore⟩ := bind_eq_ok.mp hobjects
  obtain ⟨first⟩ := identifyRecreate_cases hidentify
  obtain ⟨run⟩ := restoreState_cases hrestore
  have hquiet := first.quiet
  have hroot : s.rmRoot = none → st.rmSessions = [] := by
    intro hnone
    obtain ⟨objects, -, -, hsome⟩ := identifyRecreateSessions_cases first.rm
    by_contra hne
    rw [hsome hne] at hnone
    cases hnone
  obtain ⟨hcore, visits, hscheduled⟩ := run.scheduled hquiet.scheduled hquiet.regionMaps hroot
  have hmanaged := ramSessions_unmanaged run.ram (first.unmanaged hchild)
  refine ⟨⟨visits, hscheduled.translated, hscheduled.regions,
    fun v hv => (hscheduled.found v hv).congr rfl, ?_⟩, ?_⟩
  · exact (resolve_unmanaged hmanaged _).trans hscheduled.list
  · obtain ⟨arrays, harrays, hframe⟩ := restoreCapMap_frame hcapMap
    refine ⟨arrays, harrays, fun d hd hne => ?_⟩
    show core'.bytes d = core.bytes d
    rw [hframe d hne]
    show r'.core.bytes d = core.bytes d
    rw [hcore]
    exact hquiet.grown.bytes d hd

end Phase

end Rtcr
