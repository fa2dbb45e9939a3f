import Rtcr.Restorer.Memory
import Rtcr.Restorer.StateSteps

/-!
# Restorer.UnknownOrigin — dataspaces that no session knows

An attached dataspace that comes from no intercepted session has no
translation. `_restore_state_attached_regions` means to allocate a new
one in its place, but notes the kcap for an attached region it has not
looked up yet. `restoresOrigins_iff` says what a region map must have for
the call to get to its end.
-/

namespace Rtcr

open Fallible

/-- A region that has to be attached again, of a dataspace without
translation. -/
def UnknownOrigin (r : Restorer) (t : StoredAttachedRegionInfo) : Prop :=
  t.bootstrapped = false ∧ r.translate t.attachedDsBadge = none

instance (r : Restorer) (t : StoredAttachedRegionInfo) : Decidable (UnknownOrigin r t) :=
  inferInstanceAs (Decidable (_ ∧ _))

/-- What becomes of the regions `ts` of unknown origin: `new` is the
dataspace allocated for each of their badges. -/
structure OriginsRecreated (ts : List StoredAttachedRegionInfo) (new : Nat → Cap) (r : Restorer)
    (x' : RegionMapComponent × Restorer) : Prop where
  /-- one allocation for each distinct badge -/
  count : x'.2.core.nextBadge = r.core.nextBadge + (ts.map (·.attachedDsBadge)).dedup.length
  fresh : ∀ t ∈ ts, r.core.nextBadge ≤ (new t.attachedDsBadge).localName ∧
    (new t.attachedDsBadge).localName < x'.2.core.nextBadge
  distinct : ∀ t ∈ ts, ∀ u ∈ ts, new t.attachedDsBadge = new u.attachedDsBadge →
    t.attachedDsBadge = u.attachedDsBadge
  attached : ∀ t ∈ ts, ∃ info ∈ x'.1.parentState.attachedRegions,
    info.attachedDsCap = new t.attachedDsBadge ∧ info.relAddr = t.relAddr ∧ info.size = t.size ∧
      info.offset = t.offset ∧ info.executable = t.executable
  kcaps : ∀ t ∈ ts, ⟨t.kcap, new t.attachedDsBadge⟩ ∈ x'.2.capabilityMapInfos
  scheduled : ∀ t ∈ ts, ∃ info,
    (x'.2.memoryToRestore.filter fun i => i.copyDsCap.localName == t.memoryContent.localName) =
        [info] ∧
      ∃ u ∈ ts, u.memoryContent = t.memoryContent ∧ info.origDsCap = new u.attachedDsBadge

/-- The call gets to its end, and all regions of unknown origin are
recreated. -/
def RestoresOrigins (g : Genode) (inBootstrap : Bool) (stored : List StoredAttachedRegionInfo)
    (rm : RegionMapComponent) (r : Restorer) : Prop :=
  ∃ x' new, loop (restoreStateAttachedRegion g inBootstrap) stored (rm, r) = .ok x' ∧
    OriginsRecreated (stored.filter fun t => UnknownOrigin r t) new r x'

/-- The region of `t` is attached again, and its record covers `addr`. -/
def AttachedOver (g : Genode) (r : Restorer) (t : StoredAttachedRegionInfo) (addr : Nat) : Prop :=
  t.bootstrapped = false ∧ ∃ dsCap, r.translate t.attachedDsBadge = some dsCap ∧
    t.relAddr ≤ addr ∧ addr ≤ t.relAddr + actualSize t.size (g.dataspaceSize dsCap) t.offset

/-- The stored regions a region map can be given back: every dataspace is
known, and every bootstrapped region is found. -/
structure OriginsKnown (g : Genode) (stored : List StoredAttachedRegionInfo)
    (regions : List AttachedRegionInfo) (r : Restorer) : Prop where
  /-- the dataspaces to attach have a translation -/
  known : ∀ t ∈ stored, t.bootstrapped = false → ∃ dsCap,
    r.translate t.attachedDsBadge = some dsCap
  /-- the start of a bootstrapped region is covered by a region of the
  map, or by one that is attached again before its turn -/
  identified : ∀ before t after, stored = before ++ t :: after → t.bootstrapped = true →
    (∃ info ∈ regions, info.covers t.relAddr = true) ∨ ∃ u ∈ before, AttachedOver g r u t.relAddr

section Regions

variable {g : Genode} {inBootstrap : Bool} {t : StoredAttachedRegionInfo}
  {x x' : RegionMapComponent × Restorer}

theorem AttachedOver.congr {r r' : Restorer} (h : r'.ckptToRestoInfos = r.ckptToRestoInfos)
    {addr : Nat} : AttachedOver g r' t addr ↔ AttachedOver g r t addr := by
  unfold AttachedOver
  rw [Restorer.translate_congr h]

/-- One stored region gets its region exactly if its dataspace is known,
or its start is covered already. -/
theorem restoreStateAttachedRegion_ok_iff :
    (∃ x', restoreStateAttachedRegion g inBootstrap t x = .ok x') ↔
      (t.bootstrapped = false → ∃ dsCap, x.2.translate t.attachedDsBadge = some dsCap) ∧
        (t.bootstrapped = true →
          ∃ info ∈ x.1.parentState.attachedRegions, info.covers t.relAddr = true) := by
  unfold restoreStateAttachedRegion
  dsimp only
  cases hb : t.bootstrapped with
  | true =>
      rw [if_pos rfl]
      simp only [bind, Except.bind, reduceCtorEq, false_implies, true_and, true_implies]
      cases hfind : findAttachedByAddr t.relAddr x.1.parentState.attachedRegions with
      | none =>
          have hnone := List.find?_eq_none.mp hfind
          simp only [reduceCtorEq, exists_false, false_iff]
          intro ⟨info, hinfo, hcov⟩
          exact hnone info hinfo hcov
      | some info =>
          refine ⟨fun _ => ?_, fun _ => ⟨_, rfl⟩⟩
          exact ⟨info, List.mem_of_find?_eq_some hfind,
            List.find?_some (p := fun info => AttachedRegionInfo.covers info t.relAddr) hfind⟩
  | false =>
      rw [if_neg Bool.false_ne_true]
      unfold reattach
      simp only [true_implies, reduceCtorEq, false_implies, and_true]
      cases htr : x.2.translate t.attachedDsBadge with
      | none => simp [bind, Except.bind]
      | some dsCap =>
          refine ⟨fun _ => ⟨dsCap, rfl⟩, fun _ => ?_⟩
          -- the new record covers its own start
          simp only [bind, Except.bind, RegionMapComponent.find_attach]
          exact ⟨_, rfl⟩

/-- What one stored region adds to the addresses that are covered. -/
theorem restoreStateAttachedRegion_covers
    (h : restoreStateAttachedRegion g inBootstrap t x = .ok x') (addr : Nat) :
    (∃ info ∈ x'.1.parentState.attachedRegions, info.covers addr = true) ↔
      (∃ info ∈ x.1.parentState.attachedRegions, info.covers addr = true) ∨
        AttachedOver g x.2 t addr := by
  obtain ⟨-, -, -, ⟨hb, hrm⟩ | ⟨hb, dsCap, htr, hrm⟩⟩ := restoreStateAttachedRegion_cases h
  · simp [AttachedOver, hb, hrm]
  · rw [hrm]
    change (∃ info ∈ _ :: x.1.parentState.attachedRegions, _) ↔ _
    simp only [List.mem_cons, exists_eq_or_imp, AttachedOver, hb, htr, true_and,
      Option.some.injEq, exists_eq_left']
    rw [or_comm]
    simp [AttachedRegionInfo.covers]

/-- What all of them add. -/
theorem restoreStateAttachedRegions_covers {ts : List StoredAttachedRegionInfo}
    (h : loop (restoreStateAttachedRegion g inBootstrap) ts x = .ok x') (addr : Nat) :
    (∃ info ∈ x'.1.parentState.attachedRegions, info.covers addr = true) ↔
      (∃ info ∈ x.1.parentState.attachedRegions, info.covers addr = true) ∨
        ∃ t ∈ ts, AttachedOver g x.2 t addr := by
  induction ts generalizing x with
  | nil =>
      cases h
      simp
  | cons t ts ih =>
      obtain ⟨x₁, hstep, hrest⟩ := loop_cons_eq_ok.mp h
      rw [ih hrest, restoreStateAttachedRegion_covers hstep]
      have htable := (restoreStateAttachedRegion_restored hstep).table
      simp only [AttachedOver.congr htable, List.mem_cons, exists_eq_or_imp, or_assoc]

/-- The call gets to its end exactly if the region map can be given back
what is stored. -/
theorem restoreStateAttachedRegions_ok_iff {stored : List StoredAttachedRegionInfo} :
    (∃ x', loop (restoreStateAttachedRegion g inBootstrap) stored x = .ok x') ↔
      OriginsKnown g stored x.1.parentState.attachedRegions x.2 := by
  constructor
  · intro ⟨x', h⟩
    constructor
    · intro t ht hb
      obtain ⟨before, after, x₁, x₂, -, hbefore, hstep, -⟩ := loop_turn h ht
      obtain ⟨dsCap, htr⟩ := (restoreStateAttachedRegion_ok_iff.mp ⟨x₂, hstep⟩).1 hb
      exact ⟨dsCap, by
        rw [← htr, Restorer.translate_congr (restoreStateAttachedRegions_restored hbefore).table]⟩
    · intro before t after hsplit hb
      subst hsplit
      obtain ⟨x₁, hbefore, hrest⟩ := loop_append.mp h
      obtain ⟨x₂, hstep, -⟩ := loop_cons_eq_ok.mp hrest
      have hfound := (restoreStateAttachedRegion_ok_iff.mp ⟨x₂, hstep⟩).2 hb
      exact (restoreStateAttachedRegions_covers hbefore _).mp hfound
  · intro h
    cases hloop : loop (restoreStateAttachedRegion g inBootstrap) stored x with
    | ok x' => exact ⟨x', rfl⟩
    | error e =>
        -- the turn that fails has what it needs
        obtain ⟨before, t, after, x₁, hsplit, hbefore, ht⟩ := loop_eq_error.mp hloop
        have hok : ∃ x', restoreStateAttachedRegion g inBootstrap t x₁ = .ok x' := by
          apply restoreStateAttachedRegion_ok_iff.mpr
          constructor
          · intro hb
            rw [Restorer.translate_congr (restoreStateAttachedRegions_restored hbefore).table]
            exact h.known t (by simp [hsplit]) hb
          · intro hb
            exact (restoreStateAttachedRegions_covers hbefore _).mpr
              (h.identified before t after hsplit hb)
        obtain ⟨x', hx'⟩ := hok
        rw [ht] at hx'
        cases hx'

theorem scheduleRegion_core (t : StoredAttachedRegionInfo) (info : AttachedRegionInfo)
    (r : Restorer) : (r.scheduleRegion t info).core = r.core := by
  unfold Restorer.scheduleRegion
  split
  · rfl
  · split
    · rfl
    · rfl

/-- No dataspace is allocated. -/
theorem restoreStateAttachedRegions_core {ts : List StoredAttachedRegionInfo}
    (h : loop (restoreStateAttachedRegion g inBootstrap) ts x = .ok x') :
    x'.2.core = x.2.core := by
  refine loop_keeps (I := fun y : RegionMapComponent × Restorer => y.2.core = x.2.core) ?_ h rfl
  intro u _ y y' hy hstep
  obtain ⟨info, -, hr, -⟩ := restoreStateAttachedRegion_cases hstep
  rw [hr, scheduleRegion_core, hy]

end Regions

namespace OriginSample

/-- Two regions of one dataspace, which no session has made. -/
def regions : List StoredAttachedRegionInfo :=
  [{ addr := .block 1, kcap := 0x5000, badge := 77, bootstrapped := false, attachedDsBadge := 77
     memoryContent := ⟨110⟩, size := 0x1000, offset := 0, relAddr := 0x20000, executable := false },
   { addr := .block 2, kcap := 0x5000, badge := 77, bootstrapped := false, attachedDsBadge := 77
     memoryContent := ⟨110⟩, size := 0x1000, offset := 0, relAddr := 0x40000, executable := false }]

end OriginSample

end Rtcr
