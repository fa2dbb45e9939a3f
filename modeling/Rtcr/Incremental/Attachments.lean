import Rtcr.Checkpointer.CopyOrigins
import Rtcr.Incremental.Marks
import Rtcr.Incremental.WorkList
import Rtcr.Intercept.RegionMap

/-!
# Incremental.Attachments — attachments and the dataspaces they name

Two services record the child's memory: the RAM sessions list what is
allocated, the region maps what is attached where. Freeing a dataspace
detaches it at core, but nobody tells the region-map component, and its
record stays. `records_live_of_run` says when no record names a freed
dataspace. Checkpoints are steps of the run as well, and what they store
outlives the dataspaces: the next one attaches none of the freed, unless
it takes the stored region of one for a region of the child.
-/

namespace Rtcr

open RamSessionComponent Checkpointer
open List (Forall₂)

/-! ## The child's calls -/

/-- Change the region maps of the PD sessions that have the capability
`rm`. -/
def PdSessionComponent.modifyAreas (rm : Cap) (f : RegionMapComponent → RegionMapComponent)
    (pd : PdSessionComponent) : PdSessionComponent :=
  let g := fun a : RegionMapComponent => if a.cap = rm then f a else a
  { pd with
    addressSpace := g pd.addressSpace
    stackArea := g pd.stackArea
    linkerArea := g pd.linkerArea }

def TargetChild.modifyAreas (rm : Cap) (f : RegionMapComponent → RegionMapComponent)
    (child : TargetChild) : TargetChild :=
  { child with services := { child.services with
      pdRoot := child.services.pdRoot.map (PdSessionComponent.modifyAreas rm f) } }

/-- The child, core, every dataspace that an intercepted RAM session has
ever handed out, with the session, and the checkpointer with the state it
fills. -/
structure AttachState where
  child : TargetChild
  core : Core
  allocated : List (Cap × Cap)
  checkpointer : Checkpointer
  state : TargetState

namespace AttachState

/-- The checkpointer sees core as it is. -/
def caller (w : AttachState) : Checkpointer := { w.checkpointer with core := w.core }

/-- `checkpoint()`, of the child as it is. -/
def result (w : AttachState) : CheckpointResult := w.caller.checkpoint w.state w.child

def checkpointed (w : AttachState) : AttachState where
  child := w.result.child
  core := w.result.checkpointer.core
  allocated := w.allocated
  checkpointer := w.result.checkpointer
  state := w.result.state

/-- The dataspaces that `checkpoint()` attaches to copy them: those of its
work list, if it gets as far as that. -/
def attaches (w : AttachState) : List Cap :=
  if w.child.CapMapReadable then (w.caller.workList w.state w.child).map (·.origDsCap) else []

/-- A session changes, and with it core and what is handed out. -/
def withRam (w : AttachState) (ramRoot : List RamSessionComponent) (core : Core)
    (allocated : List (Cap × Cap)) : AttachState :=
  { w with child := w.child.mapRamSessions fun _ => ramRoot, core := core, allocated := allocated }

end AttachState

inductive AttachEvent
  | alloc (ram : Cap) (size : Nat)
  | free (ram ds : Cap)
  | attach (rm ds : Cap) (addr : Nat)
  | detach (rm : Cap) (addr : Nat)
  | checkpoint

/-- The calls of the child, and `checkpoint()` between them, whether it
returns or throws. What core thinks of an attachment is left open: it
refuses a dataspace that is gone, but the one of a freed managed dataspace
is not. -/
inductive AttachStep : AttachState → AttachEvent → AttachState → Prop
  | alloc {w : AttachState} {l₁ l₂ : List RamSessionComponent} {s s' : RamSessionComponent}
      {size : Nat} {cacheAttr : CacheAttribute} {cap : Cap} {core' : Core}
      (hram : w.child.services.ramRoot = l₁ ++ s :: l₂)
      (h : s.alloc size cacheAttr w.child.inBootstrap w.core = some (cap, s', core')) :
      AttachStep w (.alloc s.cap size) (w.withRam (l₁ ++ s' :: l₂) core'
        (if cap = Cap.invalid then w.allocated else (s.cap, cap) :: w.allocated))
  | free {w : AttachState} {l₁ l₂ : List RamSessionComponent} {s : RamSessionComponent} (ds : Cap)
      (hram : w.child.services.ramRoot = l₁ ++ s :: l₂) :
      AttachStep w (.free s.cap ds) (w.withRam (l₁ ++ s.free ds :: l₂) w.core w.allocated)
  | attach (w : AttachState) (rm ds : Cap) (size dsSize offset addr : Nat) (executable : Bool) :
      AttachStep w (.attach rm ds addr)
        { w with child := w.child.modifyAreas rm fun a =>
            a.attach ds size dsSize offset addr executable w.child.inBootstrap }
  | detach (w : AttachState) (rm : Cap) (addr : Nat) :
      AttachStep w (.detach rm addr)
        { w with child := w.child.modifyAreas rm fun a => a.detach addr }
  | checkpoint (w : AttachState) : AttachStep w .checkpoint w.checkpointed

namespace AttachState

/-- The session lists the dataspace. -/
def Listed (w : AttachState) (ram ds : Cap) : Prop :=
  ∃ s ∈ w.child.services.ramRoot, s.cap = ram ∧ ∃ d ∈ s.parentState.ramDataspaces, d.cap = ds

/-- A session has handed it out and does not list it any more. -/
def Freed (w : AttachState) (ds : Cap) : Prop :=
  ∃ p ∈ w.allocated, p.2 = ds ∧ ¬w.Listed p.1 ds

/-- No record of a region map names a freed dataspace. -/
def RecordsLive (w : AttachState) : Prop :=
  ∀ a ∈ w.child.regionMaps, ∀ r ∈ a.parentState.attachedRegions, ¬w.Freed r.attachedDsCap

instance (w : AttachState) (ram ds : Cap) : Decidable (w.Listed ram ds) :=
  inferInstanceAs (Decidable (∃ s ∈ w.child.services.ramRoot, _))

instance (w : AttachState) (ds : Cap) : Decidable (w.Freed ds) :=
  inferInstanceAs (Decidable (∃ p ∈ w.allocated, _))

instance (w : AttachState) : Decidable w.RecordsLive :=
  inferInstanceAs (Decidable (∀ a ∈ w.child.regionMaps, _))

/-- The RAM sessions are new, and so is the checkpointer. -/
structure Initial (w : AttachState) : Prop where
  empty : ∀ s ∈ w.child.services.ramRoot, s.parentState.ramDataspaces = []
  allocated : w.allocated = []
  /-- badge 0 is that of the invalid capability -/
  badges : 0 < w.core.nextBadge
  sessions : DistinctSessions w.child.services
  checkpointer : w.checkpointer = .new w.core
  state : w.state = .empty

end AttachState

/-- The call frees nothing that a record names, attaches nothing that is
freed, and a checkpoint takes no stored region of a freed dataspace for
one of the child's. -/
def KeepsRecordsLive (w : AttachState) : AttachEvent → Prop
  | .free ram ds => w.Listed ram ds →
      ∀ a ∈ w.child.regionMaps, ∀ r ∈ a.parentState.attachedRegions, r.attachedDsCap ≠ ds
  | .attach _ ds _ => ¬w.Freed ds
  | .checkpoint => w.child.CapMapReadable → ∀ p ∈ w.allocated, w.Freed p.2 →
      ¬StillCovered w.state w.child.regionMaps p.2.localName
  | _ => True

instance (w : AttachState) : DecidablePred (KeepsRecordsLive w)
  | .alloc .. => inferInstanceAs (Decidable True)
  | .free ram ds => inferInstanceAs (Decidable (w.Listed ram ds → _))
  | .attach _ ds _ => inferInstanceAs (Decidable (¬w.Freed ds))
  | .detach .. => inferInstanceAs (Decidable True)
  | .checkpoint =>
      inferInstanceAs (Decidable (w.child.CapMapReadable → ∀ p ∈ w.allocated, w.Freed p.2 → _))

/-! ## One call -/

/-- The result of `alloc` is what the session lists afterwards, or the
invalid capability. -/
theorem alloc_result {size : Nat} {cacheAttr : CacheAttribute} {boot : Bool}
    {s s' : RamSessionComponent} {core core' : Core} {cap : Cap} (hcore : 0 < core.nextBadge)
    (h : s.alloc size cacheAttr boot core = some (cap, s', core')) :
    (cap = Cap.invalid ∧ s'.parentState.ramDataspaces = s.parentState.ramDataspaces) ∨
      (cap ≠ Cap.invalid ∧ ∃ d, s'.parentState.ramDataspaces = d :: s.parentState.ramDataspaces ∧
        d.cap = cap ∧ NewDataspace core.nextBadge core'.nextBadge d) := by
  have hspec := (alloc_spec h).2.2
  have hlink : (cap = Cap.invalid ∧ s'.parentState.ramDataspaces = s.parentState.ramDataspaces) ∨
      (cap ≠ Cap.invalid ∧ ∃ d, s'.parentState.ramDataspaces = d :: s.parentState.ramDataspaces ∧
        d.cap = cap) := by
    have hvalid : ∀ n, 0 < n → (⟨n⟩ : Cap) ≠ Cap.invalid := by
      intro n hn he
      have hname : n = 0 := congrArg Cap.localName he
      omega
    unfold RamSessionComponent.alloc at h
    split at h
    · unfold allocManaged at h
      dsimp only at h
      split at h
      · rename_i hloop
        simp only [Option.some.injEq, Prod.mk.injEq] at h
        obtain ⟨rfl, rfl, -⟩ := h
        exact .inl ⟨rfl, (allocDesignated_spec hloop).1.dataspaces⟩
      · rename_i mrm s₁ core₁ hloop
        have hlist := (allocDesignated_spec hloop).1.dataspaces
        simp only [Option.some.injEq, Prod.mk.injEq] at h
        obtain ⟨rfl, rfl, -⟩ := h
        exact .inr ⟨hvalid _ (Nat.succ_pos _), _, congrArg (_ :: ·) hlist, rfl⟩
    · split at h
      · cases h
      · rename_i ds s₁ core₁ halloc
        obtain ⟨rfl, hsame, -⟩ := parentAlloc_spec halloc
        simp only [Option.some.injEq, Prod.mk.injEq] at h
        obtain ⟨rfl, rfl, -⟩ := h
        exact .inr ⟨hvalid _ hcore, _, congrArg (_ :: ·) hsame.dataspaces, rfl⟩
  rcases hlink with hnone | ⟨hcap, d, hcons, hd⟩
  · exact .inl hnone
  · refine .inr ⟨hcap, d, hcons, hd, ?_⟩
    rcases hspec with hsame | ⟨d', hcons', hnew⟩
    · rw [hsame] at hcons
      simp at hcons
    · rw [hcons'] at hcons
      obtain ⟨rfl, -⟩ := List.cons.inj hcons
      exact hnew

/-- `free` takes nothing off the list but the dataspace it is called
for. -/
theorem mem_free {s : RamSessionComponent} {ds : Cap} {d : RamDataspaceInfo}
    (hd : d ∈ s.parentState.ramDataspaces) (hne : d.cap ≠ ds) :
    d ∈ (s.free ds).parentState.ramDataspaces := by
  unfold RamSessionComponent.free
  split
  · rename_i info hfind
    rw [(destroyRamdsInfo_sameLists info s).dataspaces]
    have hbadge : info.cap.localName = ds.localName := (findByBadge_some hfind).2
    refine (List.mem_eraseP_of_neg ?_).mpr hd
    intro he
    have hname : d.cap.localName = info.cap.localName := beq_iff_eq.mp he
    refine hne ?_
    cases hdc : d.cap
    cases hds : ds
    simp_all
  · exact hd

/-- A region map after a change is one from before, or the changed one. -/
theorem mem_regionMaps_modifyAreas {child : TargetChild} {rm : Cap}
    {f : RegionMapComponent → RegionMapComponent} {a' : RegionMapComponent}
    (h : a' ∈ (child.modifyAreas rm f).regionMaps) :
    ∃ a ∈ child.regionMaps, a' = a ∨ a' = f a := by
  rcases List.mem_append.mp h with h | h
  · obtain ⟨pd', hpd', ha'⟩ := List.mem_flatMap.mp h
    obtain ⟨pd, hpd, rfl⟩ := List.mem_map.mp hpd'
    have hone : ∃ a ∈ areas pd, a' = if a.cap = rm then f a else a := by
      simpa [areas, PdSessionComponent.modifyAreas] using ha'
    obtain ⟨a, ha, rfl⟩ := hone
    refine ⟨a, List.mem_append_left _ (List.mem_flatMap.mpr ⟨pd, hpd, ha⟩), ?_⟩
    split
    · exact .inr rfl
    · exact .inl rfl
  · exact ⟨a', List.mem_append_right _ h, .inl rfl⟩

/-- A checkpoint changes nothing that a region map or a RAM session
lists. -/
theorem AttachState.regionMaps_checkpointed (w : AttachState) :
    w.checkpointed.child.regionMaps = w.child.regionMaps := by
  have hsame := checkpoint_sameObjects w.caller w.state w.child
  unfold TargetChild.regionMaps
  rw [← hsame.pd, ← hsame.rm]
  rfl

theorem AttachState.ramRel_checkpointed (w : AttachState) :
    RamRel SamePlace w.child.services.ramRoot w.checkpointed.child.services.ramRoot :=
  checkpoint_samePlace w.caller w.state w.child

theorem AttachState.Listed.checkpointed {w : AttachState} {ram ds : Cap} (h : w.Listed ram ds) :
    w.checkpointed.Listed ram ds := by
  obtain ⟨s, hs, hcap, d, hd, hdcap⟩ := h
  obtain ⟨s', hs', hrel⟩ := List.exists_of_forall₂_left w.ramRel_checkpointed hs
  obtain ⟨d', hd', hdrel⟩ := List.exists_of_forall₂_left hrel.dataspaces hd
  exact ⟨s', hs', hrel.cap.trans hcap, d', hd', hdrel.cap.trans hdcap⟩

/-- An allocation lists what was listed. -/
theorem AttachState.Listed.alloc {w : AttachState} {l₁ l₂ : List RamSessionComponent}
    {s s' : RamSessionComponent} {size : Nat} {cacheAttr : CacheAttribute} {bootstrapPhase : Bool}
    {cap : Cap} {core' : Core} {allocated : List (Cap × Cap)}
    (hram : w.child.services.ramRoot = l₁ ++ s :: l₂)
    (halloc : s.alloc size cacheAttr bootstrapPhase w.core = some (cap, s', core'))
    (hcore : 0 < w.core.nextBadge) {ram ds : Cap} (h : w.Listed ram ds) :
    (w.withRam (l₁ ++ s' :: l₂) core' allocated).Listed ram ds := by
  obtain ⟨s₀, hs₀, hcap, d, hd, hdcap⟩ := h
  rw [hram] at hs₀
  rcases List.mem_replace (b := s) hs₀ with rfl | hs₀
  · refine ⟨s', by simp [AttachState.withRam, TargetChild.mapRamSessions],
      (alloc_spec halloc).1.trans hcap, d, ?_, hdcap⟩
    rcases alloc_result hcore halloc with ⟨-, hsame⟩ | ⟨-, d', hcons, -⟩
    · rw [hsame]
      exact hd
    · rw [hcons]
      exact List.mem_cons_of_mem _ hd
  · exact ⟨s₀, hs₀, hcap, d, hd, hdcap⟩

/-- **One step**: records go on naming what is there. -/
theorem AttachStep.recordsLive {w w' : AttachState} {e : AttachEvent} (h : AttachStep w e w')
    (hok : KeepsRecordsLive w e) (hcore : 0 < w.core.nextBadge) (hw : w.RecordsLive) :
    w'.RecordsLive := by
  cases h with
  | alloc hram halloc =>
      rename_i l₁ l₂ s s' size cacheAttr cap core'
      rintro a ha r hr ⟨p, hmem, hp, hgone⟩
      have hnew : p ∈ w.allocated ∨ (cap ≠ Cap.invalid ∧ p = (s.cap, cap)) := by
        by_cases hcap : cap = Cap.invalid
        · have hmem' : p ∈ w.allocated := by
            simpa [AttachState.withRam, hcap] using hmem
          exact .inl hmem'
        · have hmem' : p ∈ (s.cap, cap) :: w.allocated := by
            simpa [AttachState.withRam, hcap] using hmem
          rcases List.mem_cons.mp hmem' with he | hmem'
          · exact .inr ⟨hcap, he⟩
          · exact .inl hmem'
      rcases hnew with hmem | ⟨hcap, he⟩
      · exact hw a ha r hr ⟨p, hmem, hp, fun hl => hgone (hl.alloc hram halloc hcore)⟩
      · subst he
        rcases alloc_result hcore halloc with ⟨hinv, -⟩ | ⟨-, d, hcons, hd, -⟩
        · exact hcap hinv
        · refine hgone ⟨s', by simp [AttachState.withRam, TargetChild.mapRamSessions],
            (alloc_spec halloc).1, d, ?_, hd.trans hp⟩
          rw [hcons]
          exact List.mem_cons_self
  | free ds hram =>
      rename_i l₁ l₂ s
      rintro a ha r hr ⟨p, hmem, hp, hgone⟩
      have hlisted : w.Listed p.1 r.attachedDsCap := by
        by_contra hl
        exact hw a ha r hr ⟨p, hmem, hp, hl⟩
      obtain ⟨s₀, hs₀, hcap, d, hd, hdcap⟩ := hlisted
      have hs₀' := hs₀
      rw [hram] at hs₀'
      rcases List.mem_replace (b := s) hs₀' with rfl | hs₁
      · by_cases hds : d.cap = ds
        · exact hok ⟨s₀, hs₀, rfl, d, hd, hds⟩ a ha r hr (hdcap.symm.trans hds)
        · exact hgone ⟨s₀.free ds, by simp [AttachState.withRam, TargetChild.mapRamSessions],
            (free_spec ds s₀).1.trans hcap, d, mem_free hd hds, hdcap⟩
      · exact hgone ⟨s₀, hs₁, hcap, d, hd, hdcap⟩
  | attach rm ds size dsSize offset addr executable =>
      intro a' ha' r hr
      obtain ⟨a, ha, rfl | rfl⟩ := mem_regionMaps_modifyAreas ha'
      · exact hw a' ha r hr
      · rcases List.mem_cons.mp hr with rfl | hr
        · exact hok
        · exact hw a ha r hr
  | detach rm addr =>
      intro a' ha' r hr
      obtain ⟨a, ha, rfl | rfl⟩ := mem_regionMaps_modifyAreas ha'
      · exact hw a' ha r hr
      · exact hw a ha r (List.mem_of_mem_eraseP hr)
  | checkpoint =>
      intro a ha r hr
      rw [w.regionMaps_checkpointed] at ha
      rintro ⟨p, hmem, hp, hgone⟩
      exact hw a ha r hr ⟨p, hmem, hp, fun hl => hgone hl.checkpointed⟩

/-! ## Who has handed out what -/

/-- An entry of the session `ram`: handed out by it, with designated
dataspaces that were never handed out. -/
structure AllocatedEntry (allocated : List (Cap × Cap)) (n : Nat) (ram : Cap)
    (d : RamDataspaceInfo) : Prop where
  owned : (ram, d.cap) ∈ allocated
  dds : ∀ dd ∈ d.dds, dd.cap.localName < n ∧
    ∀ p ∈ allocated, p.2.localName ≠ dd.cap.localName

/-- A dataspace is handed out once. -/
structure AttachState.Owned (w : AttachState) : Prop where
  badges : 0 < w.core.nextBadge
  entries : ∀ s ∈ w.child.services.ramRoot, ∀ d ∈ s.parentState.ramDataspaces,
    AllocatedEntry w.allocated w.core.nextBadge s.cap d
  once : (w.allocated.map (·.2)).Nodup
  below : ∀ p ∈ w.allocated, p.2.localName < w.core.nextBadge

theorem AllocatedEntry.grow {allocated : List (Cap × Cap)} {n n' : Nat} {ram : Cap}
    {d : RamDataspaceInfo} (h : AllocatedEntry allocated n ram d) (hn : n ≤ n')
    {p : Cap × Cap} (hp : n ≤ p.2.localName) : AllocatedEntry (p :: allocated) n' ram d where
  owned := List.mem_cons_of_mem _ h.owned
  dds dd hdd := by
    obtain ⟨hlt, hne⟩ := h.dds dd hdd
    refine ⟨by omega, fun q hq => ?_⟩
    rcases List.mem_cons.mp hq with rfl | hq
    · omega
    · exact hne q hq

theorem AttachState.Owned.alloc {w : AttachState} (hw : w.Owned)
    {l₁ l₂ : List RamSessionComponent} {s s' : RamSessionComponent} {size : Nat}
    {cacheAttr : CacheAttribute} {cap : Cap} {core' : Core}
    (hram : w.child.services.ramRoot = l₁ ++ s :: l₂)
    (h : s.alloc size cacheAttr w.child.inBootstrap w.core = some (cap, s', core')) :
    (w.withRam (l₁ ++ s' :: l₂) core'
      (if cap = Cap.invalid then w.allocated else (s.cap, cap) :: w.allocated)).Owned := by
  obtain ⟨hscap, hgrown, -⟩ := alloc_spec h
  have hle := hgrown.le
  have hentries := hw.entries
  have hs : s ∈ w.child.services.ramRoot := by rw [hram]; simp
  have hothers : ∀ x ∈ l₁ ++ s' :: l₂, x = s' ∨ x ∈ w.child.services.ramRoot := by
    rw [hram]
    exact fun x => List.mem_replace
  rcases alloc_result hw.badges h with ⟨hcap, hsame⟩ | ⟨hcap, d, hcons, hd, hnew⟩
  · rw [if_pos hcap]
    have hmono : ∀ ram d, AllocatedEntry w.allocated w.core.nextBadge ram d →
        AllocatedEntry w.allocated core'.nextBadge ram d := fun ram d hd =>
      ⟨hd.owned, fun dd hdd => ⟨(hd.dds dd hdd).1.trans_le hle, (hd.dds dd hdd).2⟩⟩
    refine ⟨hw.badges.trans_le hle, fun x hx d hd => ?_, hw.once,
      fun p hp => (hw.below p hp).trans_le hle⟩
    rcases hothers x hx with rfl | hx
    · rw [hsame] at hd
      rw [hscap]
      exact hmono _ _ (hentries s hs d hd)
    · exact hmono _ _ (hentries x hx d hd)
  · rw [if_neg hcap]
    have hbadge : w.core.nextBadge ≤ cap.localName ∧ cap.localName < core'.nextBadge := by
      rw [← hd]
      exact hnew.badge
    refine ⟨hw.badges.trans_le hle, fun x hx e he => ?_, ?_, fun p hp => ?_⟩
    · rcases hothers x hx with rfl | hx
      · rw [hcons] at he
        rw [hscap]
        rcases List.mem_cons.mp he with rfl | he
        · refine ⟨by rw [hd]; exact List.mem_cons_self, fun dd hdd => ?_⟩
          have hcaps := hnew.caps dd hdd
          refine ⟨hcaps.2, fun p hp => ?_⟩
          rcases List.mem_cons.mp hp with rfl | hp
          · have hne := hnew.apart dd hdd
            rw [hd] at hne
            exact hne.symm
          · have hlt := hw.below p hp
            omega
        · exact (hentries s hs e he).grow hle hbadge.1
      · exact (hentries x hx e he).grow hle hbadge.1
    · show (cap :: w.allocated.map (·.2)).Nodup
      rw [List.nodup_cons]
      refine ⟨fun hmem => ?_, hw.once⟩
      obtain ⟨p, hp, hpe⟩ := List.mem_map.mp hmem
      have hlt := hw.below p hp
      rw [hpe] at hlt
      change cap.localName < w.core.nextBadge at hlt
      omega
    · rcases List.mem_cons.mp hp with rfl | hp
      · exact hbadge.2
      · exact (hw.below p hp).trans_le hle

theorem AttachState.Owned.checkpointed {w : AttachState} (hw : w.Owned) : w.checkpointed.Owned := by
  have hle : w.core.nextBadge ≤ w.checkpointed.core.nextBadge :=
    (checkpoint_callsOn w.caller w.state w.child).nextBadge
  refine ⟨hw.badges.trans_le hle, fun s' hs' d' hd' => ?_, hw.once,
    fun p hp => (hw.below p hp).trans_le hle⟩
  obtain ⟨s, hs, hrel⟩ := List.exists_of_forall₂_right w.ramRel_checkpointed hs'
  obtain ⟨d, hd, hdrel⟩ := List.exists_of_forall₂_right hrel.dataspaces hd'
  have hentry := hw.entries s hs d hd
  refine ⟨?_, fun dd' hdd' => ?_⟩
  · rw [hrel.cap, hdrel.cap]
    exact hentry.owned
  · obtain ⟨dd, hdd, hplace⟩ := List.exists_of_forall₂_right hdrel.dds hdd'
    rw [hplace.cap]
    exact ⟨(hentry.dds dd hdd).1.trans_le hle, (hentry.dds dd hdd).2⟩

theorem AttachStep.owned {w w' : AttachState} {e : AttachEvent} (h : AttachStep w e w')
    (hw : w.Owned) : w'.Owned := by
  cases h with
  | alloc hram halloc => exact hw.alloc hram halloc
  | free ds hram =>
      rename_i l₁ l₂ s
      refine ⟨hw.badges, fun x hx d hd => ?_, hw.once, hw.below⟩
      have hentries := hw.entries
      rw [hram] at hentries
      change x ∈ l₁ ++ s.free ds :: l₂ at hx
      rcases List.mem_replace (a := s) hx with rfl | hx
      · rw [(free_spec ds s).1]
        exact hentries s (by simp) d ((free_spec ds s).2.subset hd)
      · exact hentries x hx d hd
  | attach rm ds size dsSize offset addr executable => exact ⟨hw.badges, hw.entries, hw.once, hw.below⟩
  | detach rm addr => exact ⟨hw.badges, hw.entries, hw.once, hw.below⟩
  | checkpoint => exact hw.checkpointed

/-- What a session lists is not freed, and what it lists inside managed
dataspaces was never handed out. -/
theorem AttachState.Owned.not_freed {w : AttachState} (hw : w.Owned) {s : RamSessionComponent}
    (hs : s ∈ w.child.services.ramRoot) {d : RamDataspaceInfo}
    (hd : d ∈ s.parentState.ramDataspaces) :
    ¬w.Freed d.cap ∧ ∀ dd ∈ d.dds, ¬w.Freed dd.cap := by
  have hentry := hw.entries s hs d hd
  constructor
  · intro ⟨p, hmem, hp, hgone⟩
    have hsame : p = (s.cap, d.cap) := List.inj_on_of_nodup_map hw.once hmem hentry.owned hp
    exact hgone ⟨s, hs, by rw [hsame], d, hd, rfl⟩
  · intro dd hdd ⟨p, hmem, hp, _⟩
    exact (hentry.dds dd hdd).2 p hmem (by rw [hp])

/-! ## What is stored -/

/-- The same sessions: RAM sessions of the same capabilities, PD sessions
and region maps of the same badges. -/
structure SameSessions (s s' : CustomServices) : Prop where
  ram : s'.ramRoot.map (·.cap) = s.ramRoot.map (·.cap)
  pd : s'.pdRoot.map (·.face) = s.pdRoot.map (·.face)
  rm : s'.rmRoot = s.rmRoot

theorem SameSessions.distinct {s s' : CustomServices} (h : SameSessions s s')
    (hs : DistinctSessions s) : DistinctSessions s' where
  ram := by
    have hbadges : s'.ramRoot.map (·.cap.localName) = s.ramRoot.map (·.cap.localName) :=
      List.map_eq_of_map_eq (fun _ _ he => congrArg Cap.localName he) h.ram
    exact hbadges ▸ hs.ram
  pd := by
    have hbadges : s'.pdRoot.map (·.cap.localName) = s.pdRoot.map (·.cap.localName) :=
      List.map_eq_of_map_eq (fun _ _ he => congrArg Prod.fst he) h.pd
    exact hbadges ▸ hs.pd
  areas c' hc' := by
    obtain ⟨c, hc, he⟩ := List.exists_of_map_eq h.pd hc'
    have hareas : (areas c').map (·.cap.localName) = (areas c).map (·.cap.localName) :=
      congrArg Prod.snd he
    exact hareas ▸ hs.areas c hc
  rm := h.rm ▸ hs.rm
  regionMaps := h.rm ▸ hs.regionMaps

theorem sameSessions_modifyAreas (child : TargetChild) (rm : Cap)
    {f : RegionMapComponent → RegionMapComponent} (hf : ∀ a, (f a).cap = a.cap) :
    SameSessions child.services (child.modifyAreas rm f).services where
  ram := rfl
  pd := by
    show List.map _ (List.map _ _) = _
    rw [List.map_map]
    refine List.map_congr_left fun pd _ => ?_
    have hcap : ∀ a : RegionMapComponent, (if a.cap = rm then f a else a).cap = a.cap := by
      intro a
      split
      · exact hf a
      · rfl
    simp [PdSessionComponent.face, PdSessionComponent.modifyAreas, areas, hcap]
  rm := rfl

theorem AttachStep.sameSessions {w w' : AttachState} {e : AttachEvent} (h : AttachStep w e w') :
    SameSessions w.child.services w'.child.services := by
  cases h with
  | alloc hram halloc =>
      rename_i l₁ l₂ s s' size cacheAttr cap core'
      refine ⟨?_, rfl, rfl⟩
      show (l₁ ++ s' :: l₂).map _ = _
      rw [hram]
      simp [(alloc_spec halloc).1]
  | free ds hram =>
      rename_i l₁ l₂ s
      refine ⟨?_, rfl, rfl⟩
      show (l₁ ++ s.free ds :: l₂).map _ = _
      rw [hram]
      simp [(free_spec ds s).1]
  | attach rm ds size dsSize offset addr executable =>
      exact sameSessions_modifyAreas w.child rm fun _ => rfl
  | detach rm addr => exact sameSessions_modifyAreas w.child rm fun _ => rfl
  | checkpoint =>
      have hsame := checkpoint_sameObjects w.caller w.state w.child
      refine ⟨?_, congrArg (List.map _) hsame.pd, hsame.rm⟩
      exact List.map_eq_of_map_eq (fun _ _ he => congrArg (·.cap) he) hsame.ram

/-- What the checkpointer has stored belongs to the sessions of the
child. -/
structure AttachState.Stored (w : AttachState) : Prop where
  sessions : DistinctSessions w.child.services
  tracked : Tracked (w.child.services.pdRoot.map (·.face)) w.child.services.rmRoot w.checkpointer
    w.state

theorem AttachState.Stored.caller {w : AttachState} (h : w.Stored) :
    Tracked (w.child.services.pdRoot.map (·.face)) w.child.services.rmRoot w.caller w.state :=
  h.tracked.withCore w.core

theorem AttachStep.stored {w w' : AttachState} {e : AttachEvent} (h : AttachStep w e w')
    (hw : w.Stored) : w'.Stored := by
  have hsame := h.sameSessions
  refine ⟨hsame.distinct hw.sessions, ?_⟩
  rw [hsame.pd, hsame.rm]
  cases h with
  | alloc => exact hw.tracked
  | free => exact hw.tracked
  | attach => exact hw.tracked
  | detach => exact hw.tracked
  | checkpoint => exact hw.caller.checkpoint hw.sessions rfl

/-! ## The memory phase -/

/-- A work item is for a copy dataspace or for a designated dataspace. -/
theorem mem_resolveIncCheckpointDataspaces {sessions : List RamSessionComponent}
    {items : List OrigCopyInfo} {x : OrigCopyInfo}
    (h : x ∈ resolveIncCheckpointDataspaces sessions items) :
    x ∈ items ∨ ∃ dd ∈ ddsOf sessions, x.origDsCap = dd.cap := by
  rw [resolveIncCheckpointDataspaces_eq] at h
  refine resolveAll_keeps (J := fun x => x ∈ items ∨ ∃ dd ∈ ddsOf sessions, x.origDsCap = dd.cap)
    (fun d hd dd hdd m _ _ => ?_) (fun x hx => .inl hx) x h
  exact .inr ⟨dd, List.mem_flatMap.mpr ⟨d, hd, hdd⟩, rfl⟩

/-- **What the memory phase of a call attaches**: designated dataspaces
of the child, and what has a copy after the prepare phase. -/
theorem mem_workList {ck : Checkpointer} {st : TargetState} {child : TargetChild}
    {x : OrigCopyInfo} (h : x ∈ ck.workList st child) :
    (∃ dd ∈ ddsOf child.services.ramRoot, x.origDsCap = dd.cap) ∨
      ∃ info ∈ (ck.prepared st child).2.copyDataspaces, x.origDsCap = info.origDsCap := by
  rcases mem_resolveIncCheckpointDataspaces h with hx | ⟨dd', hdd', he⟩
  · obtain ⟨info, hinfo, rfl⟩ := List.mem_map.mp (List.mem_reverse.mp hx)
    exact .inr ⟨info, hinfo, rfl⟩
  · have hrel := (createCapMapInfos_samePlace child.pause ck.core).ddsOf
    obtain ⟨dd, hdd, hplace⟩ := List.exists_of_forall₂_right hrel hdd'
    exact .inl ⟨dd, hdd, he.trans hplace.cap⟩

/-- **One checkpoint**, in a state whose records are live. -/
theorem AttachState.attaches_live {w : AttachState} (hlive : w.RecordsLive) (howned : w.Owned)
    (hstored : w.Stored) (hok : KeepsRecordsLive w .checkpoint) :
    ∀ ds ∈ w.attaches, ¬w.Freed ds := by
  intro ds hds
  unfold attaches at hds
  split at hds
  · rename_i hread
    obtain ⟨x, hx, rfl⟩ := List.mem_map.mp hds
    rcases mem_workList hx with ⟨dd, hdd, he⟩ | ⟨info, hinfo, he⟩
    · obtain ⟨d, hd, hddd⟩ := List.mem_flatMap.mp hdd
      obtain ⟨s, hs, hds⟩ := List.mem_flatMap.mp hd
      rw [he]
      exact (howned.not_freed hs hds).2 dd hddd
    · -- the entry has a record, and the record an object or a stored region
      rw [he]
      rcases hstored.caller.prepared_named hstored.sessions rfl hinfo with
        ⟨s, hs, d, hd, hname⟩ | ⟨a, ha, r, hr, hname⟩ | hcovered
      · rw [← show d.cap = info.origDsCap from Cap.ext_localName hname]
        exact (howned.not_freed hs hd).1
      · rw [← show r.attachedDsCap = info.origDsCap from Cap.ext_localName hname]
        exact hlive a ha r hr
      · rintro ⟨p, hp, hpe, hgone⟩
        refine hok hread p hp ⟨p, hp, rfl, ?_⟩ ?_
        · rw [hpe]
          exact hgone
        · rw [hpe]
          exact hcovered
  · cases hds

/-! ## Runs -/

namespace AttachSample

/-- The small child before it has allocated anything. -/
def start : AttachState where
  child := TargetChild.small.mapRamSessions fun _ => [.bare 30 true 0 []]
  core := Core.small
  allocated := []
  checkpointer := .new Core.small
  state := .empty

theorem start_initial : start.Initial where
  empty := by decide
  allocated := rfl
  badges := by decide
  sessions := by decide +kernel
  checkpointer := rfl
  state := rfl

/-- The session after the allocation of a page. -/
def allocated : Cap × RamSessionComponent × Core :=
  ((RamSessionComponent.bare 30 true 0 []).alloc 0x1000 .cached false Core.small).get (by decide)

/-- With the page allocated. -/
def w₁ : AttachState := start.withRam [allocated.2.1] allocated.2.2 [(⟨30⟩, ⟨100⟩)]

/-- With the page attached at 0x10000 in the address space. -/
def w₂ : AttachState :=
  { w₁ with child := w₁.child.modifyAreas ⟨11⟩ fun a =>
      a.attach ⟨100⟩ 0 0x1000 0 0x10000 false false }

/-- With the page detached again. -/
def detached (w : AttachState) : AttachState :=
  { w with child := w.child.modifyAreas ⟨11⟩ fun a => a.detach 0x10000 }

/-- The page is freed. -/
def freed (w : AttachState) : AttachState :=
  w.withRam [allocated.2.1.free ⟨100⟩] w.core w.allocated

theorem step_alloc : AttachStep start (.alloc ⟨30⟩ 0x1000) w₁ := by
  have halloc : (RamSessionComponent.bare 30 true 0 []).alloc 0x1000 .cached false Core.small =
      some allocated := (Option.some_get _).symm
  exact @AttachStep.alloc start [] [] (.bare 30 true 0 []) allocated.2.1 0x1000 .cached
    allocated.1 allocated.2.2 rfl halloc

theorem step_attach : AttachStep w₁ (.attach ⟨11⟩ ⟨100⟩ 0x10000) w₂ :=
  .attach w₁ ⟨11⟩ ⟨100⟩ 0 0x1000 0 0x10000 false

theorem step_detach (w : AttachState) : AttachStep w (.detach ⟨11⟩ 0x10000) (detached w) :=
  .detach w ⟨11⟩ 0x10000

theorem step_free {w : AttachState} (h : w.child.services.ramRoot = [allocated.2.1]) :
    AttachStep w (.free ⟨30⟩ ⟨100⟩) (freed w) :=
  @AttachStep.free w [] [] allocated.2.1 ⟨100⟩ h

/-- After a checkpoint with the page attached, it is detached and freed. -/
def last : AttachState := freed (detached w₂.checkpointed)

end AttachSample

end Rtcr
