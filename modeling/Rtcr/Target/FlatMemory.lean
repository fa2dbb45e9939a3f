import Rtcr.Incremental.Sync
import Rtcr.Target.MemoryRequests

/-!
# Target.FlatMemory — managed dataspaces do not show

Whatever requests, accesses and checkpoints follow each other, every
load of the child gets what a flat memory gives (`flat_of_run`). What
carries it: a checkpoint writes to copies only, and copies are no pieces
of the child's dataspaces (`MemoryOk`).
-/

namespace Rtcr

open ByteStore Fresh Pieces Simulation
open List (Forall₂)

/-! ## Requests -/

theorem dataspacesOf_split (before after : List RamSessionComponent) (s : RamSessionComponent) :
    dataspacesOf (before ++ s :: after) =
      dataspacesOf before ++ s.parentState.ramDataspaces ++ dataspacesOf after := by
  simp [dataspacesOf]

section Change

variable {core core' : Core} {ram ram' : List RamSessionComponent} {request : ChildRequest}

theorem RamChange.laidOut (h : RamChange core core' ram request ram')
    (hle : core.nextBadge ≤ core'.nextBadge) (hl : LaidOut core.nextBadge (dataspacesOf ram)) :
    LaidOut core'.nextBadge (dataspacesOf ram') := by
  have hrel : ∀ {ram₁}, RamRel Evolved ram ram₁ → LaidOut core'.nextBadge (dataspacesOf ram₁) :=
    fun hram => (hl.related (fun _ _ he => he.toSamePlace) hram.dataspacesOf).mono hle
  cases h with
  | steady _ hram => exact hrel hram
  | opened _ hs =>
      unfold dataspacesOf
      rw [List.flatMap_cons, hs]
      exact hl.mono hle
  | allocFails _ _ _ hram => exact hrel hram
  | alloc before after _ hcap hds hnew =>
      rw [dataspacesOf_split] at hl ⊢
      rw [hds]
      refine (hl.cons hnew hle).perm ?_
      rw [List.append_assoc, List.append_assoc, List.cons_append]
      exact List.perm_middle.symm
  | freeNothing => exact hl.mono hle
  | free before after ds hcap hds =>
      rw [dataspacesOf_split] at hl ⊢
      rw [hds]
      exact (hl.sublist ((List.eraseP_sublist.append_left _).append_right _)).mono hle
  | close _ cap => exact (hl.sublist (List.eraseP_sublist.flatMap _)).mono hle
  | closeRefused => exact hl.mono hle

/-- Pieces are old or new. -/
theorem RamChange.pieces (h : RamChange core core' ram request ram') :
    ∀ d' ∈ dataspacesOf ram', (∃ d ∈ dataspacesOf ram, d'.pieces = d.pieces) ∨
      ∀ p ∈ d'.pieces, core.nextBadge ≤ p.name := by
  have hrel : ∀ {ram₁}, RamRel Evolved ram ram₁ → ∀ d' ∈ dataspacesOf ram₁,
      (∃ d ∈ dataspacesOf ram, d'.pieces = d.pieces) ∨ ∀ p ∈ d'.pieces, core.nextBadge ≤ p.name := by
    intro ram₁ hram d' hd'
    obtain ⟨d, hd, hdd⟩ :=
      List.exists_of_forall₂_right (hram.mono fun _ _ he => he.toSamePlace).dataspacesOf hd'
    exact .inl ⟨d, hd, hdd.pieces⟩
  have hsub : ∀ {ram₁}, (∀ d ∈ dataspacesOf ram₁, d ∈ dataspacesOf ram) → ∀ d' ∈ dataspacesOf ram₁,
      (∃ d ∈ dataspacesOf ram, d'.pieces = d.pieces) ∨ ∀ p ∈ d'.pieces, core.nextBadge ≤ p.name :=
    fun hmem d' hd' => .inl ⟨d', hmem d' hd', rfl⟩
  cases h with
  | steady _ hram => exact hrel hram
  | opened _ hs =>
      apply hsub
      intro d hd
      unfold dataspacesOf at hd
      rwa [List.flatMap_cons, hs] at hd
  | allocFails _ _ _ hram => exact hrel hram
  | @alloc s s' d size before after _ hcap hds hnew =>
      intro d' hd'
      rw [dataspacesOf_split, hds] at hd'
      simp only [List.mem_append, List.mem_cons] at hd'
      by_cases hdd : d' = d
      · subst hdd
        refine .inr fun p hp => ?_
        rcases mem_pieces.mp hp with ⟨-, rfl⟩ | ⟨dd, hin, rfl⟩
        · exact hnew.badge.1
        · exact (hnew.caps dd hin).1
      · refine .inl ⟨d', ?_, rfl⟩
        rw [dataspacesOf_split]
        simp only [List.mem_append]
        tauto
  | freeNothing => exact hsub fun _ => id
  | free before after ds hcap hds =>
      apply hsub
      intro d hd
      rw [dataspacesOf_split] at hd ⊢
      rw [hds] at hd
      exact ((List.eraseP_sublist.append_left _).append_right _).subset hd
  | close _ cap =>
      apply hsub
      intro d hd
      exact (List.eraseP_sublist.flatMap _).subset hd
  | closeRefused => exact hsub fun _ => id

end Change

/-! ## Flat memory, step by step -/

section Flat

variable {bytes bytes' : Store Nat UInt8} {core core' : Core} {ram ram' : List RamSessionComponent}
  {μ μ' : FlatMemory} {n : Nat}

/-- The segment of a dataspace. -/
theorem Flat.segment (h : Flat bytes ram μ) {d : RamDataspaceInfo} (hd : d ∈ dataspacesOf ram) :
    ∃ seg, μ d.cap.localName = some seg ∧ seg.size = d.size ∧ Shows bytes d.pieces seg.bytes := by
  obtain ⟨s, hs, hds⟩ := mem_dataspacesOf.mp hd
  obtain ⟨seg, hseg, -, hsize, hshows⟩ := h.live s hs d hds
  exact ⟨seg, hseg, hsize, hshows⟩

theorem Flat.exists_of_some (h : Flat bytes ram μ) {b : Nat} {seg : Segment} (hb : μ b = some seg) :
    ∃ d ∈ dataspacesOf ram, d.cap.localName = b := by
  obtain ⟨s, hs, -, d, hd, hdb⟩ := h.dead b seg hb
  exact ⟨d, mem_dataspacesOf.mpr ⟨s, hs, hd⟩, hdb⟩

/-- Pages come and go, bytes stay. -/
theorem Flat.congr (h : Flat bytes ram μ) (hram : RamRel SamePlace ram ram')
    (hbytes : ∀ d ∈ dataspacesOf ram, ∀ p ∈ d.pieces, bytes' p.name = bytes p.name) :
    Flat bytes' ram' μ where
  live s' hs' d' hd' := by
    obtain ⟨s, hs, hss⟩ := List.exists_of_forall₂_right hram hs'
    obtain ⟨d, hd, hdd⟩ := List.exists_of_forall₂_right hss.dataspaces hd'
    obtain ⟨seg, hseg, hsession, hsize, hshows⟩ := h.live s hs d hd
    rw [hdd.cap, hss.cap, hdd.size, hdd.pieces]
    exact ⟨seg, hseg, hsession, hsize, hshows.congr (hbytes d (mem_dataspacesOf.mpr ⟨s, hs, hd⟩))⟩
  dead b seg hb := by
    obtain ⟨s, hs, hsession, d, hd, hdb⟩ := h.dead b seg hb
    obtain ⟨s', hs', hss⟩ := List.exists_of_forall₂_left hram hs
    obtain ⟨d', hd', hdd⟩ := List.exists_of_forall₂_left hss.dataspaces hd
    exact ⟨s', hs', by rw [hss.cap, hsession], d', hd', by rw [hdd.cap, hdb]⟩

/-- Some dataspaces are gone, and their segments with them. -/
theorem Flat.restrict (h : Flat bytes ram μ) (hsub : ∀ b seg, μ' b = some seg → μ b = some seg)
    (hlive : ∀ s' ∈ ram', ∃ s ∈ ram, s'.cap = s.cap ∧ ∀ d ∈ s'.parentState.ramDataspaces,
      d ∈ s.parentState.ramDataspaces ∧ ∀ seg, μ d.cap.localName = some seg →
        seg.session = s.cap.localName → μ' d.cap.localName = some seg)
    (hdead : ∀ s ∈ ram, ∀ d ∈ s.parentState.ramDataspaces, ∀ seg, μ' d.cap.localName = some seg →
      seg.session = s.cap.localName →
        ∃ s' ∈ ram', s'.cap = s.cap ∧ d ∈ s'.parentState.ramDataspaces) : Flat bytes ram' μ' where
  live s' hs' d hd' := by
    obtain ⟨s, hs, hcap, hds⟩ := hlive s' hs'
    obtain ⟨hd, hkeep⟩ := hds d hd'
    obtain ⟨seg, hseg, hsession, hrest⟩ := h.live s hs d hd
    exact ⟨seg, hkeep seg hseg hsession, by rw [hcap, hsession], hrest⟩
  dead b seg hb := by
    obtain ⟨s, hs, hsession, d, hd, rfl⟩ := h.dead b seg (hsub b seg hb)
    obtain ⟨s', hs', hcap, hd'⟩ := hdead s hs d hd seg hb hsession.symm
    exact ⟨s', hs', by rw [hcap, hsession], d, hd', rfl⟩

theorem FlatMemory.free_eq_some {session ds : Cap} {b : Nat} {seg : Segment} :
    μ.free session ds b = some seg ↔
      μ b = some seg ∧ (b = ds.localName → seg.session ≠ session.localName) := by
  unfold free
  by_cases hb : b = ds.localName
  · simp [hb]
  · simp [hb]

theorem FlatMemory.close_eq_some {session : Cap} {b : Nat} {seg : Segment} :
    μ.close session b = some seg ↔ μ b = some seg ∧ seg.session ≠ session.localName := by
  simp [close]

theorem Flat.freeNothing (h : Flat bytes ram μ) {cap : Cap} (ds : Cap)
    (hnone : ∀ s ∈ ram, s.cap ≠ cap) : Flat bytes ram (μ.free cap ds) := by
  refine h.restrict (fun b seg hb => (FlatMemory.free_eq_some.mp hb).1) (fun s hs => ?_)
    fun s hs d hd _ _ _ => ⟨s, hs, rfl, hd⟩
  refine ⟨s, hs, rfl, fun d hd => ⟨hd, fun seg hseg hsession => ?_⟩⟩
  refine FlatMemory.free_eq_some.mpr ⟨hseg, fun _ hcap => hnone s hs ?_⟩
  exact Cap.ext_localName (hsession.symm.trans hcap)

theorem Flat.free {before after : List RamSessionComponent} {s s' : RamSessionComponent} {ds : Cap}
    (h : Flat bytes (before ++ s :: after) μ)
    (hsessions : ((before ++ s :: after).map (·.cap.localName)).Nodup)
    (hbadges : (s.parentState.ramDataspaces.map (·.cap.localName)).Nodup) (hcap : s'.cap = s.cap)
    (hds : s'.parentState.ramDataspaces =
      s.parentState.ramDataspaces.eraseP (·.cap.localName == ds.localName)) :
    Flat bytes (before ++ s' :: after) (μ.free s.cap ds) := by
  rw [List.eraseP_key ds.localName hbadges] at hds
  have hself : s ∈ before ++ s :: after := by simp
  have hother : ∀ t, t ∈ before ∨ t ∈ after → t ∈ before ++ s :: after := by
    intro t ht
    simp only [List.mem_append, List.mem_cons]
    tauto
  -- another session keeps its dataspaces
  have hne : ∀ t, t ∈ before ∨ t ∈ after → t.cap.localName ≠ s.cap.localName := by
    intro t ht he
    rw [List.map_append, List.map_cons, List.nodup_append, List.nodup_cons] at hsessions
    rcases ht with ht | ht
    · exact hsessions.2.2 _ (List.mem_map_of_mem ht) _ (by simp) he
    · exact hsessions.2.1.1 (he ▸ List.mem_map_of_mem ht)
  refine h.restrict (fun b seg hb => (FlatMemory.free_eq_some.mp hb).1) (fun t ht => ?_) ?_
  · have ht : t = s' ∨ (t ∈ before ∨ t ∈ after) := by
      simp only [List.mem_append, List.mem_cons] at ht
      tauto
    rcases ht with rfl | ht
    · refine ⟨s, hself, hcap, fun d hd => ?_⟩
      rw [hds, List.mem_filter] at hd
      refine ⟨hd.1, fun seg hseg _ => FlatMemory.free_eq_some.mpr ⟨hseg, fun hb => ?_⟩⟩
      exact absurd hb (by simpa using hd.2)
    · refine ⟨t, hother t ht, rfl, fun d hd => ⟨hd, fun seg hseg hsession => ?_⟩⟩
      exact FlatMemory.free_eq_some.mpr ⟨hseg, fun _ => hsession.trans_ne (hne t ht)⟩
  · intro t ht d hd seg hseg hsession
    by_cases hts : t ∈ before ∨ t ∈ after
    · refine ⟨t, ?_, rfl, hd⟩
      simp only [List.mem_append, List.mem_cons]
      tauto
    · have hts : t = s := by
        simp only [List.mem_append, List.mem_cons] at ht
        tauto
      subst hts
      refine ⟨s', by simp, hcap, ?_⟩
      rw [hds, List.mem_filter]
      refine ⟨hd, ?_⟩
      have hbadge : d.cap.localName ≠ ds.localName := fun hb =>
        (FlatMemory.free_eq_some.mp hseg).2 hb hsession
      simpa using hbadge

theorem Flat.close (h : Flat bytes ram μ) (hsessions : (ram.map (·.cap.localName)).Nodup)
    (cap : Cap) : Flat bytes (ram.eraseP (·.cap == cap)) (μ.close cap) := by
  have herase : ram.eraseP (·.cap == cap) = ram.filter (·.cap.localName ≠ cap.localName) := by
    rw [← List.eraseP_key cap.localName hsessions]
    congr 1
    funext s
    rw [Bool.eq_iff_iff, beq_iff_eq, beq_iff_eq]
    exact ⟨congrArg Cap.localName, Cap.ext_localName⟩
  rw [herase]
  refine h.restrict (fun b seg hb => (FlatMemory.close_eq_some.mp hb).1) (fun s hs => ?_) ?_
  · rw [List.mem_filter] at hs
    refine ⟨s, hs.1, rfl, fun d hd => ⟨hd, fun seg hseg hsession => ?_⟩⟩
    exact FlatMemory.close_eq_some.mpr ⟨hseg, by rw [hsession]; simpa using hs.2⟩
  · intro s hs d hd seg hseg hsession
    have hne := (FlatMemory.close_eq_some.mp hseg).2
    rw [hsession] at hne
    exact ⟨s, List.mem_filter.mpr ⟨hs, by simpa using hne⟩, rfl, hd⟩

theorem Flat.alloc {before after : List RamSessionComponent} {s s' : RamSessionComponent}
    {d : RamDataspaceInfo} (h : Flat bytes (before ++ s :: after) μ)
    (hfresh : μ d.cap.localName = none) (hcap : s'.cap = s.cap)
    (hds : s'.parentState.ramDataspaces = d :: s.parentState.ramDataspaces)
    (hzero : ∀ p ∈ d.pieces, ∀ i, bytes p.name i = 0) :
    Flat bytes (before ++ s' :: after) (μ.alloc s.cap d.cap.localName d.size) := by
  have hold : ∀ e ∈ dataspacesOf (before ++ s :: after),
      (μ.alloc s.cap d.cap.localName d.size) e.cap.localName = μ e.cap.localName := by
    intro e he
    obtain ⟨seg, hseg, -⟩ := h.segment he
    refine Function.update_of_ne (fun hb => ?_) _ _
    rw [hb, hfresh] at hseg
    cases hseg
  have hmem : ∀ t, t ∈ before ∨ t ∈ after → t ∈ before ++ s :: after ∧ t ∈ before ++ s' :: after := by
    intro t ht
    simp only [List.mem_append, List.mem_cons]
    tauto
  constructor
  · intro t ht e he
    have hsession : ∃ u ∈ before ++ s :: after, t.cap = u.cap ∧
        (e ∈ u.parentState.ramDataspaces ∨ (u = s ∧ e = d)) := by
      simp only [List.mem_append, List.mem_cons] at ht
      rcases ht with ht | rfl | ht
      · exact ⟨t, (hmem t (.inl ht)).1, rfl, .inl he⟩
      · refine ⟨s, by simp, hcap, ?_⟩
        rw [hds] at he
        rcases List.mem_cons.mp he with rfl | he
        · exact .inr ⟨rfl, rfl⟩
        · exact .inl he
      · exact ⟨t, (hmem t (.inr ht)).1, rfl, .inl he⟩
    obtain ⟨u, hu, hcap', he | ⟨rfl, rfl⟩⟩ := hsession
    · rw [hold e (mem_dataspacesOf.mpr ⟨u, hu, he⟩), hcap']
      exact h.live u hu e he
    · exact ⟨_, Function.update_self .., by rw [hcap'], rfl, .const hzero⟩
  · intro b seg hb
    by_cases hbd : b = d.cap.localName
    · subst hbd
      rw [FlatMemory.alloc, Function.update_self] at hb
      cases hb
      exact ⟨s', by simp, by rw [hcap], d, by simp [hds], rfl⟩
    · rw [FlatMemory.alloc, Function.update_of_ne hbd] at hb
      obtain ⟨u, hu, hsession, e, he, heb⟩ := h.dead b seg hb
      simp only [List.mem_append, List.mem_cons] at hu
      rcases hu with hu | rfl | hu
      · exact ⟨u, (hmem u (.inl hu)).2, hsession, e, he, heb⟩
      · exact ⟨s', by simp, by rw [hcap, hsession], e, by simp [hds, he], heb⟩
      · exact ⟨u, (hmem u (.inr hu)).2, hsession, e, he, heb⟩

/-- **A request** is a step of flat memory. -/
theorem RamChange.flat {request : ChildRequest} (h : RamChange core core' ram request ram')
    (hl : LaidOut core.nextBadge (dataspacesOf ram))
    (hsessions : (ram.map (·.cap.localName)).Nodup)
    (hbytes : ∀ d ∈ dataspacesOf ram, ∀ p ∈ d.pieces, core'.bytes p.name = core.bytes p.name)
    (hflat : Flat core.bytes ram μ) :
    ∃ μ', μ.Step (.request request) μ' ∧ Flat core'.bytes ram' μ' := by
  have hsame : Flat core'.bytes ram μ := hflat.congr (.refl SamePlace.refl ram) hbytes
  have hrel : ∀ {ram₁}, RamRel Evolved ram ram₁ → Flat core'.bytes ram₁ μ := fun hram =>
    hflat.congr (hram.mono fun _ _ he => he.toSamePlace) hbytes
  cases h with
  | steady hquiet hram => exact ⟨μ, .request hquiet, hrel hram⟩
  | @opened _ s _ hquiet hs =>
      refine ⟨μ, .request hquiet, fun t ht d hd => ?_, fun b seg hb => ?_⟩
      · rcases List.mem_cons.mp ht with rfl | ht
        · rw [hs] at hd
          cases hd
        · exact hsame.live t ht d hd
      · obtain ⟨t, ht, hrest⟩ := hsame.dead b seg hb
        exact ⟨t, List.mem_cons_of_mem s ht, hrest⟩
  | allocFails cap size cacheAttr hram => exact ⟨μ, .allocFails .., hrel hram⟩
  | @alloc s s' d size before after cacheAttr hcap hds hnew hsize hzero =>
      have hfresh : μ d.cap.localName = none := by
        by_contra hsome
        obtain ⟨seg, hseg⟩ := Option.ne_none_iff_exists'.mp hsome
        obtain ⟨e, he, hbadge⟩ := hflat.exists_of_some hseg
        have hlt := hl.below e he
        have hge := hnew.badge.1
        omega
      subst hsize
      exact ⟨_, .alloc hfresh, hsame.alloc hfresh hcap hds hzero⟩
  | freeNothing ds hnone => exact ⟨_, .free .., hsame.freeNothing ds hnone⟩
  | @free s s' before after ds hcap hds =>
      refine ⟨_, .free .., hsame.free hsessions ?_ hcap hds⟩
      rw [dataspacesOf_split] at hl
      refine hl.badges.sublist (List.Sublist.map _ ?_)
      exact (List.sublist_append_right _ _).trans (List.sublist_append_left _ _)
  | close _ cap => exact ⟨_, .close .., hsame.close hsessions cap⟩
  | closeRefused _ cap => exact ⟨_, .closeRefused .., hsame⟩

end Flat

/-! ## Accesses -/

section Access

variable {m m' : MonitoredChild} {ds : Cap} {addr : Nat} {μ : FlatMemory}

/-- What an access finds. -/
theorem MonitoredChild.place_spec {p : Piece Nat} (h : m.place ds addr = some p) :
    ∃ d ∈ m.ramDataspaces, d.cap = ds ∧ p ∈ d.pieces ∧ p.Has addr := by
  obtain ⟨d, hfind, hplace⟩ := Option.bind_eq_some_iff.mp h
  exact ⟨d, List.mem_of_find?_eq_some hfind, by simpa using List.find?_some hfind,
    RamDataspaceInfo.place_spec hplace⟩

theorem Flat.load {byte : UInt8} (hflat : Flat m.core.bytes m.ram μ)
    (h : m.load ds addr = some byte) : μ.Step (.load ds addr byte) μ := by
  obtain ⟨p, hplace, rfl⟩ := Option.map_eq_some_iff.mp h
  obtain ⟨d, hd, rfl, hp, ha⟩ := MonitoredChild.place_spec hplace
  obtain ⟨seg, hseg, -, hshows⟩ := hflat.segment hd
  rw [hshows p hp addr ha]
  exact .load hseg

/-- **A store** goes to one dataspace, at one address. -/
theorem Flat.store {n : Nat} {byte : UInt8} (hflat : Flat m.core.bytes m.ram μ)
    (hl : LaidOut n m.ramDataspaces) (h : m.store ds addr byte = some m') :
    Flat m'.core.bytes m'.ram (μ.store ds addr byte) := by
  obtain ⟨p, hplace, rfl⟩ := Option.map_eq_some_iff.mp h
  obtain ⟨d, hd, rfl, hp, ha⟩ := MonitoredChild.place_spec hplace
  constructor
  · intro s hs e he
    have hmem : e ∈ m.ramDataspaces := mem_dataspacesOf.mpr ⟨s, hs, he⟩
    obtain ⟨seg, hseg, hsession, hsize, hshows⟩ := hflat.live s hs e he
    by_cases hed : e.cap.localName = d.cap.localName
    · have hsame : e = d := List.inj_on_of_nodup_map hl.badges hmem hd hed
      subst hsame
      refine ⟨{ seg with bytes := Function.update seg.bytes addr byte }, ?_, hsession, hsize,
        hshows.poke (hl.separate hd) hp ha byte⟩
      simp [FlatMemory.store, hseg]
    · refine ⟨seg, by rw [FlatMemory.store, if_neg hed, hseg], hsession, hsize,
        hshows.poke_other (fun q hq hname => hed ?_) _ byte⟩
      rw [(hl.piece_unique hmem hd hq hp hname).1]
  · intro b seg hb
    unfold FlatMemory.store at hb
    split at hb
    · obtain ⟨seg', hseg', rfl⟩ := Option.map_eq_some_iff.mp hb
      exact hflat.dead b seg' hseg'
    · exact hflat.dead b seg hb

end Access

/-! ## Checkpoints -/

section Copies

open Checkpointer

variable {ck : Checkpointer} {st : TargetState} {child : TargetChild}

theorem copyMemory_other {infos : List OrigCopyInfo} {b : Nat}
    (h : ∀ info ∈ infos, info.copyDsCap.localName ≠ b) (core : Core) :
    (copyMemory infos core).2.bytes b = core.bytes b := by
  induction infos generalizing core with
  | nil => rfl
  | cons info infos ih =>
      have hrest := fun info hinfo => h info (List.mem_cons_of_mem _ hinfo)
      unfold copyMemory
      split
      · exact ih hrest core
      · unfold copyContent
        split_ifs
        · refine (ih hrest _).trans (funext fun i => blit_of_not_covers (fun hc => ?_) _)
          exact h info List.mem_cons_self hc.1.symm
        · rfl

/-- The memory phase writes to copies. -/
theorem mem_memoryToCheckpoint {info : OrigCopyInfo} (h : info ∈ ck.memoryToCheckpoint child) :
    ∃ e ∈ ck.copyDataspaces, info.copyDsCap = e.copyDsCap := by
  unfold memoryToCheckpoint at h
  rw [resolveIncCheckpointDataspaces_eq] at h
  refine resolveAll_keeps (J := fun x => ∃ e ∈ ck.copyDataspaces, x.copyDsCap = e.copyDsCap)
    (fun d _ dd _ m hm _ => hm) (fun x hx => ?_) info h
  obtain ⟨e, he, rfl⟩ := mem_createMemoryToCheckpoint.mp hx
  exact ⟨e, he, rfl⟩

theorem checkpoint_memory (ck : Checkpointer) (st : TargetState) (child : TargetChild) :
    (ck.checkpoint st child).checkpointer = ck ∨
      ((ck.checkpoint st child).checkpointer.copyDataspaces =
          (ck.prepared st child).2.copyDataspaces ∧
        (ck.checkpoint st child).checkpointer.core =
          (copyMemory (ck.workList st child) (ck.prepared st child).2.core).2) := by
  unfold workList checkpoint prepared prepareChild
  dsimp only
  rcases hmap : createCapMapInfos child.pause ck.core with ⟨e | capMap, child'⟩
  · exact .inl rfl
  · have hcap : capMap = child.pause.capabilityMap ck.core :=
      createCapMapInfos_eq_ok (by rw [hmap])
    subst hcap
    right
    simp only [takeSnapshot]
    split <;> exact ⟨rfl, rfl⟩

/-- The copies are younger than `n` and none of the child's pieces. -/
structure CopiesApart (n : Nat) (ram : List RamSessionComponent) (infos : List OrigCopyCountInfo) :
    Prop where
  below : ∀ e ∈ infos, e.copyDsCap.localName < n
  nodup : (infos.map (·.copyDsCap.localName)).Nodup
  apart : ∀ d ∈ dataspacesOf ram, ∀ p ∈ d.pieces, ∀ e ∈ infos, p.name ≠ e.copyDsCap.localName

/-- **A call**, returning or throwing, leaves the pieces alone. -/
theorem checkpoint_pieces (ck : Checkpointer) (st : TargetState)
    (hl : LaidOut ck.core.nextBadge (dataspacesOf child.services.ramRoot))
    (hc : CopiesApart ck.core.nextBadge child.services.ramRoot ck.copyDataspaces) :
    CopiesApart (ck.checkpoint st child).checkpointer.core.nextBadge child.services.ramRoot
        (ck.checkpoint st child).checkpointer.copyDataspaces ∧
      ∀ d ∈ dataspacesOf child.services.ramRoot, ∀ p ∈ d.pieces,
        (ck.checkpoint st child).checkpointer.core.bytes p.name = ck.core.bytes p.name := by
  rcases checkpoint_memory ck st child with hsame | ⟨hcopies, hcore⟩
  · rw [hsame]
    exact ⟨hc, fun _ _ _ _ => rfl⟩
  · have hfresh : FreshCopies ck (ck.prepared st child).2 :=
      prepared_freshCopies hc.below hc.nodup
    have hapart : ∀ d ∈ dataspacesOf child.services.ramRoot, ∀ p ∈ d.pieces,
        ∀ e ∈ (ck.prepared st child).2.copyDataspaces, p.name ≠ e.copyDsCap.localName := by
      intro d hd p hp e he
      rcases hfresh.copies e he with ⟨e₀, he₀, -, heq⟩ | ⟨hge, -⟩
      · rw [← heq]
        exact hc.apart d hd p hp e₀ he₀
      · exact ((hl.piece_below hd hp).trans_le hge).ne
    have hnext := (copyMemory_callsOn (ck.workList st child) (ck.prepared st child).2.core).nextBadge
    rw [hcopies, hcore]
    refine ⟨⟨fun e he => (hfresh.below e he).trans_le hnext, hfresh.nodup, hapart⟩, ?_⟩
    intro d hd p hp
    rw [copyMemory_other (fun info hinfo hname => ?_), hfresh.grown.bytes _ (hl.piece_below hd hp)]
    obtain ⟨e, he, hcap⟩ := mem_memoryToCheckpoint hinfo
    exact hapart d hd p hp e he (hname.symm.trans (congrArg Cap.localName hcap))

end Copies

/-! ## Runs -/

namespace Monitoring

variable {g : Genode} {x x' : Monitoring} {event : MemoryEvent}

def ram (x : Monitoring) : List RamSessionComponent := x.monitored.child.services.ramRoot

/-- What the memory of the child relies on. -/
structure MemoryOk (x : Monitoring) : Prop where
  records : Records x
  restorer : x.monitored.restorer = none
  laid : LaidOut x.monitored.core.nextBadge (dataspacesOf x.ram)
  copies : CopiesApart x.monitored.core.nextBadge x.ram x.checkpointer.copyDataspaces

theorem MemoryOk.request {request : ChildRequest} {m : MonitoredChild} (h : MemoryOk x)
    (hstep : x.monitored.Step g request m) : MemoryOk { x with monitored := m } := by
  obtain ⟨-, hrestorer, hgain⟩ := hstep.gains
  have hchange := hstep.ramChange h.restorer
  refine ⟨h.records.request hstep, ?_, hchange.laidOut hgain.le h.laid, ?_, h.copies.nodup, ?_⟩
  · show m.restorer = none
    rw [hrestorer, h.restorer]
    split <;> rfl
  · exact fun e he => (h.copies.below e he).trans_le hgain.le
  · intro d' hd' p hp e he
    rcases hchange.pieces d' hd' with ⟨d, hd, hsame⟩ | hnew
    · rw [hsame] at hp
      exact h.copies.apart d hd p hp e he
    · exact ((h.copies.below e he).trans_le (hnew p hp)).ne'

/-- A request leaves the child's memory alone. -/
theorem MemoryOk.request_bytes {request : ChildRequest} {m : MonitoredChild} (h : MemoryOk x)
    (hstep : x.monitored.Step g request m) (hleaves : request.LeavesMemory x.monitored) :
    ∀ d ∈ dataspacesOf x.ram, ∀ p ∈ d.pieces,
      m.core.bytes p.name = x.monitored.core.bytes p.name := by
  intro d hd p hp
  by_cases helse : ∃ a b c bytes, request = .elsewhere a b c bytes
  · obtain ⟨a, b, c, bytes, rfl⟩ := helse
    cases hstep
    exact hleaves d hd p hp
  · push Not at helse
    exact (hstep.grown h.restorer helse).bytes _ (h.laid.piece_below hd hp)

theorem MemoryOk.checkpointed (h : MemoryOk x) : MemoryOk x.checkpointed := by
  have hram : RamRel SamePlace x.ram x.checkpointed.ram :=
    checkpoint_samePlace x.caller x.state x.monitored.child
  obtain ⟨hcopies, -⟩ := checkpoint_pieces x.caller x.state h.laid h.copies
  have hnext : x.monitored.core.nextBadge ≤ x.checkpointed.monitored.core.nextBadge :=
    (Checkpointer.checkpoint_callsOn x.caller x.state x.monitored.child).nextBadge
  refine ⟨h.records.checkpointed, h.restorer,
    (h.laid.related (fun _ _ => id) hram.dataspacesOf).mono hnext, hcopies.below, hcopies.nodup, ?_⟩
  intro d' hd' p hp
  obtain ⟨d, hd, hdd⟩ := List.exists_of_forall₂_right hram.dataspacesOf hd'
  rw [hdd.pieces] at hp
  exact hcopies.apart d hd p hp

/-- **Every step** is one of flat memory. -/
theorem MemoryStep.flat {μ : FlatMemory} (h : MemoryStep g x event x') (hx : MemoryOk x)
    (hflat : Flat x.monitored.core.bytes x.ram μ) :
    ∃ μ', μ.Step event μ' ∧ MemoryOk x' ∧ Flat x'.monitored.core.bytes x'.ram μ' := by
  cases h with
  | request hstep hleaves =>
      have hsessions := (distinctObjects_of_entries hx.records.distinct).ram
      obtain ⟨μ', hμ, hflat'⟩ := (hstep.ramChange hx.restorer).flat hx.laid hsessions
        (hx.request_bytes hstep hleaves) hflat
      exact ⟨μ', hμ, hx.request hstep, hflat'⟩
  | checkpoint =>
      obtain ⟨-, hbytes⟩ := checkpoint_pieces x.caller x.state hx.laid hx.copies
      exact ⟨μ, .checkpoint μ, hx.checkpointed,
        hflat.congr (checkpoint_samePlace x.caller x.state x.monitored.child) hbytes⟩
  | load hload => exact ⟨μ, hflat.load hload, hx, hflat⟩
  | @store ds addr byte m hstore =>
      refine ⟨_, .store .., ?_, hflat.store hx.laid hstore⟩
      obtain ⟨p, -, rfl⟩ := Option.map_eq_some_iff.mp hstore
      exact ⟨⟨hx.records.distinct, hx.records.records, hx.records.below, hx.records.known,
        hx.records.rmRoot, hx.records.logRoot, hx.records.timerRoot⟩, hx.restorer, hx.laid,
        hx.copies⟩

theorem memoryOk_start {m : MonitoredChild} (hm : MonitoredChild.Started g m)
    (hnone : m.restorer = none) :
    MemoryOk (start m) ∧ Flat m.core.bytes m.ram fun _ => none := by
  have hempty : ∀ s ∈ m.ram, s.parentState.ramDataspaces = [] := by
    cases hm <;> exact fun s hs => List.mem_singleton.mp hs ▸ rfl
  have hds : dataspacesOf m.ram = [] := List.flatMap_eq_nil_iff.mpr hempty
  refine ⟨⟨records_start hm, hnone, ?_, ?_⟩, ?_⟩
  · show LaidOut _ (dataspacesOf m.ram)
    rw [hds]
    exact ⟨by simp, by simp, by simp, by simp, by simp, by simp, by simp⟩
  · exact ⟨by simp [start, Checkpointer.new], by simp [start, Checkpointer.new],
      by simp [start, Checkpointer.new]⟩
  · exact ⟨fun s hs d hd => absurd hd (by simp [hempty s hs]), fun _ _ => nofun⟩

/-- **Managed dataspaces do not show.** Whatever a child that is not
restored asks for, whenever it is checkpointed and however its pages
come and go: its loads and stores are those of flat memory. -/
theorem flat_of_run {m : MonitoredChild} {events : List MemoryEvent}
    (hm : MonitoredChild.Started g m) (hnone : m.restorer = none)
    (h : Steps (MemoryStep g) (start m) events x) :
    ∃ μ, Steps FlatMemory.Step (fun _ => none) events μ ∧
      Flat x.monitored.core.bytes x.ram μ ∧
      ∀ d ∈ x.monitored.ramDataspaces, ∀ a < d.size, ∃ p ∈ d.pieces, p.Has a := by
  obtain ⟨hok, hflat⟩ := memoryOk_start hm hnone
  obtain ⟨μ, hμ, hx, hend⟩ := h.simulate_all
    (R := fun x μ => MemoryOk x ∧ Flat x.monitored.core.bytes x.ram μ)
    (fun _ _ _ _ hR hstep => hstep.flat hR.1 hR.2) ⟨hok, hflat⟩
  exact ⟨μ, hμ, hend, fun d hd a ha => hx.laid.covered hd ha⟩

/-! ### A page that goes and comes back -/

/-- A child with one page to a designated dataspace. -/
def pagedChild : MonitoredChild :=
  .construct Genode.small "main" 1 ⟨10, ⟨0, 0, 1, 1⟩⟩ ⟨1⟩ [] .small

/-- The checkpoint takes the page away. -/
def pageEvents : List MemoryEvent :=
  [.request (.ram ⟨108⟩ (.alloc 0x2000 .cached)), .store ⟨111⟩ 0x1fff 7, .checkpoint,
    .request (.ram ⟨108⟩ (.fault ⟨111⟩ 0x1fff)), .request (.ram ⟨108⟩ .handleFault),
    .load ⟨111⟩ 0x1fff 7]

theorem flat_of_run_paged : ∃ μ, Steps FlatMemory.Step (fun _ => none) pageEvents μ := by
  have hrun : ∃ x, Steps (MemoryStep Genode.small) (start pagedChild) pageEvents x :=
    ⟨_, .cons (.request rfl trivial) (.cons (.store rfl) (.cons (.checkpoint _)
      (.cons (.request rfl trivial) (.cons (.request rfl trivial)
        (.cons (.load (by decide +kernel)) (.nil _))))))⟩
  obtain ⟨x, hx⟩ := hrun
  obtain ⟨μ, hμ, -⟩ := flat_of_run (.start ..) rfl hx
  exact ⟨μ, hμ⟩

end Monitoring

end Rtcr
