import Rtcr.Checkpointer.Kinds
import Rtcr.Incremental.Allocation
import Rtcr.Incremental.WorkList

/-!
# Incremental.Copies — the copy dataspaces through a checkpoint

The prepare phase leaves the copies there are alone and adds empty ones
(`FreshCopies`). The memory phase brings the first designated dataspace
of a managed one into its copy, and what else the copy holds is not
touched (`CopySetup.copied`).
-/

namespace Rtcr

open ByteStore Reconcile

/-! ## The prepare phase -/

/-- From `ck₀` to `ck` copies are kept or new, and new ones are zero. -/
structure FreshCopies (ck₀ ck : Checkpointer) : Prop where
  grown : Grown ck₀.core ck.core
  copies : ∀ e ∈ ck.copyDataspaces,
    (∃ e₀ ∈ ck₀.copyDataspaces, e₀.badge = e.badge ∧ e₀.copyDsCap = e.copyDsCap) ∨
      (ck₀.core.nextBadge ≤ e.copyDsCap.localName ∧
        ∀ i, ck.core.bytes e.copyDsCap.localName i = 0)
  below : ∀ e ∈ ck.copyDataspaces, e.copyDsCap.localName < ck.core.nextBadge
  nodup : (ck.copyDataspaces.map (·.copyDsCap.localName)).Nodup

namespace FreshCopies

variable {ck₀ ck : Checkpointer}

theorem refl (hbelow : ∀ e ∈ ck.copyDataspaces, e.copyDsCap.localName < ck.core.nextBadge)
    (hnodup : (ck.copyDataspaces.map (·.copyDsCap.localName)).Nodup) : FreshCopies ck ck :=
  ⟨.refl _, fun e he => .inl ⟨e, he, rfl, rfl⟩, hbelow, hnodup⟩

/-- Entries that name the same originals and copies. -/
theorem sublist {infos : List OrigCopyCountInfo} (h : FreshCopies ck₀ ck)
    (hsub : (infos.map (·.copyDsCap.localName)).Sublist
      (ck.copyDataspaces.map (·.copyDsCap.localName)))
    (heach : ∀ e' ∈ infos, ∃ e ∈ ck.copyDataspaces,
      e.badge = e'.badge ∧ e.copyDsCap = e'.copyDsCap) :
    FreshCopies ck₀ { ck with copyDataspaces := infos } where
  grown := h.grown
  copies e' he' := by
    obtain ⟨e, he, hb, hc⟩ := heach e' he'
    rw [← hb, ← hc]
    exact h.copies e he
  below e' he' := by
    obtain ⟨e, he, -, hc⟩ := heach e' he'
    exact hc ▸ h.below e he
  nodup := h.nodup.sublist hsub

theorem recount (p : OrigCopyCountInfo → Bool) (n : Nat → Nat) (h : FreshCopies ck₀ ck) :
    FreshCopies ck₀ { ck with
      copyDataspaces := List.modifyFirst p (fun info => { info with refCount := n info.refCount })
        ck.copyDataspaces } := by
  have hmap := List.map_modifyFirst (p := p)
    (f := fun info : OrigCopyCountInfo => { info with refCount := n info.refCount })
    (g := (·.copyDsCap.localName)) (fun _ _ => rfl) ck.copyDataspaces
  refine h.sublist (hmap ▸ .refl _) fun e' he' => ?_
  obtain ⟨e, he, rfl | rfl⟩ := List.mem_modifyFirst he'
  · exact ⟨_, he, rfl, rfl⟩
  · exact ⟨e, he, rfl, rfl⟩

theorem newCopy (cap : Cap) (size : Nat) (h : FreshCopies ck₀ ck) :
    FreshCopies ck₀ (ck.newCopyDataspace cap size).2 where
  grown := h.grown.trans (grown_newDataspace ck.core)
  copies e he := by
    rcases List.mem_cons.mp he with rfl | he
    · exact .inr ⟨h.grown.le, fun i => fill_self ..⟩
    · refine (h.copies e he).imp id fun ⟨hle, hzero⟩ => ⟨hle, fun i => ?_⟩
      exact (fill_ne (h.below e he).ne ..).trans (hzero i)
  below e he := by
    change e.copyDsCap.localName < ck.core.nextBadge + 1
    rcases List.mem_cons.mp he with rfl | he
    · exact Nat.lt_succ_self _
    · exact (h.below e he).trans (Nat.lt_succ_self _)
  nodup := by
    refine List.nodup_cons.mpr ⟨fun hm => ?_, h.nodup⟩
    obtain ⟨e, he, hc⟩ := List.mem_map.mp hm
    exact (h.below e he).ne hc

end FreshCopies

theorem freshCopies_stable (ck₀ : Checkpointer) : Checkpointer.Stable (FreshCopies ck₀) where
  newRecord _ h := ⟨h.grown, h.copies, h.below, h.nodup⟩
  destroyRecord _ _ h := ⟨h.grown, h.copies, h.below, h.nodup⟩
  useCopyDataspace excluded cap size ck h := by
    unfold Checkpointer.useCopyDataspace
    split
    · exact h.recount _ (· + 1)
    · split
      · exact h
      · exact h.newCopy cap size
  dropCopyDataspace badge ck h := by
    unfold Checkpointer.dropCopyDataspace
    split
    · split
      · refine h.sublist (List.eraseP_sublist.map _) fun e he => ?_
        exact ⟨e, List.mem_of_mem_eraseP he, rfl, rfl⟩
      · exact h.recount _ (· - 1)
    · exact h
  regionMap _ _ h := ⟨h.grown, h.copies, h.below, h.nodup⟩

theorem prepared_freshCopies {ck : Checkpointer} {st : TargetState} {child : TargetChild}
    (hbelow : ∀ e ∈ ck.copyDataspaces, e.copyDsCap.localName < ck.core.nextBadge)
    (hnodup : (ck.copyDataspaces.map (·.copyDsCap.localName)).Nodup) :
    FreshCopies ck (ck.prepared st child).2 := by
  have hself := FreshCopies.refl hbelow hnodup
  exact (freshCopies_stable ck).prepare _ _ ⟨hself.grown, hself.copies, hself.below, hself.nodup⟩

/-! ## The memory phase -/

/-- The work item of a copy dataspace. -/
def OrigCopyCountInfo.item (info : OrigCopyCountInfo) : OrigCopyInfo where
  origDsCap := info.origDsCap
  copyDsCap := info.copyDsCap
  copyRelAddr := 0
  copySize := info.size
  done := false

theorem mem_createMemoryToCheckpoint {infos : List OrigCopyCountInfo} {x : OrigCopyInfo} :
    x ∈ createMemoryToCheckpoint infos ↔ ∃ e ∈ infos, x = e.item := by
  simp only [createMemoryToCheckpoint, List.mem_reverse, List.mem_map, eq_comm]
  rfl

theorem countP_createMemoryToCheckpoint {infos : List OrigCopyCountInfo}
    (h : (infos.map (·.badge)).Nodup) (b : Nat) :
    (createMemoryToCheckpoint infos).countP (ofOrig b) ≤ 1 := by
  have hcount : (createMemoryToCheckpoint infos).countP (ofOrig b) =
      (infos.map (·.badge)).count b := by
    rw [createMemoryToCheckpoint, List.countP_reverse, List.countP_map, List.count,
      List.countP_map]
    rfl
  rw [hcount]
  exact List.nodup_iff_count_le_one.mp h b

/-- What the memory phase relies on: originals, designated dataspaces
and copies are kept apart. -/
structure CopySetup (n : Nat) (r : List RamSessionComponent) (infos : List OrigCopyCountInfo) :
    Prop where
  laid : LaidOut n (dataspacesOf r)
  badges : (infos.map (·.badge)).Nodup
  copies : (infos.map (·.copyDsCap.localName)).Nodup
  origs : ∀ e ∈ infos, ∀ e' ∈ infos, e.badge ≠ e'.copyDsCap.localName
  dds : ∀ dd ∈ ddsOf r, ∀ e ∈ infos, dd.cap.localName ≠ e.copyDsCap.localName

namespace CopySetup

variable {n : Nat} {r : List RamSessionComponent} {infos : List OrigCopyCountInfo}

/-- The work list: one item for every copy that is not that of a managed
dataspace, and for those the first designated one. -/
theorem mem_workList (h : CopySetup n r infos) (x : OrigCopyInfo) :
    x ∈ resolveAll (dataspacesOf r) (createMemoryToCheckpoint infos) ↔
      (∃ e ∈ infos, x = e.item ∧ ∀ d ∈ dataspacesOf r, d.mrmInfo.isSome = true →
        e.badge ≠ d.cap.localName) ∨
      ∃ d ∈ dataspacesOf r, d.mrmInfo.isSome = true ∧
        ∃ e ∈ infos, e.badge = d.cap.localName ∧ Replaces d.dds e.item x := by
  rw [mem_resolve h.laid fun d _ => countP_createMemoryToCheckpoint h.badges _]
  constructor
  · rintro (⟨hx, hne⟩ | ⟨d, hd, hman, m, hm, hmd, hr⟩)
    · obtain ⟨e, he, rfl⟩ := mem_createMemoryToCheckpoint.mp hx
      exact .inl ⟨e, he, rfl, hne⟩
    · obtain ⟨e, he, rfl⟩ := mem_createMemoryToCheckpoint.mp hm
      exact .inr ⟨d, hd, hman, e, he, hmd, hr⟩
  · rintro (⟨e, he, rfl, hne⟩ | ⟨d, hd, hman, e, he, hed, hr⟩)
    · exact .inl ⟨mem_createMemoryToCheckpoint.mpr ⟨e, he, rfl⟩, hne⟩
    · exact .inr ⟨d, hd, hman, e.item, mem_createMemoryToCheckpoint.mpr ⟨e, he, rfl⟩, hed, hr⟩

theorem pendingCopies_workList (h : CopySetup n r infos) :
    pendingCopies (resolveAll (dataspacesOf r) (createMemoryToCheckpoint infos)) =
      (resolveAll (dataspacesOf r) (createMemoryToCheckpoint infos)).map OrigCopyInfo.toCopy := by
  unfold pendingCopies
  rw [List.filter_eq_self.mpr]
  intro x hx
  rcases (h.mem_workList x).mp hx with ⟨e, -, rfl, -⟩ | ⟨d, -, -, e, -, -, dd, rest, -, -, rfl⟩
  · rfl
  · rfl

/-- Every item copies into a copy dataspace from something else. -/
theorem src_dst (h : CopySetup n r infos) {x : OrigCopyInfo}
    (hx : x ∈ resolveAll (dataspacesOf r) (createMemoryToCheckpoint infos)) :
    (∃ e ∈ infos, x.copyDsCap = e.copyDsCap) ∧
      ∀ e ∈ infos, x.origDsCap.localName ≠ e.copyDsCap.localName := by
  rcases (h.mem_workList x).mp hx with
    ⟨e, he, rfl, -⟩ | ⟨d, hd, -, e, he, -, dd, rest, hdds, -, rfl⟩
  · exact ⟨⟨e, he, rfl⟩, h.origs e he⟩
  · have hmem : dd ∈ ddsOf r := List.mem_flatMap.mpr ⟨d, hd, by simp [hdds]⟩
    exact ⟨⟨e, he, rfl⟩, h.dds dd hmem⟩

/-- The store after the memory phase. -/
def after (r : List RamSessionComponent) (infos : List OrigCopyCountInfo)
    (m : Store Nat UInt8) : Store Nat UInt8 :=
  blitAll (pendingCopies (resolveAll (dataspacesOf r) (createMemoryToCheckpoint infos))) m

/-- Only copies are written. -/
theorem after_of_ne (h : CopySetup n r infos) {b : Nat}
    (hb : ∀ e ∈ infos, b ≠ e.copyDsCap.localName) (m : Store Nat UInt8) (i : Nat) :
    after r infos m b i = m b i := by
  unfold after
  rw [h.pendingCopies_workList]
  refine blitAll_of_ne_dst (fun bx hbx hxb => ?_) m i
  obtain ⟨y, hy, rfl⟩ := List.mem_map.mp hbx
  obtain ⟨⟨e, he, hc⟩, -⟩ := h.src_dst hy
  exact hb e he (hxb.symm.trans (congrArg (·.localName) hc))

/-- Only this dataspace's item goes into its copy, and it covers no
designated dataspace but the first. -/
theorem covering (h : CopySetup n r infos) {d : RamDataspaceInfo} (hd : d ∈ dataspacesOf r)
    (hman : d.mrmInfo.isSome = true) {e : OrigCopyCountInfo} (he : e ∈ infos)
    (hed : e.badge = d.cap.localName) {dd : DesignatedDataspaceInfo} (hdd : dd ∈ d.dds) {i : Nat}
    (hi : i < dd.size) {x : OrigCopyInfo}
    (hx : x ∈ resolveAll (dataspacesOf r) (createMemoryToCheckpoint infos))
    (hcov : x.toCopy.Covers e.copyDsCap.localName (dd.relAddr + i)) :
    d.dds.head? = some dd ∧ x = dd.item e.copyDsCap := by
  obtain ⟨hdst, hlo, hhi⟩ := hcov
  have hrange : InRange dd.range (dd.relAddr + i) :=
    ⟨Nat.le_add_right .., Nat.add_lt_add_left hi _⟩
  rcases (h.mem_workList x).mp hx with
    ⟨e', he', rfl, hne⟩ | ⟨d', hd', -, e', he', hed', dd', rest, hdds, -, rfl⟩
  · have hee : e' = e := List.inj_on_of_nodup_map h.copies he' he hdst.symm
    exact absurd hed (hee ▸ hne d hd hman)
  · have hee : e' = e := List.inj_on_of_nodup_map h.copies he' he hdst.symm
    have hdd' : d' = d := List.inj_on_of_nodup_map h.laid.badges hd' hd
      (hed'.symm.trans (hee ▸ hed))
    rw [hdd'] at hdds
    have hsame : dd' = dd :=
      (h.laid.tiles d hd hman).inRange_unique (by simp [hdds]) hdd ⟨hlo, hhi⟩ hrange
    exact ⟨by rw [hdds, hsame]; rfl, by rw [hsame, hee]; rfl⟩

/-- **The copy of a designated dataspace** after the memory phase, if it
is the first of its list and attached, or if the copy was right
before. -/
theorem copied (h : CopySetup n r infos) {d : RamDataspaceInfo} (hd : d ∈ dataspacesOf r)
    (hman : d.mrmInfo.isSome = true) {e : OrigCopyCountInfo} (he : e ∈ infos)
    (hed : e.badge = d.cap.localName) {dd : DesignatedDataspaceInfo} (hdd : dd ∈ d.dds)
    {m : Store Nat UInt8} {i : Nat} (hi : i < dd.size)
    (hright : (d.dds.head? = some dd ∧ dd.attached = true) ∨
      m e.copyDsCap.localName (dd.relAddr + i) = m dd.cap.localName i) :
    after r infos m e.copyDsCap.localName (dd.relAddr + i) = m dd.cap.localName i := by
  unfold after
  rw [h.pendingCopies_workList]
  refine blitAll_covered ?_ ?_ ?_
  · intro bx hbx _ bz hbz hxy
    obtain ⟨x, hx, rfl⟩ := List.mem_map.mp hbx
    obtain ⟨y, hy, rfl⟩ := List.mem_map.mp hbz
    obtain ⟨⟨e', he', hc⟩, -⟩ := h.src_dst hy
    exact (h.src_dst hx).2 e' he' (hxy.trans (congrArg (·.localName) hc))
  · intro bx hbx hcov
    obtain ⟨x, hx, rfl⟩ := List.mem_map.mp hbx
    obtain ⟨-, rfl⟩ := h.covering hd hman he hed hdd hi hx hcov
    change m dd.cap.localName (0 + (dd.relAddr + i - dd.relAddr)) = m dd.cap.localName i
    rw [Nat.zero_add, Nat.add_sub_cancel_left]
  · refine hright.imp ?_ id
    rintro ⟨hhead, hatt⟩
    obtain ⟨rest, hdds⟩ := List.head?_eq_some_iff.mp hhead
    refine ⟨(dd.item e.copyDsCap).toCopy, List.mem_map_of_mem ?_, rfl, Nat.le_add_right ..,
      Nat.add_lt_add_left hi _⟩
    exact (h.mem_workList _).mpr (.inr ⟨d, hd, hman, e, he, hed, dd, rest, hdds, hatt, rfl⟩)

/-- What the memory phase does not bring into the copy: anything but the
first designated dataspace. -/
theorem kept (h : CopySetup n r infos) {d : RamDataspaceInfo} (hd : d ∈ dataspacesOf r)
    (hman : d.mrmInfo.isSome = true) {e : OrigCopyCountInfo} (he : e ∈ infos)
    (hed : e.badge = d.cap.localName) {dd : DesignatedDataspaceInfo} (hdd : dd ∈ d.dds)
    (hrest : d.dds.head? ≠ some dd) (m : Store Nat UInt8) {i : Nat} (hi : i < dd.size) :
    after r infos m e.copyDsCap.localName (dd.relAddr + i) =
      m e.copyDsCap.localName (dd.relAddr + i) := by
  unfold after
  rw [h.pendingCopies_workList]
  refine blitAll_frame (fun bx hbx hcov => hrest ?_) m
  obtain ⟨x, hx, rfl⟩ := List.mem_map.mp hbx
  exact (h.covering hd hman he hed hdd hi hx hcov).1

end CopySetup

end Rtcr
