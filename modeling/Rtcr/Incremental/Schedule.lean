import Rtcr.Incremental.WorkList

/-!
# Incremental.Schedule — every byte of a managed dataspace, once

The work item of a managed dataspace is meant to be replaced by one item
for each of its designated dataspaces. `_resolve_inc_checkpoint_dataspaces`
takes the first of them, and only if that one is attached; at restore
time an item that is missing is a range that is never written.
-/

namespace Rtcr

/-! ## Replacing items -/

/-- What takes the place of an item: for a managed dataspace, one item for
each designated dataspace that `take` picks. -/
def replaceItem (take : List DesignatedDataspaceInfo → List DesignatedDataspaceInfo)
    (ds : List RamDataspaceInfo) (m : OrigCopyInfo) : List OrigCopyInfo :=
  match ds.find? fun d => d.mrmInfo.isSome && ofOrig d.cap.localName m with
  | some d => (take d.dds).map (·.item m.copyDsCap)
  | none => [m]

/-- What the code takes. -/
def firstAttached (dds : List DesignatedDataspaceInfo) : List DesignatedDataspaceInfo :=
  dds.head?.toList.filter (·.attached)

theorem firstAttached_cons (dd : DesignatedDataspaceInfo) (dds : List DesignatedDataspaceInfo) :
    firstAttached (dd :: dds) = if dd.attached then [dd] else [] := by
  simp [firstAttached, List.filter_cons]

theorem firstAttached_sublist (dds : List DesignatedDataspaceInfo) :
    (firstAttached dds).Sublist dds := by
  cases dds with
  | nil => exact .slnil
  | cons dd dds =>
      have hhead : [dd].Sublist (dd :: dds) := .cons_cons dd (List.nil_sublist dds)
      exact List.filter_sublist.trans hhead

/-- The code takes them all where there is one at most, and it is
attached. -/
theorem firstAttached_eq_self {dds : List DesignatedDataspaceInfo}
    (h : dds = [] ∨ ∃ dd, dds = [dd] ∧ dd.attached = true) : firstAttached dds = dds := by
  rcases h with rfl | ⟨dd, rfl, hatt⟩
  · rfl
  · simp [firstAttached, hatt]

theorem all_of_length_firstAttached {dds : List DesignatedDataspaceInfo}
    (h : (firstAttached dds).length = dds.length) :
    dds = [] ∨ ∃ dd, dds = [dd] ∧ dd.attached = true := by
  cases dds with
  | nil => exact .inl rfl
  | cons dd rest =>
      rw [firstAttached_cons] at h
      by_cases hatt : dd.attached = true
      · rw [if_pos hatt, List.length_singleton, List.length_cons] at h
        have hrest : rest = [] := List.length_eq_zero_iff.mp (by omega)
        exact .inr ⟨dd, by rw [hrest], hatt⟩
      · rw [if_neg hatt] at h
        cases h

/-- The step of the loop: only this dataspace's item is replaced. -/
def replaceOne (dds : List DesignatedDataspaceInfo) (badge : Nat) (m : OrigCopyInfo) :
    List OrigCopyInfo :=
  if ofOrig badge m then (firstAttached dds).map (·.item m.copyDsCap) else [m]

theorem flatMap_replaceOne_of_none {dds : List DesignatedDataspaceInfo} {badge : Nat}
    {items : List OrigCopyInfo} (h : ∀ m ∈ items, ¬ofOrig badge m = true) :
    items.flatMap (replaceOne dds badge) = items := by
  induction items with
  | nil => rfl
  | cons m items ih =>
      rw [List.flatMap_cons, ih fun x hx => h x (by simp [hx]), replaceOne, if_neg (h m (by simp))]
      rfl

theorem resolveManaged_perm {cap : Cap} (mrm : ManagedRegionMapInfo) {items : List OrigCopyInfo}
    (h : items.countP (ofOrig cap.localName) ≤ 1) :
    (resolveManaged cap mrm items).Perm
      (items.flatMap (replaceOne mrm.ddInfos cap.localName)) := by
  unfold resolveManaged
  cases hfind : items.find? (ofOrig cap.localName) with
  | none =>
      rw [flatMap_replaceOne_of_none (List.find?_eq_none.mp hfind)]
      have hfind' : items.find? (·.origDsCap.localName == cap.localName) = none := hfind
      rw [hfind']
  | some m =>
      have hfind' : items.find? (·.origDsCap.localName == cap.localName) = some m := hfind
      have hm := List.find?_some hfind
      have hsplit := List.perm_cons_eraseP_of_find? hfind
      have hcount := hsplit.countP_eq (ofOrig cap.localName)
      rw [List.countP_cons_of_pos hm] at hcount
      have hnone : ∀ x ∈ items.eraseP (ofOrig cap.localName), ¬ofOrig cap.localName x = true :=
        List.countP_eq_zero.mp (by omega)
      refine List.Perm.trans ?_ (hsplit.flatMap_right _).symm
      rw [hfind', List.flatMap_cons, flatMap_replaceOne_of_none hnone, replaceOne, if_pos hm]
      dsimp only
      cases mrm.ddInfos with
      | nil => exact .refl _
      | cons dd dds =>
          rw [firstAttached_cons]
          dsimp only
          by_cases hatt : dd.attached = true
          · rw [if_pos hatt, if_pos hatt]
            exact .refl _
          · rw [if_neg hatt, if_neg hatt]
            exact .refl _

/-! ## The whole pass -/

/-- RAM dataspaces as core hands them out: no badge twice, also not for a
designated dataspace. -/
structure Distinct (ds : List RamDataspaceInfo) : Prop where
  badges : (ds.map (·.cap.localName)).Nodup
  apart : ∀ dd ∈ ds.flatMap (·.dds), ∀ d ∈ ds, dd.cap.localName ≠ d.cap.localName

namespace Distinct

variable {d : RamDataspaceInfo} {ds : List RamDataspaceInfo}

theorem tail (h : Distinct (d :: ds)) : Distinct ds where
  badges := (List.nodup_cons.mp h.badges).2
  apart dd hdd e he :=
    h.apart dd (List.mem_append_right _ hdd) e (List.mem_cons_of_mem d he)

theorem head_ne (h : Distinct (d :: ds)) : ∀ e ∈ ds, e.cap.localName ≠ d.cap.localName := by
  intro e he hed
  have hmem : e.cap.localName ∈ ds.map (·.cap.localName) := List.mem_map_of_mem he
  rw [hed] at hmem
  exact (List.nodup_cons.mp h.badges).1 hmem

/-- Nothing takes the place of an item for a designated dataspace. -/
theorem replaceItem_item {take : List DesignatedDataspaceInfo → List DesignatedDataspaceInfo}
    {dd : DesignatedDataspaceInfo} (h : ∀ d ∈ ds, dd.cap.localName ≠ d.cap.localName)
    (copy : Cap) : replaceItem take ds (dd.item copy) = [dd.item copy] := by
  unfold replaceItem
  have hnone : (ds.find? fun d => d.mrmInfo.isSome && ofOrig d.cap.localName (dd.item copy)) =
      none := by
    refine List.find?_eq_none.mpr fun d hd => ?_
    have hne : ofOrig d.cap.localName (dd.item copy) = false := beq_eq_false_iff_ne.mpr (h d hd)
    simp [hne]
  rw [hnone]

end Distinct

theorem resolveAll_cons_some {d : RamDataspaceInfo} {mrm : ManagedRegionMapInfo}
    (hm : d.mrmInfo = some mrm) (ds : List RamDataspaceInfo) (items : List OrigCopyInfo) :
    resolveAll (d :: ds) items = resolveAll ds (resolveManaged d.cap mrm items) := by
  simp [resolveAll, hm]

theorem resolveAll_cons_none {d : RamDataspaceInfo} (hm : d.mrmInfo = none)
    (ds : List RamDataspaceInfo) (items : List OrigCopyInfo) :
    resolveAll (d :: ds) items = resolveAll ds items := by
  simp [resolveAll, hm]

/-- **The pass**, where no managed dataspace has more than one item: each
is replaced by what the code takes. -/
theorem resolveAll_perm {ds : List RamDataspaceInfo} (hds : Distinct ds) {items : List OrigCopyInfo}
    (hcount : ∀ d ∈ ds, d.mrmInfo.isSome = true → items.countP (ofOrig d.cap.localName) ≤ 1) :
    (resolveAll ds items).Perm (items.flatMap (replaceItem firstAttached ds)) := by
  induction ds generalizing items with
  | nil =>
      have hself : replaceItem firstAttached [] = fun m => [m] := rfl
      rw [hself, List.flatMap_singleton']
      exact .refl _
  | cons d ds ih =>
      have hcount' := fun e he => hcount e (List.mem_cons_of_mem d he)
      cases hm : d.mrmInfo with
      | none =>
          have hsame : replaceItem firstAttached (d :: ds) = replaceItem firstAttached ds := by
            funext m
            unfold replaceItem
            rw [List.find?_cons_of_neg (by simp [hm])]
          rw [resolveAll_cons_none hm, hsame]
          exact ih hds.tail hcount'
      | some mrm =>
          have hdds : d.dds = mrm.ddInfos := by simp [RamDataspaceInfo.dds, hm]
          have hapart : ∀ dd ∈ mrm.ddInfos, ∀ e ∈ ds, dd.cap.localName ≠ e.cap.localName :=
            fun dd hdd e he => hds.apart dd (by simp [hdds, hdd]) e (by simp [he])
          have hone := resolveManaged_perm mrm (hcount d (by simp) (by simp [hm]))
          have hone' : ∀ e ∈ ds, e.mrmInfo.isSome = true →
              (resolveManaged d.cap mrm items).countP (ofOrig e.cap.localName) ≤ 1 :=
            fun e he hman =>
              (countP_resolveManaged (fun dd hdd => hapart dd hdd e he) items).trans
                (hcount' e he hman)
          have hrest := ih hds.tail hone'
          rw [resolveAll_cons_some hm]
          refine hrest.trans ((hone.flatMap_right _).trans ?_)
          rw [List.flatMap_assoc]
          refine List.Perm.of_eq (List.flatMap_congr fun m _ => ?_)
          unfold replaceOne
          by_cases hof : ofOrig d.cap.localName m = true
          · -- the new items are none of the dataspaces to come
            have hhere : replaceItem firstAttached (d :: ds) m =
                (firstAttached mrm.ddInfos).map (·.item m.copyDsCap) := by
              unfold replaceItem
              rw [List.find?_cons_of_pos (by simp [hm, hof])]
              dsimp only
              rw [hdds]
            rw [if_pos hof, hhere, List.flatMap_map]
            have hkeep : ∀ dd ∈ firstAttached mrm.ddInfos,
                replaceItem firstAttached ds (dd.item m.copyDsCap) = [dd.item m.copyDsCap] := by
              intro dd hdd
              have hmem : dd ∈ mrm.ddInfos := (firstAttached_sublist _).subset hdd
              exact Distinct.replaceItem_item (fun e he => hapart dd hmem e he) _
            rw [List.flatMap_congr hkeep, List.map_eq_flatMap]
          · rw [if_neg hof, List.flatMap_singleton]
            unfold replaceItem
            rw [List.find?_cons_of_neg (by simp [hof])]

/-! ## More than one item -/

/-- A step takes out one item of its own dataspace. -/
theorem countP_le_resolveManaged_add_one (cap : Cap) (mrm : ManagedRegionMapInfo) (b : Nat)
    (items : List OrigCopyInfo) :
    items.countP (ofOrig b) ≤ (resolveManaged cap mrm items).countP (ofOrig b) +
      if cap.localName = b then 1 else 0 := by
  unfold resolveManaged
  split
  · exact Nat.le_add_right _ _
  · rename_i m hfind
    have hm : ofOrig cap.localName m = true := List.find?_some hfind
    have hsplit := (List.perm_cons_eraseP_of_find? hfind).countP_eq (ofOrig b)
    have herase : items.countP (ofOrig b) ≤
        (items.eraseP (·.origDsCap.localName == cap.localName)).countP (ofOrig b) +
          if cap.localName = b then 1 else 0 := by
      rw [hsplit]
      by_cases hb : cap.localName = b
      · rw [List.countP_cons_of_pos (by rw [← hb]; exact hm), if_pos hb]
      · have hother : ¬ofOrig b m = true := by
          intro hmb
          exact hb ((beq_iff_eq.mp hm).symm.trans (beq_iff_eq.mp hmb))
        rw [List.countP_cons_of_neg hother, if_neg hb]
        exact Nat.le_refl _
    dsimp only
    split
    · split
      · rw [List.countP_cons]
        omega
      · exact herase
    · exact herase

theorem countP_le_resolveAll {ds : List RamDataspaceInfo} {b : Nat}
    (hb : ∀ d ∈ ds, d.cap.localName ≠ b) (items : List OrigCopyInfo) :
    items.countP (ofOrig b) ≤ (resolveAll ds items).countP (ofOrig b) := by
  induction ds generalizing items with
  | nil => exact Nat.le_refl _
  | cons d ds ih =>
      have hrest := ih fun e he => hb e (by simp [he])
      cases hm : d.mrmInfo with
      | none =>
          rw [resolveAll_cons_none hm]
          exact hrest items
      | some mrm =>
          have hstep := countP_le_resolveManaged_add_one d.cap mrm b items
          rw [if_neg (hb d (by simp))] at hstep
          rw [resolveAll_cons_some hm]
          exact hstep.trans (hrest _)

/-- The pass takes out one item of a dataspace at most. -/
theorem countP_le_resolveAll_add_one {ds : List RamDataspaceInfo} (hds : Distinct ds) (b : Nat)
    (items : List OrigCopyInfo) :
    items.countP (ofOrig b) ≤ (resolveAll ds items).countP (ofOrig b) + 1 := by
  induction ds generalizing items with
  | nil => exact Nat.le_add_right _ _
  | cons d ds ih =>
      cases hm : d.mrmInfo with
      | none =>
          rw [resolveAll_cons_none hm]
          exact ih hds.tail items
      | some mrm =>
          have hstep := countP_le_resolveManaged_add_one d.cap mrm b items
          rw [resolveAll_cons_some hm]
          by_cases hb : d.cap.localName = b
          · have hrest := countP_le_resolveAll (fun e he => hb ▸ hds.head_ne e he)
              (resolveManaged d.cap mrm items)
            rw [if_pos hb] at hstep
            omega
          · have hrest := ih hds.tail (resolveManaged d.cap mrm items)
            rw [if_neg hb] at hstep
            omega

/-- No item of a managed dataspace is left where all are replaced. -/
theorem countP_replaceItems {ds : List RamDataspaceInfo} (hds : Distinct ds)
    (items : List OrigCopyInfo) {d : RamDataspaceInfo} (hd : d ∈ ds)
    (hman : d.mrmInfo.isSome = true) :
    (items.flatMap (replaceItem id ds)).countP (ofOrig d.cap.localName) = 0 := by
  refine List.countP_eq_zero.mpr fun x hx hof => ?_
  obtain ⟨m, -, hxm⟩ := List.mem_flatMap.mp hx
  unfold replaceItem at hxm
  split at hxm
  · rename_i d' hfind
    obtain ⟨dd, hdd, rfl⟩ := List.mem_map.mp hxm
    have hd' := List.mem_of_find?_eq_some hfind
    have hmem : dd ∈ ds.flatMap (·.dds) := List.mem_flatMap.mpr ⟨d', hd', hdd⟩
    exact hds.apart dd hmem d hd (beq_iff_eq.mp hof)
  · rename_i hnone
    obtain rfl := List.mem_singleton.mp hxm
    have hno := List.find?_eq_none.mp hnone d hd
    simp [hman, hof] at hno

/-! ## The condition -/

/-- The pass finds everything it has to replace. -/
def Schedulable (d : RamDataspaceInfo) (items : List OrigCopyInfo) : Prop :=
  items.countP (ofOrig d.cap.localName) = 0 ∨
    items.countP (ofOrig d.cap.localName) = 1 ∧
      (d.dds = [] ∨ ∃ dd, d.dds = [dd] ∧ dd.attached = true)

theorem length_replaceItem_le (ds : List RamDataspaceInfo) (m : OrigCopyInfo) :
    (replaceItem firstAttached ds m).length ≤ (replaceItem id ds m).length := by
  unfold replaceItem
  split
  · rw [List.length_map, List.length_map]
    exact (firstAttached_sublist _).length_le
  · exact Nat.le_refl _

theorem find_managed {ds : List RamDataspaceInfo} (hds : Distinct ds) {d : RamDataspaceInfo}
    (hd : d ∈ ds) (hman : d.mrmInfo.isSome = true) {m : OrigCopyInfo}
    (hm : ofOrig d.cap.localName m = true) :
    (ds.find? fun d => d.mrmInfo.isSome && ofOrig d.cap.localName m) = some d := by
  cases hfind : ds.find? fun d => d.mrmInfo.isSome && ofOrig d.cap.localName m with
  | none =>
      have hno := List.find?_eq_none.mp hfind d hd
      simp [hman, hm] at hno
  | some d' =>
      have hd' := List.mem_of_find?_eq_some hfind
      have hof := List.find?_some hfind
      rw [Bool.and_eq_true] at hof
      have hsame : d'.cap.localName = d.cap.localName :=
        (beq_iff_eq.mp hof.2).symm.trans (beq_iff_eq.mp hm)
      rw [List.inj_on_of_nodup_map hds.badges hd' hd hsame]

/-- **Every byte is scheduled** — each item of a managed dataspace is
replaced by one for each of its designated dataspaces, and nothing else
changes — exactly where every managed dataspace with an item has only
that one, and one designated dataspace at most, which is attached. -/
theorem resolveIncCheckpointDataspaces_iff {r : List RamSessionComponent}
    (hds : Distinct (dataspacesOf r)) (items : List OrigCopyInfo) :
    (resolveIncCheckpointDataspaces r items).Perm
        (items.flatMap (replaceItem id (dataspacesOf r))) ↔
      ∀ d ∈ dataspacesOf r, d.mrmInfo.isSome = true → Schedulable d items := by
  rw [resolveIncCheckpointDataspaces_eq]
  generalize dataspacesOf r = ds at hds ⊢
  constructor
  · intro hperm
    have hcount : ∀ d ∈ ds, d.mrmInfo.isSome = true →
        items.countP (ofOrig d.cap.localName) ≤ 1 := by
      intro d hd hman
      have hle := countP_le_resolveAll_add_one hds d.cap.localName items
      rw [hperm.countP_eq, countP_replaceItems hds items hd hman] at hle
      exact hle
    have hlen := ((resolveAll_perm hds hcount).symm.trans hperm).length_eq
    rw [List.length_flatMap, List.length_flatMap] at hlen
    have heach := List.forall_eq_of_sum_eq (fun m _ => length_replaceItem_le ds m) hlen
    intro d hd hman
    rcases Nat.eq_zero_or_pos (items.countP (ofOrig d.cap.localName)) with hzero | hpos
    · exact .inl hzero
    · refine .inr ⟨by have := hcount d hd hman; omega, all_of_length_firstAttached ?_⟩
      obtain ⟨m, hm, hof⟩ := List.countP_pos_iff.mp hpos
      have hm' := heach m hm
      unfold replaceItem at hm'
      rw [find_managed hds hd hman hof] at hm'
      simpa using hm'
  · intro hall
    have hcount : ∀ d ∈ ds, d.mrmInfo.isSome = true →
        items.countP (ofOrig d.cap.localName) ≤ 1 := by
      intro d hd hman
      rcases hall d hd hman with hzero | ⟨hone, -⟩
      · omega
      · omega
    refine (resolveAll_perm hds hcount).trans (List.Perm.of_eq (List.flatMap_congr fun m hm => ?_))
    unfold replaceItem
    split
    · rename_i d hfind
      have hd := List.mem_of_find?_eq_some hfind
      have hof := List.find?_some hfind
      rw [Bool.and_eq_true] at hof
      rcases hall d hd hof.1 with hzero | ⟨-, hdds⟩
      · exact absurd hof.2 (List.countP_eq_zero.mp hzero m hm)
      · rw [firstAttached_eq_self hdds]
        rfl
    · rfl

namespace ScheduleSample

def tile (badge relAddr : Nat) : DesignatedDataspaceInfo := .new ⟨badge⟩ relAddr 0x1000

/-- A session with one managed dataspace. -/
def session (size : Nat) (tiles : List DesignatedDataspaceInfo) : RamSessionComponent :=
  .bare 30 true 1
    [{ cap := ⟨31⟩, size := size, cached := .cached, bootstrapped := false, timestamp := 1
       mrmInfo := some ⟨⟨40⟩, tiles, []⟩ }]

def item (orig copy size : Nat) : OrigCopyInfo where
  origDsCap := ⟨orig⟩
  copyDsCap := ⟨copy⟩
  copyRelAddr := 0
  copySize := size
  done := false

end ScheduleSample

open ScheduleSample in
theorem resolveIncCheckpointDataspaces_iff_sample :
    (resolveIncCheckpointDataspaces [session 0x1000 [tile 41 0]]
        [item 31 70 0x1000, item 32 71 0x1000]).Perm
      ([item 31 70 0x1000, item 32 71 0x1000].flatMap
        (replaceItem id (dataspacesOf [session 0x1000 [tile 41 0]]))) := by
  have hds : Distinct (dataspacesOf [session 0x1000 [tile 41 0]]) := ⟨by decide, by decide⟩
  refine (resolveIncCheckpointDataspaces_iff hds _).mpr fun d hd _ => ?_
  obtain rfl := List.mem_singleton.mp hd
  exact .inr ⟨rfl, .inr ⟨_, rfl, rfl⟩⟩

open ScheduleSample in
/-- Two pages, two designated dataspaces: the lower one is lost. -/
theorem second_tile_not_scheduled :
    Distinct (dataspacesOf [session 0x2000 [tile 42 0x1000, tile 41 0]]) ∧
      Tiles 0x2000 [(0x1000, 0x1000), (0, 0x1000)] ∧
      resolveIncCheckpointDataspaces [session 0x2000 [tile 42 0x1000, tile 41 0]]
          [item 31 70 0x2000] = [(tile 42 0x1000).item ⟨70⟩] ∧
      ¬(resolveIncCheckpointDataspaces [session 0x2000 [tile 42 0x1000, tile 41 0]]
            [item 31 70 0x2000]).Perm
          ([item 31 70 0x2000].flatMap
            (replaceItem id (dataspacesOf [session 0x2000 [tile 42 0x1000, tile 41 0]]))) := by
  have htiles : Stacked 0x2000 [(0x1000, 0x1000), (0, 0x1000)] :=
    @Stacked.cons 0x1000 0x1000 _ (@Stacked.cons 0 0x1000 _ .nil (by decide)) (by decide)
  refine ⟨⟨by decide, by decide⟩, htiles.tiles, rfl, fun hperm => ?_⟩
  have hlen := hperm.length_eq
  revert hlen
  decide

end Rtcr
