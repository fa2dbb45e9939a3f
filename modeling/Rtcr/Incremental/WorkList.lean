import Rtcr.Incremental.Layout

/-!
# Incremental.WorkList — what `_resolve_inc_checkpoint_dataspaces` leaves

`mem_resolve`: the items of managed dataspaces are gone; in the place of
each there is one item at most, for the first designated dataspace of
the list, if that one is attached.
-/

namespace Rtcr

/-- The item for designated dataspace `dd`, copied into `copy`. -/
def DesignatedDataspaceInfo.item (dd : DesignatedDataspaceInfo) (copy : Cap) : OrigCopyInfo where
  origDsCap := dd.cap
  copyDsCap := copy
  copyRelAddr := dd.relAddr
  copySize := dd.size
  done := false

/-- `x` is what takes the place of item `m` of a managed dataspace. -/
def Replaces (dds : List DesignatedDataspaceInfo) (m x : OrigCopyInfo) : Prop :=
  ∃ dd rest, dds = dd :: rest ∧ dd.attached = true ∧ x = dd.item m.copyDsCap

/-- Does the item have this original? -/
def ofOrig (badge : Nat) (item : OrigCopyInfo) : Bool := item.origDsCap.localName == badge

theorem mem_resolveManaged {cap : Cap} (mrm : ManagedRegionMapInfo) {items : List OrigCopyInfo}
    (h : items.countP (ofOrig cap.localName) ≤ 1) (x : OrigCopyInfo) :
    x ∈ resolveManaged cap mrm items ↔
      (x ∈ items ∧ x.origDsCap.localName ≠ cap.localName) ∨
        ∃ m ∈ items, m.origDsCap.localName = cap.localName ∧ Replaces mrm.ddInfos m x := by
  have hrest : ∀ y, y ∈ items.eraseP (ofOrig cap.localName) ↔
      y ∈ items ∧ y.origDsCap.localName ≠ cap.localName := fun y => by
    rw [List.mem_eraseP_of_countP_le_one h, ofOrig, beq_eq_false_iff_ne]
  unfold resolveManaged
  split
  · rename_i hnone
    have hne : ∀ m ∈ items, m.origDsCap.localName ≠ cap.localName := fun m hm => by
      simpa using List.find?_eq_none.mp hnone m hm
    constructor
    · exact fun hx => .inl ⟨hx, hne x hx⟩
    · rintro (⟨hx, -⟩ | ⟨m, hm, he, -⟩)
      · exact hx
      · exact absurd he (hne m hm)
  · rename_i m hfind
    have hm := List.mem_of_find?_eq_some hfind
    have hmc : m.origDsCap.localName = cap.localName := by simpa using List.find?_some hfind
    -- there is one item only
    have hone : ∀ m' ∈ items, m'.origDsCap.localName = cap.localName → m' = m := by
      intro m' hm' he
      by_contra hne
      obtain ⟨l₁, l₂, hl⟩ := List.append_of_mem hm
      rw [hl, List.countP_append, List.countP_cons_of_pos (by simpa [ofOrig] using hmc)] at h
      have hin : m' ∈ l₁ ∨ m' ∈ l₂ := by
        rw [hl, List.mem_append, List.mem_cons] at hm'
        tauto
      rcases hin with hin | hin
      · have := List.countP_pos_iff.mpr ⟨m', hin, show ofOrig cap.localName m' by simpa [ofOrig]⟩
        omega
      · have := List.countP_pos_iff.mpr ⟨m', hin, show ofOrig cap.localName m' by simpa [ofOrig]⟩
        omega
    have hreplace : (∃ m' ∈ items, m'.origDsCap.localName = cap.localName ∧
        Replaces mrm.ddInfos m' x) ↔ Replaces mrm.ddInfos m x := by
      constructor
      · rintro ⟨m', hm', he, hr⟩
        rwa [hone m' hm' he] at hr
      · exact fun hr => ⟨m, hm, hmc, hr⟩
    rw [hreplace, ← hrest]
    unfold Replaces
    cases mrm.ddInfos with
    | nil =>
        change x ∈ items.eraseP (ofOrig cap.localName) ↔ _
        simp
    | cons dd dds =>
        change x ∈ (if dd.attached then dd.item m.copyDsCap :: items.eraseP (ofOrig cap.localName)
          else items.eraseP (ofOrig cap.localName)) ↔ _
        by_cases hatt : dd.attached = true
        · simp [hatt, or_comm]
        · simp [hatt]

/-- The loop over all RAM dataspaces. -/
def resolveAll (ds : List RamDataspaceInfo) (items : List OrigCopyInfo) : List OrigCopyInfo :=
  ds.foldl
    (fun items d =>
      match d.mrmInfo with
      | some mrm => resolveManaged d.cap mrm items
      | none => items)
    items

theorem resolveIncCheckpointDataspaces_eq (r : List RamSessionComponent)
    (items : List OrigCopyInfo) :
    resolveIncCheckpointDataspaces r items = resolveAll (dataspacesOf r) items := rfl

theorem resolveManaged_keeps {J : OrigCopyInfo → Prop} {cap : Cap} {mrm : ManagedRegionMapInfo}
    {items : List OrigCopyInfo} (hitems : ∀ x ∈ items, J x)
    (hreplace : ∀ dd ∈ mrm.ddInfos, ∀ m ∈ items, m.origDsCap.localName = cap.localName →
      J (dd.item m.copyDsCap)) :
    ∀ x ∈ resolveManaged cap mrm items, J x := by
  unfold resolveManaged
  split
  · exact hitems
  · rename_i m hfind
    have hm := List.mem_of_find?_eq_some hfind
    have hmc : m.origDsCap.localName = cap.localName := by simpa using List.find?_some hfind
    have hrest : ∀ x ∈ items.eraseP (·.origDsCap.localName == cap.localName), J x := fun x hx =>
      hitems x (List.mem_of_mem_eraseP hx)
    dsimp only
    split
    · rename_i dd rest hdds
      split
      · intro x hx
        rcases List.mem_cons.mp hx with rfl | hx
        · exact hreplace dd (by simp [hdds]) m hm hmc
        · exact hrest x hx
      · exact hrest
    · exact hrest

/-- An item for no RAM dataspace stays. -/
theorem mem_resolveAll_of_other {ds : List RamDataspaceInfo} {items : List OrigCopyInfo}
    {x : OrigCopyInfo} (hx : x ∈ items)
    (hother : ∀ d ∈ ds, x.origDsCap.localName ≠ d.cap.localName) : x ∈ resolveAll ds items := by
  induction ds generalizing items with
  | nil => exact hx
  | cons d ds ih =>
      refine ih ?_ fun e he => hother e (List.mem_cons_of_mem d he)
      dsimp only
      cases d.mrmInfo with
      | none => exact hx
      | some mrm =>
          have hne : ¬ofOrig d.cap.localName x = true := by
            simpa [ofOrig] using hother d List.mem_cons_self
          have hrest : x ∈ items.eraseP (ofOrig d.cap.localName) :=
            (List.mem_eraseP_of_neg hne).mpr hx
          show x ∈ resolveManaged d.cap mrm items
          unfold resolveManaged
          split
          · exact hx
          · dsimp only
            split
            · split
              · exact List.mem_cons_of_mem _ hrest
              · exact hrest
            · exact hrest

/-- **What the items have in common** they keep, if the replacement of an
item keeps it. -/
theorem resolveAll_keeps {J : OrigCopyInfo → Prop} {ds : List RamDataspaceInfo}
    (hreplace : ∀ d ∈ ds, ∀ dd ∈ d.dds, ∀ m, J m → m.origDsCap.localName = d.cap.localName →
      J (dd.item m.copyDsCap)) {items : List OrigCopyInfo} (hitems : ∀ x ∈ items, J x) :
    ∀ x ∈ resolveAll ds items, J x := by
  induction ds generalizing items with
  | nil => exact hitems
  | cons d ds ih =>
      refine ih (fun e he => hreplace e (List.mem_cons_of_mem d he)) ?_
      dsimp only
      cases hm : d.mrmInfo with
      | none => exact hitems
      | some mrm =>
          have hdds : d.dds = mrm.ddInfos := by simp [RamDataspaceInfo.dds, hm]
          exact resolveManaged_keeps hitems fun dd hdd m hmi =>
            hreplace d List.mem_cons_self dd (hdds ▸ hdd) m (hitems m hmi)

/-- An item for a designated dataspace is none for a RAM dataspace. -/
theorem countP_resolveManaged {cap : Cap} {mrm : ManagedRegionMapInfo} {b : Nat}
    (hne : ∀ dd ∈ mrm.ddInfos, dd.cap.localName ≠ b) (items : List OrigCopyInfo) :
    (resolveManaged cap mrm items).countP (ofOrig b) ≤ items.countP (ofOrig b) := by
  unfold resolveManaged
  split
  · exact le_rfl
  · dsimp only
    have hrest : (items.eraseP (·.origDsCap.localName == cap.localName)).countP (ofOrig b) ≤
        items.countP (ofOrig b) := List.eraseP_sublist.countP_le
    split
    · rename_i dd rest hdds
      split
      · rw [List.countP_cons_of_neg]
        · exact hrest
        · simpa [ofOrig] using hne dd (by simp [hdds])
      · exact hrest
    · exact hrest

/-- **What is left**: items of other dataspaces, and for each managed
dataspace its first designated one. -/
theorem mem_resolve {ds : List RamDataspaceInfo} {n : Nat} (hds : LaidOut n ds)
    {items : List OrigCopyInfo}
    (hcount : ∀ d ∈ ds, items.countP (ofOrig d.cap.localName) ≤ 1) (x : OrigCopyInfo) :
    x ∈ resolveAll ds items ↔
      (x ∈ items ∧ ∀ d ∈ ds, d.mrmInfo.isSome = true →
        x.origDsCap.localName ≠ d.cap.localName) ∨
      ∃ d ∈ ds, d.mrmInfo.isSome = true ∧
        ∃ m ∈ items, m.origDsCap.localName = d.cap.localName ∧ Replaces d.dds m x := by
  induction ds generalizing items with
  | nil => simp [resolveAll]
  | cons d ds ih =>
      have hrest : LaidOut n ds := hds.sublist (List.sublist_cons_self d ds)
      have hcount' := fun e he => hcount e (List.mem_cons_of_mem d he)
      cases hm : d.mrmInfo with
      | none =>
          have hstep : resolveAll (d :: ds) items = resolveAll ds items := by
            simp [resolveAll, hm]
          rw [hstep, ih hrest hcount']
          simp [hm]
      | some mrm =>
          have hstep : resolveAll (d :: ds) items =
              resolveAll ds (resolveManaged d.cap mrm items) := by
            simp [resolveAll, hm]
          have hdds : d.dds = mrm.ddInfos := by simp [RamDataspaceInfo.dds, hm]
          have hother : ∀ e ∈ ds, e.cap.localName ≠ d.cap.localName := fun e he hed => by
            have hnd := hds.badges
            rw [List.map_cons, List.nodup_cons] at hnd
            exact hnd.1 (hed ▸ List.mem_map_of_mem he)
          have hapart : ∀ e ∈ ds, ∀ dd ∈ mrm.ddInfos, dd.cap.localName ≠ e.cap.localName :=
            fun e he dd hdd => hds.apart dd (by simp [hdds, hdd]) e (by simp [he])
          have hmem := mem_resolveManaged mrm (hcount d (by simp))
          rw [hstep, ih hrest fun e he =>
            (countP_resolveManaged (hapart e he) items).trans (hcount' e he)]
          -- a new item is none of the other dataspaces
          have hnew : ∀ m y, Replaces d.dds m y → ∀ e ∈ ds,
              y.origDsCap.localName ≠ e.cap.localName := by
            rintro m _ ⟨dd, rest, hfirst, -, rfl⟩ e he
            exact hapart e he dd (by simp [← hdds, hfirst])
          have hold : ∀ e ∈ ds, ∀ m, m.origDsCap.localName = e.cap.localName →
              (m ∈ resolveManaged d.cap mrm items ↔ m ∈ items) := by
            intro e he m hme
            rw [hmem m]
            constructor
            · rintro (⟨hm', -⟩ | ⟨m', -, -, hr⟩)
              · exact hm'
              · exact absurd hme (hnew m' m (hdds ▸ hr) e he)
            · exact fun hm' => .inl ⟨hm', hme ▸ hother e he⟩
          constructor
          · rintro (⟨hx, hne⟩ | ⟨e, he, hman, m, hmi, hme, hr⟩)
            · rcases (hmem x).mp hx with ⟨hx, hd⟩ | ⟨m, hmi, hme, hr⟩
              · refine .inl ⟨hx, fun e he => ?_⟩
                rcases List.mem_cons.mp he with rfl | he
                · exact fun _ => hd
                · exact hne e he
              · exact .inr ⟨d, by simp, by simp [hm], m, hmi, hme, hdds ▸ hr⟩
            · exact .inr ⟨e, by simp [he], hman, m, (hold e he m hme).mp hmi, hme, hr⟩
          · rintro (⟨hx, hne⟩ | ⟨e, he, hman, m, hmi, hme, hr⟩)
            · refine .inl ⟨(hmem x).mpr (.inl ⟨hx, hne d (by simp) (by simp [hm])⟩), fun e he => ?_⟩
              exact hne e (by simp [he])
            · rcases List.mem_cons.mp he with rfl | he
              · exact .inl ⟨(hmem x).mpr (.inr ⟨m, hmi, hme, hdds ▸ hr⟩),
                  fun e' he' _ => hnew m x hr e' he'⟩
              · exact .inr ⟨e, he, hman, m, (hold e he m hme).mpr hmi, hme, hr⟩

end Rtcr
