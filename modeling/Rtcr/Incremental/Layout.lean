import Rtcr.Incremental.Managed

/-!
# Incremental.Layout — where the designated dataspaces are

`Laid n r`: badges below `n` are distinct, a managed dataspace is tiled
by its designated dataspaces, and the RTCR's marks agree with core's
side. `alloc` extends the layout (`alloc_spec`), `free` shrinks it, and
operations that only touch designated dataspaces leave it alone.
-/

namespace Rtcr

open List (Forall₂)

/-! ## What may happen to a designated dataspace -/

structure SamePlace (dd dd' : DesignatedDataspaceInfo) : Prop where
  cap : dd'.cap = dd.cap
  relAddr : dd'.relAddr = dd.relAddr
  size : dd'.size = dd.size
  /-- the mark and core's side keep agreeing -/
  marks : dd.mapped = dd.attached → dd'.mapped = dd'.attached

/-- It is not detached. -/
structure Evolved (dd dd' : DesignatedDataspaceInfo) : Prop extends SamePlace dd dd' where
  stays : dd.attached = true → dd'.attached = true

theorem SamePlace.refl (dd : DesignatedDataspaceInfo) : SamePlace dd dd := ⟨rfl, rfl, rfl, id⟩

theorem SamePlace.trans {x y z : DesignatedDataspaceInfo} (h : SamePlace x y)
    (h' : SamePlace y z) : SamePlace x z :=
  ⟨h'.cap.trans h.cap, h'.relAddr.trans h.relAddr, h'.size.trans h.size, h'.marks ∘ h.marks⟩

theorem Evolved.refl (dd : DesignatedDataspaceInfo) : Evolved dd dd := ⟨.refl dd, id⟩

theorem evolved_attach (dd : DesignatedDataspaceInfo) : Evolved dd dd.attach := by
  unfold DesignatedDataspaceInfo.attach
  split
  · exact .refl dd
  · exact ⟨⟨rfl, rfl, rfl, fun _ => rfl⟩, fun _ => rfl⟩

theorem samePlace_detach (dd : DesignatedDataspaceInfo) : SamePlace dd dd.detach := by
  unfold DesignatedDataspaceInfo.detach
  split
  · exact ⟨rfl, rfl, rfl, fun _ => rfl⟩
  · exact ⟨rfl, rfl, rfl, id⟩

@[simp] theorem detach_attached (dd : DesignatedDataspaceInfo) : dd.detach.attached = false := by
  unfold DesignatedDataspaceInfo.detach
  split
  · rfl
  · rename_i h
    simpa using h

/-! ## Tilings -/

/-- `a` is in the range of address and size `p`. -/
def InRange (p : Nat × Nat) (a : Nat) : Prop := p.1 ≤ a ∧ a < p.1 + p.2

instance (p : Nat × Nat) (a : Nat) : Decidable (InRange p a) :=
  inferInstanceAs (Decidable (_ ∧ _))

/-- The ranges cover `[0, size)` and no address twice. -/
structure Tiles (size : Nat) (ranges : List (Nat × Nat)) : Prop where
  cover : ∀ a < size, ∃ p ∈ ranges, InRange p a
  apart : ranges.Pairwise fun p q => ∀ a, InRange p a → ¬InRange q a

def DesignatedDataspaceInfo.range (dd : DesignatedDataspaceInfo) : Nat × Nat :=
  (dd.relAddr, dd.size)

theorem Tiles.reverse {size : Nat} {ranges : List (Nat × Nat)} (h : Tiles size ranges) :
    Tiles size ranges.reverse where
  cover a ha := by
    obtain ⟨p, hp, hpa⟩ := h.cover a ha
    exact ⟨p, List.mem_reverse.mpr hp, hpa⟩
  apart := by
    rw [List.pairwise_reverse]
    exact h.apart.imp fun hpq a hq hp => hpq a hp hq

theorem Tiles.mono {size size' : Nat} {ranges : List (Nat × Nat)} (h : Tiles size ranges)
    (hle : size' ≤ size) : Tiles size' ranges :=
  ⟨fun a ha => h.cover a (ha.trans_le hle), h.apart⟩

theorem Tiles.inRange_unique {size : Nat} {infos : List DesignatedDataspaceInfo}
    (h : Tiles size (infos.map (·.range))) {x y : DesignatedDataspaceInfo} (hx : x ∈ infos)
    (hy : y ∈ infos) {a : Nat} (hxa : InRange x.range a) (hya : InRange y.range a) : x = y := by
  have hpair := List.pairwise_map.mp h.apart
  by_contra hne
  have hsymm : Std.Symm fun u v : DesignatedDataspaceInfo =>
      ∀ a, InRange u.range a → ¬InRange v.range a := ⟨fun _ _ huv a hv hu => huv a hu hv⟩
  exact hpair.forall hx hy hne a hxa hya

/-- The ranges lie on each other, from 0 up to `stop`, the topmost one
first. -/
inductive Stacked : Nat → List (Nat × Nat) → Prop
  | nil : Stacked 0 []
  | cons {start size : Nat} {ranges : List (Nat × Nat)} (h : Stacked start ranges)
      (hsize : 0 < size) : Stacked (start + size) ((start, size) :: ranges)

namespace Stacked

variable {stop : Nat} {ranges : List (Nat × Nat)}

theorem le (h : Stacked stop ranges) : ∀ p ∈ ranges, p.1 + p.2 ≤ stop := by
  induction h with
  | nil => simp
  | cons _ _ ih =>
      intro p hp
      rcases List.mem_cons.mp hp with rfl | hp
      · exact Nat.le_refl _
      · exact (ih p hp).trans (Nat.le_add_right _ _)

theorem tiles (h : Stacked stop ranges) : Tiles stop ranges := by
  induction h with
  | nil => exact ⟨by simp, .nil⟩
  | @cons start size ranges h _ ih =>
      constructor
      · intro a ha
        rcases Nat.lt_or_ge a start with hlt | hge
        · obtain ⟨p, hp, hpa⟩ := ih.cover a hlt
          exact ⟨p, by simp [hp], hpa⟩
        · exact ⟨(start, size), by simp, hge, ha⟩
      · refine List.pairwise_cons.mpr ⟨fun q hq a ha hqa => ?_, ih.apart⟩
        have hstart : start ≤ a := ha.1
        have hq' := h.le q hq
        have hend := hqa.2
        omega

/-- **A lookup whose test includes the upper end**: from the topmost
range on, it finds the range an address is in, also where the address is
the end of the range below. -/
theorem find_inclusive (h : Stacked stop ranges) {a : Nat} (ha : a < stop) :
    ∃ p, ranges.find? (fun p => decide (a ≥ p.1) && decide (a ≤ p.1 + p.2)) = some p ∧
      InRange p a := by
  induction h with
  | nil => omega
  | @cons start size ranges _ _ ih =>
      rcases Nat.lt_or_ge a start with hlt | hge
      · rw [List.find?_cons_of_neg (by simpa using fun hle => absurd hle (by omega))]
        exact ih hlt
      · rw [List.find?_cons_of_pos (by simpa using ⟨hge, by omega⟩)]
        exact ⟨_, rfl, hge, ha⟩

end Stacked

theorem stacked_whole {dsSize : Nat} (hds : 0 < dsSize) (num : Nat) :
    Stacked (dsSize * num) ((List.range num).map fun i => (dsSize * i, dsSize)).reverse := by
  induction num with
  | zero => exact .nil
  | succ num ih =>
      rw [List.range_succ, List.map_append, List.reverse_append]
      exact .cons ih hds

/-- The ranges `alloc` computes, as the list of designated dataspaces
has them. -/
theorem designatedRanges_stacked {dsSize : Nat} (hds : 0 < dsSize) (size : Nat) :
    Stacked (RamSessionComponent.regionMapSize dsSize size)
      (RamSessionComponent.designatedRanges dsSize size).reverse := by
  have hwhole := stacked_whole hds (size / dsSize)
  unfold RamSessionComponent.regionMapSize RamSessionComponent.designatedRanges
  rw [Nat.mul_comm] at hwhole
  by_cases hrest : alignAddr (size % dsSize) = 0
  · simpa [hrest] using hwhole
  · simpa [hrest] using hwhole.cons (Nat.pos_of_ne_zero hrest)

/-- The ranges `alloc` computes tile the dataspace. -/
theorem designatedRanges_tiles {dsSize : Nat} (hds : 0 < dsSize) (size : Nat) :
    Tiles size (RamSessionComponent.designatedRanges dsSize size) := by
  have hle : size ≤ RamSessionComponent.regionMapSize dsSize size := by
    have hsplit := Nat.div_add_mod' size dsSize
    have hrest := le_alignAddr (size % dsSize)
    unfold RamSessionComponent.regionMapSize
    omega
  have htiles := (designatedRanges_stacked hds size).tiles.reverse.mono hle
  rwa [List.reverse_reverse] at htiles

/-! ## Layouts -/

/-- The layout of a list of dataspaces, all older than badge `n`. -/
structure LaidOut (n : Nat) (ds : List RamDataspaceInfo) : Prop where
  badges : (ds.map (·.cap.localName)).Nodup
  dds : ((ds.flatMap (·.dds)).map (·.cap.localName)).Nodup
  below : ∀ d ∈ ds, d.cap.localName < n
  ddsBelow : ∀ dd ∈ ds.flatMap (·.dds), dd.cap.localName < n
  apart : ∀ dd ∈ ds.flatMap (·.dds), ∀ d ∈ ds, dd.cap.localName ≠ d.cap.localName
  tiles : ∀ d ∈ ds, d.mrmInfo.isSome = true → Tiles d.size (d.dds.map (·.range))
  marks : ∀ dd ∈ ds.flatMap (·.dds), dd.mapped = dd.attached

/-- A dataspace whose badges are new, with everything attached. -/
structure NewDataspace (n n' : Nat) (d : RamDataspaceInfo) : Prop where
  badge : n ≤ d.cap.localName ∧ d.cap.localName < n'
  caps : ∀ dd ∈ d.dds, n ≤ dd.cap.localName ∧ dd.cap.localName < n'
  nodup : (d.dds.map (·.cap.localName)).Nodup
  apart : ∀ dd ∈ d.dds, dd.cap.localName ≠ d.cap.localName
  tiles : d.mrmInfo.isSome = true → Tiles d.size (d.dds.map (·.range))
  attached : ∀ dd ∈ d.dds, dd.attached = true ∧ dd.mapped = true

namespace LaidOut

variable {n n' : Nat} {ds ds' : List RamDataspaceInfo} {d : RamDataspaceInfo}

theorem perm (h : LaidOut n ds) (hp : ds.Perm ds') : LaidOut n ds' := by
  have hmem : ∀ x, x ∈ ds' ↔ x ∈ ds := fun x => hp.mem_iff.symm
  have hdd : ∀ x, x ∈ ds'.flatMap (·.dds) ↔ x ∈ ds.flatMap (·.dds) := by
    simp only [List.mem_flatMap, hmem, implies_true]
  exact
    { badges := (hp.map _).nodup_iff.mp h.badges
      dds := ((hp.flatMap_right _).map _).nodup_iff.mp h.dds
      below := fun x hx => h.below x ((hmem x).mp hx)
      ddsBelow := fun x hx => h.ddsBelow x ((hdd x).mp hx)
      apart := fun x hx y hy => h.apart x ((hdd x).mp hx) y ((hmem y).mp hy)
      tiles := fun x hx => h.tiles x ((hmem x).mp hx)
      marks := fun x hx => h.marks x ((hdd x).mp hx) }

theorem sublist (h : LaidOut n ds) (hs : ds'.Sublist ds) : LaidOut n ds' := by
  have hdd : ∀ x ∈ ds'.flatMap (·.dds), x ∈ ds.flatMap (·.dds) := fun x hx => by
    obtain ⟨y, hy, hxy⟩ := List.mem_flatMap.mp hx
    exact List.mem_flatMap.mpr ⟨y, hs.subset hy, hxy⟩
  exact
    { badges := h.badges.sublist (hs.map _)
      dds := h.dds.sublist ((hs.flatMap _).map _)
      below := fun x hx => h.below x (hs.subset hx)
      ddsBelow := fun x hx => h.ddsBelow x (hdd x hx)
      apart := fun x hx y hy => h.apart x (hdd x hx) y (hs.subset hy)
      tiles := fun x hx => h.tiles x (hs.subset hx)
      marks := fun x hx => h.marks x (hdd x hx) }

theorem mono (h : LaidOut n ds) (hn : n ≤ n') : LaidOut n' ds :=
  { h with
    below := fun x hx => (h.below x hx).trans_le hn
    ddsBelow := fun x hx => (h.ddsBelow x hx).trans_le hn }

theorem cons (h : LaidOut n ds) (hd : NewDataspace n n' d) (hn : n ≤ n') :
    LaidOut n' (d :: ds) := by
  have hold : ∀ x ∈ ds, x.cap.localName ≠ d.cap.localName := fun x hx he => by
    have := h.below x hx
    have := hd.badge.1
    omega
  have hddold : ∀ x ∈ ds.flatMap (·.dds), x.cap.localName < n := h.ddsBelow
  refine
    { badges := ?_, dds := ?_, below := ?_, ddsBelow := ?_, apart := ?_, tiles := ?_, marks := ?_ }
  · rw [List.map_cons, List.nodup_cons]
    refine ⟨fun hm => ?_, h.badges⟩
    obtain ⟨x, hx, he⟩ := List.mem_map.mp hm
    exact hold x hx he
  · rw [List.flatMap_cons, List.map_append, List.nodup_append]
    refine ⟨hd.nodup, h.dds, fun a ha b hb hab => ?_⟩
    obtain ⟨x, hx, rfl⟩ := List.mem_map.mp ha
    obtain ⟨y, hy, rfl⟩ := List.mem_map.mp hb
    have := (hd.caps x hx).1
    have := hddold y hy
    omega
  · rintro x (_ | ⟨_, hx⟩)
    · exact hd.badge.2
    · exact (h.below x hx).trans_le hn
  · intro x hx
    rcases List.mem_append.mp hx with hx | hx
    · exact (hd.caps x hx).2
    · exact (hddold x hx).trans_le hn
  · intro x hx y hy
    rcases List.mem_append.mp hx with hxd | hxs <;> rcases List.mem_cons.mp hy with hyd | hys
    · exact hyd ▸ hd.apart x hxd
    · have := (hd.caps x hxd).1
      have := h.below y hys
      omega
    · have := hddold x hxs
      have := hd.badge.1
      rw [hyd]
      omega
    · exact h.apart x hxs y hys
  · rintro x (_ | ⟨_, hx⟩)
    · exact hd.tiles
    · exact h.tiles x hx
  · intro x hx
    rcases List.mem_append.mp hx with hx | hx
    · rw [(hd.attached x hx).1, (hd.attached x hx).2]
    · exact h.marks x hx

theorem related {R : DesignatedDataspaceInfo → DesignatedDataspaceInfo → Prop}
    (hR : ∀ x y, R x y → SamePlace x y) (h : LaidOut n ds)
    (hrel : Forall₂ (DataspaceRel R) ds ds') : LaidOut n ds' := by
  have hdds : Forall₂ R (ds.flatMap (·.dds)) (ds'.flatMap (·.dds)) :=
    List.forall₂_flatMap (fun _ _ hd => hd.dds) hrel
  have hbadges : ds'.map (·.cap.localName) = ds.map (·.cap.localName) :=
    List.map_eq_of_forall₂ (fun _ _ hd => by rw [hd.cap]) hrel
  have hcaps : (ds'.flatMap (·.dds)).map (·.cap.localName) =
      (ds.flatMap (·.dds)).map (·.cap.localName) :=
    List.map_eq_of_forall₂ (fun x y hxy => by rw [(hR x y hxy).cap]) hdds
  refine
    { badges := hbadges ▸ h.badges, dds := hcaps ▸ h.dds, below := fun y hy => ?_,
      ddsBelow := fun y hy => ?_, apart := fun y hy z hz => ?_, tiles := fun y hy hm => ?_,
      marks := fun y hy => ?_ }
  · obtain ⟨x, hx, hxy⟩ := List.exists_of_forall₂_right hrel hy
    rw [hxy.cap]
    exact h.below x hx
  · obtain ⟨x, hx, hxy⟩ := List.exists_of_forall₂_right hdds hy
    rw [(hR x y hxy).cap]
    exact h.ddsBelow x hx
  · obtain ⟨x, hx, hxy⟩ := List.exists_of_forall₂_right hdds hy
    obtain ⟨w, hw, hwz⟩ := List.exists_of_forall₂_right hrel hz
    rw [(hR x y hxy).cap, hwz.cap]
    exact h.apart x hx w hw
  · obtain ⟨x, hx, hxy⟩ := List.exists_of_forall₂_right hrel hy
    have hranges : y.dds.map (·.range) = x.dds.map (·.range) :=
      List.map_eq_of_forall₂ (fun u v huv => by
        simp only [DesignatedDataspaceInfo.range, (hR u v huv).relAddr, (hR u v huv).size]) hxy.dds
    rw [hranges, hxy.size]
    exact h.tiles x hx (hxy.managed ▸ hm)
  · obtain ⟨x, hx, hxy⟩ := List.exists_of_forall₂_right hdds hy
    exact (hR x y hxy).marks (h.marks x hx)

end LaidOut

/-- The layout of RAM sessions: also the sessions have distinct badges. -/
structure Laid (n : Nat) (r : List RamSessionComponent) : Prop where
  sessions : (r.map (·.cap.localName)).Nodup
  dataspaces : LaidOut n (dataspacesOf r)

theorem Laid.related {R : DesignatedDataspaceInfo → DesignatedDataspaceInfo → Prop} {n : Nat}
    {r r' : List RamSessionComponent} (hR : ∀ x y, R x y → SamePlace x y) (h : Laid n r)
    (hrel : RamRel R r r') : Laid n r' where
  sessions := by
    rw [List.map_eq_of_forall₂ (fun _ _ hs => by rw [hs.cap]) hrel]
    exact h.sessions
  dataspaces := h.dataspaces.related hR hrel.dataspacesOf

/-- Where sessions have distinct badges, one is changed. -/
theorem modifyCap_split {r : List RamSessionComponent} (hr : (r.map (·.cap.localName)).Nodup)
    {s : RamSessionComponent} (hs : s ∈ r) (f : RamSessionComponent → RamSessionComponent) :
    ∃ l₁ l₂, r = l₁ ++ s :: l₂ ∧ modifyCap (·.cap) s.cap f r = l₁ ++ f s :: l₂ := by
  obtain ⟨l₁, l₂, rfl⟩ := List.append_of_mem hs
  refine ⟨l₁, l₂, rfl, ?_⟩
  rw [List.map_append, List.map_cons, List.nodup_append, List.nodup_cons] at hr
  have hne₁ : ∀ x ∈ l₁, x.cap ≠ s.cap := fun x hx he =>
    hr.2.2 _ (List.mem_map_of_mem hx) _ (by simp) (congrArg (·.localName) he)
  have hne₂ : ∀ x ∈ l₂, x.cap ≠ s.cap := fun x hx he => by
    refine hr.2.1.1 ?_
    rw [← congrArg (·.localName) he]
    exact List.mem_map_of_mem hx
  unfold modifyCap
  rw [List.map_append, List.map_cons, if_pos rfl]
  congr 1
  · exact (List.map_congr_left fun x hx => if_neg (hne₁ x hx)).trans (List.map_id' l₁)
  · congr 1
    exact (List.map_congr_left fun x hx => if_neg (hne₂ x hx)).trans (List.map_id' l₂)

end Rtcr
