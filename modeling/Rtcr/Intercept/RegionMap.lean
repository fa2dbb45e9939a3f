import Rtcr.Lib.Run
import Rtcr.Region

/-!
# RegionMap — the intercepting region map and the map behind it

`Region_map_component` forwards `attach` and `detach` to the parent's
region map and keeps one `Attached_region_info` per attachment.
`RegionMapState` puts the component and the parent's map side by side;
the parent's map is the specification the records are compared with.
-/

namespace Rtcr

structure RegionMapState where
  component : RegionMapComponent
  parent : List Region
deriving DecidableEq, Repr

/-- The page-rounded size of a region: the rest of the dataspace if no
size is asked for. -/
def actualSize (size dsSize offset : Nat) : Nat :=
  if size = 0 then alignAddr (dsSize - offset) else alignAddr size

/-- What the parent maps: the bytes that are asked for, or all that are
left of the dataspace, in as many pages as they take. -/
def mappedSize (size dsSize offset : Nat) : Nat :=
  let bytes := if size = 0 then dsSize - offset else size
  pageSize * (bytes / pageSize + if bytes % pageSize = 0 then 0 else 1)

/-- The component records as many bytes as the parent maps. -/
theorem actualSize_eq_mappedSize (size dsSize offset : Nat) :
    actualSize size dsSize offset = mappedSize size dsSize offset := by
  have hround : ∀ bytes, alignAddr bytes =
      pageSize * (bytes / pageSize + if bytes % pageSize = 0 then 0 else 1) := by
    intro bytes
    unfold alignAddr pageSize
    split <;> omega
  unfold actualSize mappedSize
  by_cases hsize : size = 0
  · simp only [if_pos hsize, hround]
  · simp only [if_neg hsize, hround]

/-- Insert a record at the head of the list. -/
def RegionMapComponent.insertRegion (info : AttachedRegionInfo) (rm : RegionMapComponent) :
    RegionMapComponent :=
  { rm with parentState :=
      { rm.parentState with attachedRegions := info :: rm.parentState.attachedRegions } }

/-- `Region_map_component::attach`, after the parent has attached the
dataspace at `addr`. -/
def RegionMapComponent.attach (rm : RegionMapComponent) (dsCap : Cap) (size dsSize offset : Nat)
    (addr : Nat) (executable bootstrapPhase : Bool) : RegionMapComponent :=
  rm.insertRegion
    { attachedDsCap := dsCap
      size := actualSize size dsSize offset
      offset := offset
      relAddr := addr
      executable := executable
      bootstrapped := bootstrapPhase }

/-- What has just been attached is found at its address. -/
theorem RegionMapComponent.find_attach (rm : RegionMapComponent) (dsCap : Cap)
    (size dsSize offset addr : Nat) (executable bootstrapPhase : Bool) :
    findAttachedByAddr addr (rm.attach dsCap size dsSize offset addr executable
      bootstrapPhase).parentState.attachedRegions =
        some ⟨dsCap, actualSize size dsSize offset, offset, addr, executable, bootstrapPhase⟩ :=
  List.find?_cons_of_pos (AttachedRegionInfo.covers_self _)

/-- Remove the record that `find_by_addr` returns, i.e. the first one
whose range test succeeds. -/
def removeAttachedByAddr (addr : Nat) (infos : List AttachedRegionInfo) :
    List AttachedRegionInfo :=
  infos.eraseP fun info => info.covers addr

/-- `Region_map_component::detach`, after the parent has detached. -/
def RegionMapComponent.detach (rm : RegionMapComponent) (localAddr : Nat) : RegionMapComponent :=
  { rm with parentState :=
      { rm.parentState with
        attachedRegions := removeAttachedByAddr localAddr rm.parentState.attachedRegions } }

/-- A call of the component's RPC interface. In `attach`, `addr` is the
address the parent chose (or was told), and `dsSize` the size of the
dataspace. -/
inductive RegionMapCall
  | attach (dsCap : Cap) (size dsSize offset addr : Nat) (executable bootstrapPhase : Bool)
  | detach (localAddr : Nat)
deriving DecidableEq, Repr

/-- What the parent demands of a call. It attaches only what does not
overlap a region it has and is not empty; `detach` is called at the start
of an attached region. -/
def RegionMapState.Permits (st : RegionMapState) : RegionMapCall → Prop
  | .attach _ size dsSize offset addr _ _ =>
      0 < mappedSize size dsSize offset ∧
        ∀ r ∈ st.parent,
          disjointRanges addr (mappedSize size dsSize offset) r.addr r.size = true
  | .detach localAddr => ∃ r ∈ st.parent, r.addr = localAddr

instance (st : RegionMapState) : DecidablePred st.Permits
  | .attach .. => inferInstanceAs (Decidable (_ ∧ _))
  | .detach localAddr => inferInstanceAs (Decidable (∃ r ∈ st.parent, r.addr = localAddr))

/-- One call, with the parent's side effect: it rounds the size to pages
itself, and its `detach` removes exactly the region that starts at the
address. -/
def RegionMapState.exec (st : RegionMapState) : RegionMapCall → RegionMapState
  | .attach dsCap size dsSize offset addr executable bootstrapPhase =>
      { component := st.component.attach dsCap size dsSize offset addr executable bootstrapPhase
        parent := ⟨dsCap, addr, mappedSize size dsSize offset, offset, executable⟩ :: st.parent }
  | .detach localAddr =>
      { component := st.component.detach localAddr
        parent := st.parent.filter fun r => r.addr ≠ localAddr }

def RegionMapStep (st : RegionMapState) (call : RegionMapCall) (st' : RegionMapState) : Prop :=
  st.Permits call ∧ st' = st.exec call

/-! ## The records mirror the parent's map -/

/-- Exactly one record for every region of the parent's map. -/
def RegionMapState.Mirrors (st : RegionMapState) : Prop :=
  (st.component.parentState.attachedRegions.map AttachedRegionInfo.toRegion).Perm st.parent

instance (st : RegionMapState) : Decidable st.Mirrors :=
  inferInstanceAs (Decidable (List.Perm _ _))

/-- What the parent guarantees about its own map. -/
def RegionMapState.ParentOk (st : RegionMapState) : Prop :=
  st.parent.Pairwise Region.Apart ∧ ∀ r ∈ st.parent, 0 < r.size

/-- No record listed before the one of the region at `addr` ends exactly
at `addr`. -/
def NoneEndsAt (addr : Nat) (infos : List AttachedRegionInfo) : Prop :=
  ∀ info ∈ infos.takeWhile fun info => info.relAddr ≠ addr, info.relAddr + info.size ≠ addr

instance (addr : Nat) (infos : List AttachedRegionInfo) : Decidable (NoneEndsAt addr infos) :=
  inferInstanceAs (Decidable (∀ info ∈ infos.takeWhile fun info => info.relAddr ≠ addr,
    info.relAddr + info.size ≠ addr))

/-- The condition on a call: a detach meets no neighbour first. -/
def DetachClear (st : RegionMapState) : RegionMapCall → Prop
  | .attach .. => True
  | .detach localAddr => NoneEndsAt localAddr st.component.parentState.attachedRegions

instance (st : RegionMapState) : DecidablePred (DetachClear st)
  | .attach .. => inferInstanceAs (Decidable True)
  | .detach localAddr =>
      inferInstanceAs (Decidable (NoneEndsAt localAddr st.component.parentState.attachedRegions))

/-- The first record that covers `addr` is the first one that starts
there, if nothing before it covers `addr`. -/
theorem removeAttachedByAddr_eq {addr : Nat} {infos : List AttachedRegionInfo}
    (hclear : ∀ info ∈ infos.takeWhile fun info => info.relAddr ≠ addr, info.covers addr = false) :
    removeAttachedByAddr addr infos = infos.eraseP fun info => info.relAddr == addr := by
  induction infos with
  | nil => rfl
  | cons info infos ih =>
      unfold removeAttachedByAddr at ih ⊢
      by_cases h : info.relAddr = addr
      · have hc : info.covers addr = true := by simp [AttachedRegionInfo.covers, h]
        rw [List.eraseP_cons_of_pos (by simpa using hc), List.eraseP_cons_of_pos (by simpa using h)]
      · rw [List.takeWhile_cons_of_pos (by simpa using h)] at hclear
        have hc := hclear info (by simp)
        rw [List.eraseP_cons_of_neg (by simp [hc]), List.eraseP_cons_of_neg (by simpa using h),
          ih fun i hi => hclear i (List.mem_cons_of_mem _ hi)]

/-- If something before the records that start at `addr` covers it, they
all stay. -/
theorem mem_removeAttachedByAddr {addr : Nat} {infos : List AttachedRegionInfo}
    {x : AttachedRegionInfo} (hx : x ∈ infos) (hxa : x.relAddr = addr)
    (hcov : ∃ info ∈ infos.takeWhile fun info => info.relAddr ≠ addr, info.covers addr = true) :
    x ∈ removeAttachedByAddr addr infos := by
  induction infos with
  | nil => simp at hx
  | cons info infos ih =>
      unfold removeAttachedByAddr at ih ⊢
      obtain ⟨y, hy, hyc⟩ := hcov
      by_cases h : info.relAddr = addr
      · rw [List.takeWhile_cons_of_neg (by simpa using h)] at hy
        simp at hy
      · have hxi : x ∈ infos := by
          rcases List.mem_cons.mp hx with rfl | hx
          · exact absurd hxa h
          · exact hx
        rw [List.takeWhile_cons_of_pos (by simpa using h)] at hy
        by_cases hc : info.covers addr = true
        · rwa [List.eraseP_cons_of_pos (by simpa using hc)]
        · rw [List.eraseP_cons_of_neg (by simpa using hc)]
          rcases List.mem_cons.mp hy with rfl | hy
          · exact absurd hyc hc
          · exact List.mem_cons_of_mem _ (ih hxi ⟨y, hy, hyc⟩)

namespace RegionMapState

variable {st : RegionMapState}

theorem ParentOk.addr_nodup (h : st.ParentOk) : (st.parent.map (·.addr)).Nodup :=
  List.pairwise_map.mpr (h.1.imp Region.Apart.addr_ne)

theorem ParentOk.apart (h : st.ParentOk) {r s : Region} (hr : r ∈ st.parent)
    (hs : s ∈ st.parent) (hne : r ≠ s) : r.Apart s :=
  h.1.forall hr hs hne

theorem ParentOk.attach (h : st.ParentOk) {r : Region} (hr : 0 < r.size)
    (hfree : ∀ s ∈ st.parent, disjointRanges r.addr r.size s.addr s.size = true) :
    ParentOk { st with parent := r :: st.parent } := by
  refine ⟨List.pairwise_cons.mpr ⟨fun s hs => ⟨hr, h.2 s hs, hfree s hs⟩, h.1⟩, fun s hs => ?_⟩
  rcases List.mem_cons.mp hs with rfl | hs
  · exact hr
  · exact h.2 s hs

/-- Which records a detach looks at before it gets to the right one. -/
theorem noneEndsAt_iff (hm : st.Mirrors) (hp : st.ParentOk) {r : Region}
    (hr : r ∈ st.parent) :
    NoneEndsAt r.addr st.component.parentState.attachedRegions ↔
      ∀ info ∈ st.component.parentState.attachedRegions.takeWhile fun info => info.relAddr ≠ r.addr,
        info.covers r.addr = false := by
  refine forall₂_congr fun info hi => ?_
  have hmem : info.toRegion ∈ st.parent :=
    hm.subset (List.mem_map_of_mem (List.takeWhile_sublist _ |>.subset hi))
  have hne : info.toRegion ≠ r := by
    have := List.mem_takeWhile_imp hi
    intro he
    rw [← he] at this
    simp [AttachedRegionInfo.toRegion] at this
  rw [ne_eq, ← Bool.not_eq_true, ← info.toRegion_covers, (hp.apart hmem hr hne).covers_iff]
  rfl

/-- **Attaching keeps the mirror**: both sides round the size alike. -/
theorem Mirrors.attach (hm : st.Mirrors) (dsCap : Cap) (size dsSize offset addr : Nat)
    (executable bootstrapPhase : Bool) :
    (st.exec (.attach dsCap size dsSize offset addr executable bootstrapPhase)).Mirrors := by
  dsimp only [exec]
  rw [← actualSize_eq_mappedSize]
  exact hm.cons _

/-- **Detaching keeps the mirror** exactly if no record before the right
one ends at the address. -/
theorem mirrors_detach_iff (hm : st.Mirrors) (hp : st.ParentOk) {r : Region}
    (hr : r ∈ st.parent) :
    Mirrors
        { component := st.component.detach r.addr
          parent := st.parent.filter fun s => s.addr ≠ r.addr } ↔
      NoneEndsAt r.addr st.component.parentState.attachedRegions := by
  rw [noneEndsAt_iff hm hp hr]
  have hnd : (st.component.parentState.attachedRegions.map (·.relAddr)).Nodup := by
    have h := (hm.map Region.addr).nodup_iff.mpr hp.addr_nodup
    rwa [List.map_map] at h
  constructor
  · -- a covering record in front is removed instead, and the right one stays
    intro h info hi
    by_contra hc
    obtain ⟨x, hx, hxr⟩ := List.mem_map.mp (hm.symm.subset hr)
    have hxa : x.relAddr = r.addr := congrArg Region.addr hxr
    have hstay := mem_removeAttachedByAddr hx hxa ⟨info, hi, by simpa using hc⟩
    have hgone := h.subset (List.mem_map_of_mem hstay)
    rw [hxr] at hgone
    simp at hgone
  · intro hclear
    change ((removeAttachedByAddr r.addr _).map _).Perm _
    rw [removeAttachedByAddr_eq hclear, List.eraseP_key _ hnd]
    have h := hm.filter fun s => decide (s.addr ≠ r.addr)
    rwa [List.filter_map] at h

/-- One call keeps the mirror and the parent's guarantees. -/
theorem mirrors_step (st : RegionMapState) (call : RegionMapCall) (st' : RegionMapState)
    (hstep : RegionMapStep st call st') (hok : DetachClear st call)
    (h : st.Mirrors ∧ st.ParentOk) : st'.Mirrors ∧ st'.ParentOk := by
  obtain ⟨hm, hp⟩ := h
  obtain ⟨hpermit, rfl⟩ := hstep
  cases call with
  | attach dsCap size dsSize offset addr executable bootstrapPhase =>
      exact ⟨hm.attach .., hp.attach hpermit.1 hpermit.2⟩
  | detach localAddr =>
      obtain ⟨r, hr, rfl⟩ := hpermit
      refine ⟨(mirrors_detach_iff hm hp hr).mpr hok, hp.1.filter _, fun s hs => ?_⟩
      exact hp.2 s (List.mem_filter.mp hs).1

/-- The component as it is created, before any call. -/
def created (component : RegionMapComponent) : RegionMapState where
  component := component.setRegions []
  parent := []

theorem created_mirrors (component : RegionMapComponent) :
    (created component).Mirrors ∧ (created component).ParentOk :=
  ⟨List.Perm.refl _, List.Pairwise.nil, fun _ h => absurd h List.not_mem_nil⟩

/-- **The records mirror the parent's region map** after every sequence
of calls in which no detach meets a neighbour that ends at its address
first. -/
theorem mirrors_of_run (component : RegionMapComponent) {st : RegionMapState}
    (h : Run RegionMapStep DetachClear (created component) st) : st.Mirrors :=
  (Run.invariant (I := fun s : RegionMapState => s.Mirrors ∧ s.ParentOk)
    (fun s a t hI hok hstep => mirrors_step s a t hstep hok hI) h
    (created_mirrors component)).1

/-- Two neighbours, attached in ascending order, the lower one detached. -/
theorem mirrors_of_ascending :
    (((((created (.bare 11)).exec (.attach ⟨50⟩ 0x1000 0x1000 0 0x1000 false false)).exec
      (.attach ⟨51⟩ 0 0x800 0 0x2000 true false)).exec (.detach 0x1000))).Mirrors :=
  mirrors_of_run (.bare 11)
    (.tail (a := .detach 0x1000)
      (.tail (a := .attach ⟨51⟩ 0 0x800 0 0x2000 true false)
        (.tail (a := .attach ⟨50⟩ 0x1000 0x1000 0 0x1000 false false) (.refl _)
          (by decide) ⟨by decide, rfl⟩)
        (by decide) ⟨by decide, rfl⟩)
      (by decide) ⟨by decide, rfl⟩)

/-- Two neighbours, the lower one attached last, the upper one detached:
the record of the lower one goes. -/
theorem neighbour_removed_instead :
    ¬∀ st, Run RegionMapStep (fun _ _ => True) (created (.bare 11)) st → st.Mirrors := by
  intro h
  have hrun := h _ <|
    .tail (a := .detach 0x2000)
      (.tail (a := .attach ⟨50⟩ 0x1000 0x1000 0 0x1000 false false)
        (.tail (a := .attach ⟨51⟩ 0x1000 0x1000 0 0x2000 false false) (.refl _)
          trivial ⟨by decide, rfl⟩)
        trivial ⟨by decide, rfl⟩)
      trivial ⟨by decide, rfl⟩
  exact absurd hrun (by decide)

end RegionMapState

end Rtcr
