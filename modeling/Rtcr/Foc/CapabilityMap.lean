import Rtcr.Lib.IntrusiveList
import Rtcr.Lib.Loop

/-!
# CapabilityMap — the capability names of a component

`cap_map.cc` of the patched base-foc. A component knows a capability by
its global id; the `Capability_map` leads from the id to an index of the
component's capability space. The map is a list here, linked through the
indices themselves, so that the RTCR can add to it from outside.

The allocator of the indices is an interface (`Cap_index_allocator`), and
the capability space is the kernel's. What the code relies on is in
`CapIndexAllocator.Lawful`.
-/

namespace Rtcr

open Fallible Intrusive

/-- `Native_capability::Data`, without its list pointer. -/
structure CapData where
  refCnt : UInt8
  id : UInt16
deriving DecidableEq, Repr

/-- The constructor; `INVALID_ID` as a `uint16_t`. -/
def CapData.new : CapData := ⟨0, 0xffff⟩

/-- What `operator delete` leaves; the id is `UNUSED`. -/
def CapData.deleted : CapData := ⟨0, 0⟩

/-- `used()`. -/
def CapData.used (d : CapData) : Bool := d.id != 0

/-- `Cap_index_allocator`. -/
structure CapIndexAllocator (κ : Type) where
  /-- the index `alloc_range(1)` takes, if there is one left -/
  allocRange : (κ → CapData) → Option κ
  /-- the index at an address of the capability space; `none` stands for
  `Index_out_of_bounds` -/
  kcapToIdx : Nat → Option κ
  idxToKcap : κ → Nat
  staticIdx : κ → Bool

/-- Only unused indices are allocated, and every index has an address of
its own. -/
structure CapIndexAllocator.Lawful {κ : Type} (a : CapIndexAllocator κ) : Prop where
  unused : ∀ data i, a.allocRange data = some i → (data i).used = false
  kcap_idx : ∀ i, a.kcapToIdx (a.idxToKcap i) = some i

/-- The indices, the map, and the kernel's side: what the addresses of the
capability space refer to. -/
structure CapabilityMap (κ ω : Type) where
  data : κ → CapData
  tree : IList κ
  objects : Nat → Option ω

/-- `running`: a walk along the list has not ended yet; `assertion`:
"Double insertion in cap_map()!". -/
inductive CapMapErr
  | running
  | assertion
deriving DecidableEq, Repr

/-- `l4_task_map` with `L4_MAP_ITEM_GRANT`: the capability moves. -/
def grantCap {ω : Type} (dst src : Nat) (objects : Nat → Option ω) : Nat → Option ω :=
  Function.update (Function.update objects src none) dst (objects src)

namespace CapabilityMap

variable {κ ω : Type}

/-- No index is in use. -/
def empty (objects : Nat → Option ω) : CapabilityMap κ ω :=
  ⟨fun _ => .deleted, ⟨none, fun _ => none⟩, objects⟩

/-- The test of `find_by_id`; an `int` is cut to a `uint16_t`. -/
def hasId (id : Int) (m : CapabilityMap κ ω) (i : κ) : Bool := (m.data i).id == UInt16.ofInt id

/-- `Capability_map::find`. -/
def find (fuel : Nat) (id : Int) (m : CapabilityMap κ ω) : Except CapMapErr (Option κ) :=
  match m.tree.find fuel (m.hasId id) with
  | none => .error .running
  | some found => .ok found

section Operations

variable [DecidableEq κ] (a : CapIndexAllocator κ)

/-- `new (index) Data()`. -/
def construct (i : κ) (m : CapabilityMap κ ω) : CapabilityMap κ ω :=
  { m with data := Function.update m.data i .new, tree := m.tree.reset i }

/-- `i->id(id)`. -/
def setId (i : κ) (id : Int) (m : CapabilityMap κ ω) : CapabilityMap κ ω :=
  { m with data := Function.update m.data i { m.data i with id := .ofInt id } }

/-- A new index gets its id and goes to the front of the list. -/
def enter (i : κ) (id : Int) (m : CapabilityMap κ ω) : CapabilityMap κ ω :=
  let m := (m.construct i).setId i id
  { m with tree := m.tree.insert i }

/-- The allocation of an index anywhere, and its insertion. -/
def enterNew (id : Int) (m : CapabilityMap κ ω) : Option κ × CapabilityMap κ ω :=
  match a.allocRange m.data with
  | some i => (some i, m.enter i id)
  | none => (none, m)

/-- The allocation of the index at `kcap`, and its insertion. -/
def enterAt (id : Int) (kcap : Nat) (m : CapabilityMap κ ω) : Option κ × CapabilityMap κ ω :=
  match a.kcapToIdx kcap with
  | some i => (some i, m.enter i id)
  | none => (none, m)

/-- `_tree.remove(i)`. -/
def removeIdx (fuel : Nat) (i : κ) (m : CapabilityMap κ ω) :
    Except CapMapErr (CapabilityMap κ ω) :=
  match m.tree.remove fuel i with
  | none => .error .running
  | some tree => .ok { m with tree := tree }

/-- `Capability_map::insert(id)`. -/
def insert (fuel : Nat) (id : Int) (m : CapabilityMap κ ω) :
    Except CapMapErr (Option κ × CapabilityMap κ ω) := do
  match ← m.find fuel id with
  | some _ => .error .assertion
  | none => .ok (m.enterNew a id)

/-- `Capability_map::insert(id, kcap)`. -/
def insertAt (fuel : Nat) (id : Int) (kcap : Nat) (m : CapabilityMap κ ω) :
    Except CapMapErr (Option κ × CapabilityMap κ ω) := do
  match ← m.find fuel id with
  | some i => do
      let m ← m.removeIdx fuel i
      .ok (m.enterAt a id kcap)
  | none => .ok (m.enterAt a id kcap)

/-- A new index for the capability at `kcap`, which moves there. -/
def enterGrant (id : Int) (kcap : Nat) (m : CapabilityMap κ ω) :
    Option κ × CapabilityMap κ ω :=
  match a.allocRange m.data with
  | some i =>
      (some i, { m.enter i id with objects := grantCap (a.idxToKcap i) kcap m.objects })
  | none => (none, m)

variable [DecidableEq ω]

/-- `Capability_map::insert_map`. `l4_task_cap_equal` compares what the
two addresses refer to, `l4_task_cap_valid` asks whether it is anything. -/
def insertMap (fuel : Nat) (id : Int) (kcap : Nat) (m : CapabilityMap κ ω) :
    Except CapMapErr (Option κ × CapabilityMap κ ω) := do
  match ← m.find fuel id with
  | some i =>
      if m.objects (a.idxToKcap i) = m.objects kcap then .ok (some i, m)
      else if (m.objects (a.idxToKcap i)).isSome then
        -- a fake capability
        .ok (none, m)
      else do
        let m ← m.removeIdx fuel i
        .ok (m.enterGrant a id kcap)
  | none => .ok (m.enterGrant a id kcap)

omit [DecidableEq ω]

/-- `Capability_space::alloc_kcap`, for the index found. -/
def allocKcap (m : CapabilityMap κ ω) : Option κ × CapabilityMap κ ω :=
  match a.allocRange m.data with
  | some i => (some i, m.construct i)
  | none => (none, m)

/-- `Capability_space::free_kcap`. -/
def freeKcap (kcap : Nat) (m : CapabilityMap κ ω) : CapabilityMap κ ω :=
  match a.kcapToIdx kcap with
  | some i => { m with data := Function.update m.data i .deleted, tree := m.tree.reset i }
  | none => m

/-- `Cap_index::inc`, `Cap_index::dec`; indices of core are not counted. -/
def count (delta : UInt8) (i : κ) (m : CapabilityMap κ ω) : CapabilityMap κ ω :=
  if a.staticIdx i then m
  else
    { m with
      data := Function.update m.data i { m.data i with refCnt := (m.data i).refCnt + delta } }

end Operations

/-! ## The list and its ids -/

/-- The map holds `cells`, under different ids. -/
structure Lists (m : CapabilityMap κ ω) (cells : List κ) : Prop where
  holds : m.tree.Holds cells
  ids : (cells.map fun i => (m.data i).id).Nodup
  used : ∀ i ∈ cells, (m.data i).used = true

/-- The index is in the list. -/
def Listed (m : CapabilityMap κ ω) (i : κ) : Prop := ∃ cells, m.tree.Holds cells ∧ i ∈ cells

variable {m m' : CapabilityMap κ ω} {cells : List κ} {i : κ} {id : Int}

theorem Lists.listed_iff (h : m.Lists cells) : m.Listed i ↔ i ∈ cells := by
  constructor
  · intro ⟨cells', hholds, hi⟩
    rwa [h.holds.unique hholds]
  · intro hi
    exact ⟨cells, h.holds, hi⟩

theorem Lists.empty (objects : Nat → Option ω) :
    (CapabilityMap.empty objects : CapabilityMap κ ω).Lists [] :=
  ⟨.nil, List.nodup_nil, by simp⟩

/-- The search for a name ends, with the index of that name. -/
theorem Lists.find (h : m.Lists cells) (id : Int) {fuel : Nat} (hfuel : cells.length < fuel) :
    m.find fuel id = .ok (cells.find? (m.hasId id)) := by
  unfold CapabilityMap.find
  rw [h.holds.find _ hfuel]

theorem Lists.of_find (h : m.Lists cells) {fuel : Nat} {found : Option κ}
    (hfind : m.find fuel id = .ok found) : found = cells.find? (m.hasId id) := by
  unfold CapabilityMap.find at hfind
  split at hfind
  · cases hfind
  · rename_i hrun
    cases hfind
    exact h.holds.of_find hrun

theorem find?_hasId_eq_none (h : cells.find? (m.hasId id) = none) :
    UInt16.ofInt id ∉ cells.map fun i => (m.data i).id := by
  intro hmem
  obtain ⟨i, hi, he⟩ := List.mem_map.mp hmem
  have hno := List.find?_eq_none.mp h i hi
  exact hno (by simpa [hasId] using he)

theorem find?_hasId_eq_some (h : cells.find? (m.hasId id) = some i) :
    i ∈ cells ∧ (m.data i).id = UInt16.ofInt id := by
  refine ⟨List.mem_of_find?_eq_some h, ?_⟩
  have hp := List.find?_some h
  simpa [hasId] using hp

/-- A name in the list is found under its index. -/
theorem Lists.find?_mem (h : m.Lists cells) (hi : i ∈ cells) (hid : (m.data i).id = UInt16.ofInt id) :
    cells.find? (m.hasId id) = some i := by
  cases hfind : cells.find? (m.hasId id) with
  | none =>
      have hno := find?_hasId_eq_none hfind
      exact absurd (hid ▸ List.mem_map_of_mem (f := fun i => (m.data i).id) hi) hno
  | some j =>
      obtain ⟨hj, hjid⟩ := find?_hasId_eq_some hfind
      rw [List.inj_on_of_nodup_map h.ids hj hi (hjid.trans hid.symm)]

/-! ## What the operations do -/

section Inversion

variable [DecidableEq κ] {a : CapIndexAllocator κ} {fuel kcap : Nat} {r : Option κ}

theorem enter_data (j : κ) :
    (m.enter i id).data j = if j = i then ⟨0, .ofInt id⟩ else m.data j := by
  unfold enter setId construct
  by_cases hj : j = i
  · rw [if_pos hj, hj]
    simp [CapData.new]
  · rw [if_neg hj]
    simp [hj]

/-- A name is looked up, and taken out of the list if it is there. -/
structure Clears (fuel : Nat) (id : Int) (m m' : CapabilityMap κ ω) (found : Option κ) : Prop where
  find : m.find fuel id = .ok found
  remove : match found with
    | some i => m.removeIdx fuel i = .ok m'
    | none => m' = m

theorem removeIdx_data (h : m.removeIdx fuel i = .ok m') : m'.data = m.data := by
  unfold removeIdx at h
  split at h
  · cases h
  · cases h
    rfl

theorem Clears.data {found : Option κ} (h : Clears fuel id m m' found) : m'.data = m.data := by
  have hremove := h.remove
  cases found with
  | none => rw [show m' = m from hremove]
  | some i => exact removeIdx_data hremove

theorem insertAt_ok (h : m.insertAt a fuel id kcap = .ok (r, m')) :
    ∃ found m₁, Clears fuel id m m₁ found ∧ m₁.enterAt a id kcap = (r, m') := by
  obtain ⟨found, hfind, hrest⟩ := bind_eq_ok.mp h
  cases found with
  | some i =>
      obtain ⟨m₁, hremove, hlast⟩ := bind_eq_ok.mp hrest
      exact ⟨some i, m₁, ⟨hfind, hremove⟩, Except.ok.inj hlast⟩
  | none => exact ⟨none, m, ⟨hfind, rfl⟩, Except.ok.inj hrest⟩

/-- The id is known with the same object, or with another one, or it is
entered. -/
theorem insertMap_ok [DecidableEq ω] (h : m.insertMap a fuel id kcap = .ok (r, m')) :
    ∃ found, m.find fuel id = .ok found ∧
      ((∃ i, found = some i ∧ r = some i ∧ m' = m ∧
          m.objects (a.idxToKcap i) = m.objects kcap) ∨
        (∃ i, found = some i ∧ r = none ∧ m' = m ∧
          m.objects (a.idxToKcap i) ≠ m.objects kcap ∧ m.objects (a.idxToKcap i) ≠ none) ∨
        (∀ i, found = some i → m.objects (a.idxToKcap i) = none ∧ m.objects kcap ≠ none) ∧
          ∃ m₁, Clears fuel id m m₁ found ∧ m₁.enterGrant a id kcap = (r, m')) := by
  obtain ⟨found, hfind, hrest⟩ := bind_eq_ok.mp h
  refine ⟨found, hfind, ?_⟩
  cases found with
  | none => exact .inr (.inr ⟨nofun, m, ⟨hfind, rfl⟩, Except.ok.inj hrest⟩)
  | some i =>
      dsimp only at hrest
      by_cases hsame : m.objects (a.idxToKcap i) = m.objects kcap
      · rw [if_pos hsame] at hrest
        cases hrest
        exact .inl ⟨i, rfl, rfl, rfl, hsame⟩
      · rw [if_neg hsame] at hrest
        by_cases hvalid : (m.objects (a.idxToKcap i)).isSome = true
        · rw [if_pos hvalid] at hrest
          cases hrest
          exact .inr (.inl ⟨i, rfl, rfl, rfl, hsame, Option.isSome_iff_ne_none.mp hvalid⟩)
        · rw [if_neg hvalid] at hrest
          obtain ⟨m₁, hremove, hlast⟩ := bind_eq_ok.mp hrest
          have hgone : m.objects (a.idxToKcap i) = none := by simpa using hvalid
          refine .inr (.inr ⟨fun j hj => ?_, m₁, ⟨hfind, hremove⟩, Except.ok.inj hlast⟩)
          obtain rfl := Option.some.inj hj
          exact ⟨hgone, fun hnone => hsame (by rw [hgone, hnone])⟩

end Inversion

end CapabilityMap

end Rtcr
