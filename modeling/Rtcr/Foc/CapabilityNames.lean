import Rtcr.Foc.CapabilityMap
import Rtcr.Genode
import Rtcr.Lib.Loop
import Rtcr.Lib.Reconcile
import Rtcr.Lib.Simulation

/-!
# CapabilityNames — what the capability map is for

`CapNames`: a function from ids to indices. `capabilityMap_refines` says
that the linked list behaves as this function does, call by call, as long
as the calls are `CapCallOk`: ids are not 0, no index is inserted that is
in the list under another id, and none is freed that is in the list.
`insertAt_ends_iff` says that a single insertion of the second kind makes
searches run for ever.
-/

namespace Rtcr

open Fallible Intrusive Simulation

variable {κ ω : Type}

/-- The index of each id, and what the capability space refers to. -/
structure CapNames (κ ω : Type) where
  index : UInt16 → Option κ
  objects : Nat → Option ω

inductive CapCall (κ ω : Type)
  | find (id : Int)
  | insert (id : Int)
  | insertAt (id : Int) (kcap : Nat)
  | insertMap (id : Int) (kcap : Nat)
  | allocKcap
  | freeKcap (kcap : Nat)
  /-- `inc` or `dec` -/
  | count (delta : UInt8) (i : κ)
  /-- the kernel: capabilities are delegated and revoked -/
  | kernel (objects : Nat → Option ω)

/-- A call with what it returns. -/
abbrev CapEvent (κ ω : Type) := CapCall κ ω × Option κ

/-! ## Steps of the map -/

section Steps

variable [DecidableEq κ] [DecidableEq ω] (a : CapIndexAllocator κ)

inductive CapStep : CapabilityMap κ ω → CapEvent κ ω → CapabilityMap κ ω → Prop
  | find {m : CapabilityMap κ ω} {fuel : Nat} {id : Int} {r : Option κ}
      (h : m.find fuel id = .ok r) : CapStep m (.find id, r) m
  | insert {m m' : CapabilityMap κ ω} {fuel : Nat} {id : Int} {r : Option κ}
      (h : m.insert a fuel id = .ok (r, m')) : CapStep m (.insert id, r) m'
  | insertAt {m m' : CapabilityMap κ ω} {fuel : Nat} {id : Int} {kcap : Nat} {r : Option κ}
      (h : m.insertAt a fuel id kcap = .ok (r, m')) : CapStep m (.insertAt id kcap, r) m'
  | insertMap {m m' : CapabilityMap κ ω} {fuel : Nat} {id : Int} {kcap : Nat} {r : Option κ}
      (h : m.insertMap a fuel id kcap = .ok (r, m')) : CapStep m (.insertMap id kcap, r) m'
  | allocKcap (m : CapabilityMap κ ω) : CapStep m (.allocKcap, (m.allocKcap a).1) (m.allocKcap a).2
  | freeKcap (m : CapabilityMap κ ω) (kcap : Nat) : CapStep m (.freeKcap kcap, none) (m.freeKcap a kcap)
  | count (m : CapabilityMap κ ω) (delta : UInt8) (i : κ) :
      CapStep m (.count delta i, none) (m.count a delta i)
  | kernel (m : CapabilityMap κ ω) (objects : Nat → Option ω) :
      CapStep m (.kernel objects, none) { m with objects := objects }

/-- What the map relies on: ids are not 0, an index is not inserted while
it is in the list under another id, and not freed while it is in the list
at all. -/
def CapCallOk (m : CapabilityMap κ ω) : CapCall κ ω → Prop
  | .insert id => UInt16.ofInt id ≠ 0
  | .insertMap id _ => UInt16.ofInt id ≠ 0
  | .insertAt id kcap => UInt16.ofInt id ≠ 0 ∧
      ∀ i, a.kcapToIdx kcap = some i → m.Listed i → (m.data i).id = UInt16.ofInt id
  | .freeKcap kcap => ∀ i, a.kcapToIdx kcap = some i → ¬m.Listed i
  | _ => True

/-- The steps that keep to it. -/
def CapStepOk (m : CapabilityMap κ ω) (e : CapEvent κ ω) (m' : CapabilityMap κ ω) : Prop :=
  CapCallOk a m e.1 ∧ CapStep a m e m'

end Steps

/-! ## The abstract map -/

namespace CapNames

def empty (objects : Nat → Option ω) : CapNames κ ω := ⟨fun _ => none, objects⟩

def set (id : Int) (i : Option κ) (n : CapNames κ ω) : CapNames κ ω :=
  { n with index := Function.update n.index (.ofInt id) i }

/-- No id has this index. -/
def Fresh (n : CapNames κ ω) (r : Option κ) : Prop := ∀ i, r = some i → ∀ id, n.index id ≠ some i

/-- The object at `kcap` moves to the new index. -/
def grant (a : CapIndexAllocator κ) (r : Option κ) (kcap : Nat) (n : CapNames κ ω) :
    CapNames κ ω :=
  match r with
  | some i => { n with objects := grantCap (a.idxToKcap i) kcap n.objects }
  | none => n

end CapNames

inductive NamesStep (a : CapIndexAllocator κ) : CapNames κ ω → CapEvent κ ω → CapNames κ ω → Prop
  | find (n : CapNames κ ω) (id : Int) : NamesStep a n (.find id, n.index (.ofInt id)) n
  | insert {n : CapNames κ ω} {id : Int} {r : Option κ} (hnone : n.index (.ofInt id) = none)
      (hfresh : n.Fresh r) : NamesStep a n (.insert id, r) (n.set id r)
  | insertAt (n : CapNames κ ω) (id : Int) (kcap : Nat) :
      NamesStep a n (.insertAt id kcap, a.kcapToIdx kcap) (n.set id (a.kcapToIdx kcap))
  /-- the component has the capability already -/
  | insertMapSame {n : CapNames κ ω} {id : Int} {kcap : Nat} {i : κ}
      (hi : n.index (.ofInt id) = some i) (hsame : n.objects (a.idxToKcap i) = n.objects kcap) :
      NamesStep a n (.insertMap id kcap, some i) n
  /-- another object under the id of one that is still valid -/
  | insertMapFake {n : CapNames κ ω} {id : Int} {kcap : Nat} {i : κ}
      (hi : n.index (.ofInt id) = some i) (hother : n.objects (a.idxToKcap i) ≠ n.objects kcap)
      (hvalid : n.objects (a.idxToKcap i) ≠ none) : NamesStep a n (.insertMap id kcap, none) n
  /-- the id is new, or what it stood for has been revoked -/
  | insertMapNew {n : CapNames κ ω} {id : Int} {kcap : Nat} {r : Option κ}
      (hgone : ∀ i, n.index (.ofInt id) = some i →
        n.objects (a.idxToKcap i) = none ∧ n.objects kcap ≠ none) (hfresh : n.Fresh r) :
      NamesStep a n (.insertMap id kcap, r) ((n.set id r).grant a r kcap)
  | allocKcap {n : CapNames κ ω} {r : Option κ} (hfresh : n.Fresh r) :
      NamesStep a n (.allocKcap, r) n
  | freeKcap {n : CapNames κ ω} {kcap : Nat}
      (hunused : ∀ i, a.kcapToIdx kcap = some i → ∀ id, n.index id ≠ some i) :
      NamesStep a n (.freeKcap kcap, none) n
  | count (n : CapNames κ ω) (delta : UInt8) (i : κ) : NamesStep a n (.count delta i, none) n
  | kernel (n : CapNames κ ω) (objects : Nat → Option ω) :
      NamesStep a n (.kernel objects, none) { n with objects := objects }

/-! ## Refinement -/

/-- The list holds the indices of the names, each under its name. -/
structure RefinesNames (m : CapabilityMap κ ω) (n : CapNames κ ω) (cells : List κ) : Prop where
  lists : m.Lists cells
  index : ∀ id : UInt16, n.index id = cells.find? fun i => (m.data i).id == id
  objects : n.objects = m.objects

namespace CapNames

variable {n : CapNames κ ω} {id : Int}

theorem set_index (r : Option κ) (b : UInt16) :
    (n.set id r).index b = if b = UInt16.ofInt id then r else n.index b := by
  unfold set
  exact Function.update_apply ..

theorem set_set (r r' : Option κ) : (n.set id r).set id r' = n.set id r' := by
  unfold set
  rw [Function.update_idem]

theorem set_self : n.set id (n.index (.ofInt id)) = n := by
  unfold set
  rw [Function.update_eq_self]

end CapNames

section Names

variable {a : CapIndexAllocator κ} {m : CapabilityMap κ ω} {n : CapNames κ ω} {cells : List κ}
  {i : κ} {id : Int} {fuel : Nat}

namespace RefinesNames

theorem empty (objects : Nat → Option ω) :
    RefinesNames (CapabilityMap.empty objects : CapabilityMap κ ω) (.empty objects) [] :=
  ⟨.empty objects, fun _ => rfl, rfl⟩

theorem fresh_iff (h : RefinesNames m n cells) : (∀ b, n.index b ≠ some i) ↔ i ∉ cells := by
  constructor
  · intro hfresh hi
    apply hfresh (m.data i).id
    rw [h.index]
    exact Reconcile.find?_key_of_mem h.lists.ids hi
  · intro hi b hb
    rw [h.index] at hb
    exact hi (List.mem_of_find?_eq_some hb)

theorem find (h : RefinesNames m n cells) {r : Option κ} (hfind : m.find fuel id = .ok r) :
    n.index (.ofInt id) = r := by
  rw [h.index, h.lists.of_find hfind]
  rfl

/-- An index that is allocated is in no list. -/
theorem fresh (h : RefinesNames m n cells) (ha : a.Lawful) : n.Fresh (a.allocRange m.data) := by
  intro i hi
  apply h.fresh_iff.mpr
  intro hmem
  have hused := h.lists.used i hmem
  rw [ha.unused _ _ hi] at hused
  cases hused

theorem setObjects (h : RefinesNames m n cells) (objects : Nat → Option ω) :
    RefinesNames { m with objects := objects } { n with objects := objects } cells :=
  ⟨⟨h.lists.holds, h.lists.ids, h.lists.used⟩, h.index, rfl⟩

end RefinesNames

end Names

section Refinement

variable [DecidableEq κ] {a : CapIndexAllocator κ} {m m' : CapabilityMap κ ω}
  {n : CapNames κ ω} {cells : List κ} {i : κ} {id : Int} {fuel : Nat}

/-! ### The parts of the operations -/

namespace RefinesNames

/-- A new index, for a name that has none. -/
theorem enter (h : RefinesNames m n cells) (hi : i ∉ cells) (hnone : n.index (.ofInt id) = none)
    (hid : UInt16.ofInt id ≠ 0) : RefinesNames (m.enter i id) (n.set id (some i)) (i :: cells) := by
  have hsame : ∀ j ∈ cells, (m.enter i id).data j = m.data j := by
    intro j hj
    have hji : j ≠ i := fun he => hi (he ▸ hj)
    rw [CapabilityMap.enter_data, if_neg hji]
  have hself : (m.enter i id).data i = ⟨0, .ofInt id⟩ := by
    rw [CapabilityMap.enter_data, if_pos rfl]
  have hids : cells.map (fun j => ((m.enter i id).data j).id) =
      cells.map fun j => (m.data j).id :=
    List.map_congr_left fun j hj => by rw [hsame j hj]
  rw [h.index] at hnone
  refine ⟨⟨?_, ?_, ?_⟩, fun b => ?_, h.objects⟩
  · exact (h.lists.holds.reset hi).insert hi
  · rw [List.map_cons, hself, hids, List.nodup_cons]
    exact ⟨CapabilityMap.find?_hasId_eq_none hnone, h.lists.ids⟩
  · intro j hj
    rcases List.mem_cons.mp hj with rfl | hj
    · rw [hself]
      simpa [CapData.used] using hid
    · rw [hsame j hj]
      exact h.lists.used j hj
  · rw [CapNames.set_index, List.find?_cons, hself]
    by_cases hb : b = UInt16.ofInt id
    · simp [hb]
    · have hne : (UInt16.ofInt id == b) = false := by simpa using Ne.symm hb
      simp only [if_neg hb, hne]
      rw [h.index]
      apply List.find?_congr
      intro j hj
      rw [hsame j hj]

/-- The index of a name is taken out of the list. -/
theorem removeIdx (h : RefinesNames m n cells) (hi : n.index (.ofInt id) = some i)
    (hremove : m.removeIdx fuel i = .ok m') :
    RefinesNames m' (n.set id none) (cells.erase i) := by
  rw [h.index] at hi
  obtain ⟨hmem, hid⟩ := CapabilityMap.find?_hasId_eq_some hi
  unfold CapabilityMap.removeIdx at hremove
  split at hremove
  · cases hremove
  · rename_i tree hrun
    cases hremove
    refine ⟨⟨h.lists.holds.of_remove hmem hrun, ?_, ?_⟩, fun b => ?_, h.objects⟩
    · exact h.lists.ids.sublist (List.erase_sublist.map _)
    · exact fun j hj => h.lists.used j (List.mem_of_mem_erase hj)
    · have hfind := List.find?_erase_key h.lists.ids hmem b
      rw [CapNames.set_index, hfind, hid, h.index]

end RefinesNames

/-! ### Every call -/

namespace RefinesNames

/-- Data of indices outside the list may change. -/
theorem update (h : RefinesNames m n cells) (hi : i ∉ cells) (d : CapData) :
    RefinesNames { m with data := Function.update m.data i d, tree := m.tree.reset i } n cells := by
  have hsame : ∀ j ∈ cells, Function.update m.data i d j = m.data j := by
    intro j hj
    have hji : j ≠ i := fun he => hi (he ▸ hj)
    exact Function.update_of_ne hji _ _
  refine ⟨⟨h.lists.holds.reset hi, ?_, fun j hj => ?_⟩, fun b => ?_, h.objects⟩
  · have hids : cells.map (fun j => (Function.update m.data i d j).id) =
        cells.map fun j => (m.data j).id :=
      List.map_congr_left fun j hj => by rw [hsame j hj]
    rw [hids]
    exact h.lists.ids
  · show (Function.update m.data i d j).used = true
    rw [hsame j hj]
    exact h.lists.used j hj
  · rw [h.index]
    apply List.find?_congr
    intro j hj
    show _ = ((Function.update m.data i d j).id == b)
    rw [hsame j hj]

/-- Reference counts do not matter. -/
theorem count (h : RefinesNames m n cells) (delta : UInt8) :
    RefinesNames (m.count a delta i) n cells := by
  unfold CapabilityMap.count
  split
  · exact h
  · have hid : ∀ j, (Function.update m.data i
        { m.data i with refCnt := (m.data i).refCnt + delta } j).id = (m.data j).id := by
      intro j
      rw [Function.update_apply]
      split
      · rename_i hj
        rw [hj]
      · rfl
    refine ⟨⟨h.lists.holds, ?_, fun j hj => ?_⟩, fun b => ?_, h.objects⟩
    · simp only [hid]
      exact h.lists.ids
    · have hused := h.lists.used j hj
      unfold CapData.used at hused ⊢
      rw [hid]
      exact hused
    · simp only [hid]
      exact h.index b

/-- What an operation has done when it enters an index: a search, and a
removal if the name was there. -/
theorem cleared (h : RefinesNames m n cells) {found : Option κ}
    (hclears : CapabilityMap.Clears fuel id m m' found) :
    ∃ cells' ⊆ cells, RefinesNames m' (n.set id none) cells' := by
  have hindex := h.find hclears.find
  have hremove := hclears.remove
  cases found with
  | none =>
      have hsame : m' = m := hremove
      subst hsame
      refine ⟨cells, List.Subset.refl _, ?_⟩
      rw [← hindex, CapNames.set_self]
      exact h
  | some i => exact ⟨_, List.erase_subset, h.removeIdx hindex hremove⟩

/-- An index for a name that has just been cleared. -/
theorem enterCleared {cells' : List κ} (h' : RefinesNames m' (n.set id none) cells')
    (hi : i ∉ cells') (hid : UInt16.ofInt id ≠ 0) :
    RefinesNames (m'.enter i id) (n.set id (some i)) (i :: cells') := by
  have henter := h'.enter hi (by rw [CapNames.set_index, if_pos rfl]) hid
  rwa [CapNames.set_set] at henter

end RefinesNames

variable {r : Option κ} {kcap : Nat}

theorem insert_refines (ha : a.Lawful) (h : RefinesNames m n cells)
    (hid : UInt16.ofInt id ≠ 0) (hrun : m.insert a fuel id = .ok (r, m')) :
    NamesStep a n (.insert id, r) (n.set id r) ∧ ∃ cells', RefinesNames m' (n.set id r) cells' := by
  obtain ⟨found, hfind, hrest⟩ := bind_eq_ok.mp hrun
  have hindex := h.find hfind
  cases found with
  | some i => cases hrest
  | none =>
      have hstep : ∀ r, n.Fresh r → NamesStep a n (.insert id, r) (n.set id r) :=
        fun r hfresh => .insert hindex hfresh
      have hfresh := h.fresh ha
      have hlast : m.enterNew a id = (r, m') := Except.ok.inj hrest
      unfold CapabilityMap.enterNew at hlast
      split at hlast
      · rename_i i halloc
        cases hlast
        rw [halloc] at hfresh
        exact ⟨hstep _ hfresh, _, h.enter (h.fresh_iff.mp (hfresh i rfl)) hindex hid⟩
      · rename_i halloc
        cases hlast
        rw [halloc] at hfresh
        refine ⟨hstep _ hfresh, cells, ?_⟩
        rw [← hindex, CapNames.set_self]
        exact h

theorem insertAt_refines (h : RefinesNames m n cells) (hid : UInt16.ofInt id ≠ 0)
    (hok : ∀ i, a.kcapToIdx kcap = some i → m.Listed i → (m.data i).id = UInt16.ofInt id)
    (hrun : m.insertAt a fuel id kcap = .ok (r, m')) :
    NamesStep a n (.insertAt id kcap, r) (n.set id r) ∧
      ∃ cells', RefinesNames m' (n.set id r) cells' := by
  obtain ⟨found, m₁, hclears, hlast⟩ := CapabilityMap.insertAt_ok hrun
  obtain ⟨cells₁, hsub, h₁⟩ := h.cleared hclears
  have hdata := hclears.data
  unfold CapabilityMap.enterAt at hlast
  split at hlast
  · rename_i i hidx
    cases hlast
    refine ⟨hidx ▸ .insertAt n id kcap, _, h₁.enterCleared (fun hi => ?_) hid⟩
    -- an index of the list would have the id that was cleared
    have hname := hok i hidx (h.lists.listed_iff.mpr (hsub hi))
    have hnone : (n.set id none).index (.ofInt id) = none := by
      rw [CapNames.set_index, if_pos rfl]
    rw [← hname, h₁.index, hdata, List.find?_eq_none] at hnone
    exact hnone i hi (by simp)
  · rename_i hidx
    cases hlast
    exact ⟨hidx ▸ .insertAt n id kcap, cells₁, h₁⟩

variable [DecidableEq ω]

theorem insertMap_refines (ha : a.Lawful) (h : RefinesNames m n cells)
    (hid : UInt16.ofInt id ≠ 0) (hrun : m.insertMap a fuel id kcap = .ok (r, m')) :
    ∃ n', NamesStep a n (.insertMap id kcap, r) n' ∧ ∃ cells', RefinesNames m' n' cells' := by
  obtain ⟨found, hfind, hcases⟩ := CapabilityMap.insertMap_ok hrun
  have hindex := h.find hfind
  rcases hcases with ⟨i, rfl, rfl, rfl, hsame⟩ | ⟨i, rfl, rfl, rfl, hother, hvalid⟩ |
    ⟨hgone, m₁, hclears, hlast⟩
  · rw [← h.objects] at hsame
    exact ⟨n, .insertMapSame hindex hsame, cells, h⟩
  · rw [← h.objects] at hother hvalid
    exact ⟨n, .insertMapFake hindex hother hvalid, cells, h⟩
  · rw [← hindex, ← h.objects] at hgone
    obtain ⟨cells₁, hsub, h₁⟩ := h.cleared hclears
    have hfresh := h.fresh ha
    unfold CapabilityMap.enterGrant at hlast
    rw [hclears.data] at hlast
    split at hlast
    · rename_i i halloc
      cases hlast
      rw [halloc] at hfresh
      have hi : i ∉ cells₁ := fun hmem => h.fresh_iff.mp (hfresh i rfl) (hsub hmem)
      have hgrant := (h₁.enterCleared hi hid).setObjects (grantCap (a.idxToKcap i) kcap m₁.objects)
      have hobjects : m₁.objects = n.objects := h₁.objects.symm
      refine ⟨_, .insertMapNew hgone hfresh, i :: cells₁, ?_⟩
      unfold CapNames.grant
      rw [hobjects] at hgrant ⊢
      exact hgrant
    · rename_i halloc
      cases hlast
      rw [halloc] at hfresh
      exact ⟨_, .insertMapNew hgone hfresh, cells₁, h₁⟩

/-- **Every call** of the linked map is one of the abstract map, with the
same result. -/
theorem CapStepOk.refines (ha : a.Lawful) {e : CapEvent κ ω} (hstep : CapStepOk a m e m')
    (h : ∃ cells, RefinesNames m n cells) :
    ∃ n', NamesStep a n e n' ∧ ∃ cells, RefinesNames m' n' cells := by
  obtain ⟨cells, h⟩ := h
  obtain ⟨hok, hstep⟩ := hstep
  cases hstep with
  | find hrun =>
      obtain rfl := h.find hrun
      exact ⟨n, .find n _, cells, h⟩
  | insert hrun => exact ⟨_, insert_refines ha h hok hrun⟩
  | insertAt hrun => exact ⟨_, insertAt_refines h hok.1 hok.2 hrun⟩
  | insertMap hrun => exact insertMap_refines ha h hok hrun
  | allocKcap =>
      have hfresh := h.fresh ha
      unfold CapabilityMap.allocKcap
      cases halloc : a.allocRange m.data with
      | some i =>
          rw [halloc] at hfresh
          exact ⟨n, .allocKcap hfresh, cells, h.update (h.fresh_iff.mp (hfresh i rfl)) .new⟩
      | none =>
          rw [halloc] at hfresh
          exact ⟨n, .allocKcap hfresh, cells, h⟩
  | freeKcap kcap =>
      have hout : ∀ i, a.kcapToIdx kcap = some i → i ∉ cells := fun i hi hmem =>
        hok i hi (h.lists.listed_iff.mpr hmem)
      refine ⟨n, .freeKcap fun i hi => h.fresh_iff.mpr (hout i hi), cells, ?_⟩
      unfold CapabilityMap.freeKcap
      split
      · rename_i i hi
        exact h.update (hout i hi) .deleted
      · exact h
  | count delta i => exact ⟨n, .count n delta i, cells, h.count delta⟩
  | kernel objects => exact ⟨_, .kernel n objects, cells, h.setObjects objects⟩

/-- The reachable maps are refined, too. -/
theorem refined_of_steps (ha : a.Lawful) {objects : Nat → Option ω} {es : List (CapEvent κ ω)}
    (h : Steps (CapStepOk a) (.empty objects) es m) :
    ∃ n, Steps (NamesStep a) (.empty objects) es n ∧ ∃ cells, RefinesNames m n cells :=
  h.simulate_all (fun _ _ _ _ hR hstep => hstep.refines ha hR) ⟨[], .empty objects⟩

/-! ### The map and its names -/

/-- Four indices, a page of the capability space each; the first unused
one is allocated. -/
def fourIndices : CapIndexAllocator (Fin 4) where
  allocRange data := (List.finRange 4).find? fun i => !(data i).used
  kcapToIdx kcap := (List.finRange 4).find? fun i => kcap == i * 0x1000
  idxToKcap i := i * 0x1000
  staticIdx _ := false

theorem fourIndices_lawful : fourIndices.Lawful where
  unused data i h := by simpa using List.find?_some h
  kcap_idx := by decide

/-- No name yet, and a capability that has arrived at `0x9000`. -/
def arrived : CapabilityMap (Fin 4) Nat :=
  .empty (Function.update (fun _ => none) 0x9000 (some 7))

/-- The id 5 at the third index. -/
def arrivedFive : CapabilityMap (Fin 4) Nat := arrived.enter 2 5

theorem insertAt_arrived : arrived.insertAt fourIndices 2 5 0x2000 = .ok (some 2, arrivedFive) := rfl

theorem insertAt_arrived_ok : CapCallOk fourIndices arrived (.insertAt 5 0x2000) := by
  refine ⟨by decide, fun i _ hlisted => ?_⟩
  have hmem := (CapabilityMap.Lists.empty _).listed_iff.mp hlisted
  cases hmem

theorem steps_arrived :
    Steps (CapStepOk fourIndices) arrived [(.insertAt 5 0x2000, some 2)] arrivedFive :=
  .cons ⟨insertAt_arrived_ok, .insertAt insertAt_arrived⟩ (.nil _)

/-- **The linked map is a map**: as long as the ids that are inserted are
not 0, no index is inserted that is in the list under another id, and no
index is freed that is in the list (`CapCallOk`), every run of calls is
one of the abstract map, with the same results, and every search ends with
the index that the abstract map has for the id. -/
theorem capabilityMap_refines (ha : a.Lawful) {objects : Nat → Option ω}
    {es : List (CapEvent κ ω)} (h : Steps (CapStepOk a) (.empty objects) es m) :
    ∃ n, Steps (NamesStep a) (.empty objects) es n ∧ m.tree.Ends ∧
      ∃ bound, ∀ fuel > bound, ∀ id, m.find fuel id = .ok (n.index (.ofInt id)) := by
  obtain ⟨n, hn, cells, hR⟩ := refined_of_steps ha h
  refine ⟨n, hn, hR.lists.holds.ends, cells.length, fun fuel hfuel id => ?_⟩
  rw [hR.lists.find id hfuel, hR.index]
  rfl

theorem capabilityMap_refines_arrived :
    ∃ n : CapNames (Fin 4) Nat,
      Steps (NamesStep fourIndices) (.empty arrived.objects) [(.insertAt 5 0x2000, some 2)] n ∧
      arrivedFive.tree.Ends ∧
      ∃ bound, ∀ fuel > bound, ∀ id, arrivedFive.find fuel id = .ok (n.index (.ofInt id)) :=
  capabilityMap_refines fourIndices_lawful steps_arrived

/-! ### An index that is inserted twice -/

omit [DecidableEq κ] [DecidableEq ω] in
theorem RefinesNames.mem_cleared (h : RefinesNames m n cells) {cells' : List κ}
    (h' : RefinesNames m' (n.set id none) cells') (hdata : m'.data = m.data) :
    i ∈ cells' ↔ i ∈ cells ∧ (m.data i).id ≠ UInt16.ofInt id := by
  have hindex : ∀ b, b ≠ UInt16.ofInt id → (n.set id none).index b = n.index b := fun b hb => by
    rw [CapNames.set_index, if_neg hb]
  constructor
  · intro hi
    have hself := Reconcile.find?_key_of_mem h'.lists.ids hi
    rw [← h'.index, hdata] at hself
    have hne : (m.data i).id ≠ UInt16.ofInt id := by
      intro he
      rw [he, CapNames.set_index, if_pos rfl] at hself
      cases hself
    rw [hindex _ hne, h.index] at hself
    exact ⟨List.mem_of_find?_eq_some hself, hne⟩
  · intro ⟨hi, hne⟩
    have hself := Reconcile.find?_key_of_mem h.lists.ids hi
    rw [← h.index, ← hindex _ hne, h'.index] at hself
    exact List.mem_of_find?_eq_some hself

/-- **Insertion at an address**: after a run of calls that are `CapCallOk`
and one insertion of any kind, every search ends if and only if the index
there was not in the list under another id. -/
theorem insertAt_ends_iff (ha : a.Lawful) {objects : Nat → Option ω} {es : List (CapEvent κ ω)}
    (h : Steps (CapStepOk a) (.empty objects) es m)
    (hrun : m.insertAt a fuel id kcap = .ok (some i, m')) :
    m'.tree.Ends ↔ (m.Listed i → (m.data i).id = UInt16.ofInt id) := by
  obtain ⟨n, -, cells, hR⟩ := refined_of_steps ha h
  obtain ⟨found, m₁, hclears, hlast⟩ := CapabilityMap.insertAt_ok hrun
  obtain ⟨cells₁, -, hR₁⟩ := hR.cleared hclears
  have hdata := hclears.data
  have htree : m'.tree = (m₁.tree.reset i).insert i := by
    unfold CapabilityMap.enterAt at hlast
    split at hlast
    · cases hlast
      rfl
    · cases hlast
  rw [htree, IList.reset_insert_ends_iff hR₁.lists.holds, hR.mem_cleared hR₁ hdata,
    hR.lists.listed_iff]
  constructor
  · intro hno hi
    by_contra hne
    exact hno ⟨hi, hne⟩
  · intro hsame ⟨hi, hne⟩
    exact hne (hsame hi)

/-- The index at `0x2000` is inserted once more, under another id. -/
theorem insertAt_ends_iff_arrived :
    ∃ m', arrivedFive.insertAt fourIndices 3 6 0x2000 = .ok (some 2, m') ∧ ¬m'.tree.Ends := by
  have hrun : arrivedFive.insertAt fourIndices 3 6 0x2000 = .ok (some 2, arrivedFive.enter 2 6) :=
    rfl
  refine ⟨_, hrun, fun hends => ?_⟩
  have hlisted : arrivedFive.Listed 2 :=
    ⟨[2], ((CapabilityMap.Lists.empty _).holds.reset (by simp)).insert (by simp), by simp⟩
  have hsame := (insertAt_ends_iff fourIndices_lawful steps_arrived hrun).mp hends hlisted
  revert hsame
  decide +kernel

/-! ### Capabilities stay where they are -/

/-- What leaves the capability `o` under the id `b` and at index `i`: the
id is not inserted at an address, the kernel does not revoke the
capability, and it is not handed on to another id. -/
def Spares (a : CapIndexAllocator κ) (b : UInt16) (i : κ) (o : ω) : CapCall κ ω → Prop
  | .insertAt id _ => UInt16.ofInt id ≠ b
  | .insertMap _ kcap => kcap ≠ a.idxToKcap i
  | .kernel objects => objects (a.idxToKcap i) = some o
  | _ => True

/-- The id leads to the index, and the index to the object. -/
def CapNames.Bound (a : CapIndexAllocator κ) (b : UInt16) (i : κ) (o : ω) (n : CapNames κ ω) :
    Prop :=
  n.index b = some i ∧ n.objects (a.idxToKcap i) = some o

omit [DecidableEq κ] [DecidableEq ω] in
theorem NamesStep.bound (ha : a.Lawful) {n' : CapNames κ ω} {e : CapEvent κ ω} {b : UInt16} {o : ω}
    (hstep : NamesStep a n e n') (hspare : Spares a b i o e.1) (h : n.Bound a b i o) :
    n'.Bound a b i o := by
  obtain ⟨hindex, hobject⟩ := h
  cases hstep with
  | find => exact ⟨hindex, hobject⟩
  | @insert id r hnone _ =>
      refine ⟨?_, hobject⟩
      have hb : b ≠ UInt16.ofInt id := by
        rintro rfl
        rw [hnone] at hindex
        cases hindex
      rw [CapNames.set_index, if_neg hb, hindex]
  | insertAt id kcap =>
      refine ⟨?_, hobject⟩
      rw [CapNames.set_index, if_neg (Ne.symm hspare), hindex]
  | insertMapSame => exact ⟨hindex, hobject⟩
  | insertMapFake => exact ⟨hindex, hobject⟩
  | @insertMapNew id kcap r hgone hfresh =>
      have hb : b ≠ UInt16.ofInt id := by
        rintro rfl
        rw [(hgone i hindex).1] at hobject
        cases hobject
      have hset : (n.set id r).index b = some i := by
        rw [CapNames.set_index, if_neg hb, hindex]
      cases r with
      | none => exact ⟨hset, hobject⟩
      | some j =>
          refine ⟨hset, ?_⟩
          have hij : a.idxToKcap i ≠ a.idxToKcap j := by
            intro he
            have hidx := ha.kcap_idx i
            rw [he, ha.kcap_idx j] at hidx
            exact hfresh j rfl b (by rw [hindex, hidx])
          show grantCap (a.idxToKcap j) kcap n.objects (a.idxToKcap i) = some o
          unfold grantCap
          rw [Function.update_of_ne hij, Function.update_of_ne (Ne.symm hspare), hobject]
  | allocKcap => exact ⟨hindex, hobject⟩
  | freeKcap => exact ⟨hindex, hobject⟩
  | count => exact ⟨hindex, hobject⟩
  | kernel objects => exact ⟨hindex, hspare⟩

omit [DecidableEq κ] [DecidableEq ω] in
/-- What `insert_map` returns refers to what it was given. -/
theorem NamesStep.insertMap_bound {n' : CapNames κ ω} {o : ω}
    (hstep : NamesStep a n (.insertMap id kcap, some i) n') (ho : n.objects kcap = some o) :
    n'.Bound a (.ofInt id) i o := by
  cases hstep with
  | insertMapSame hi hsame => exact ⟨hi, hsame.trans ho⟩
  | insertMapNew hgone hfresh =>
      refine ⟨?_, ?_⟩
      · show (n.set id (some i)).index _ = some i
        rw [CapNames.set_index, if_pos rfl]
      · show grantCap (a.idxToKcap i) kcap n.objects (a.idxToKcap i) = some o
        unfold grantCap
        rw [Function.update_self, ho]

/-- **Delivered capabilities**: what `insert_map` has returned for a
delivered capability is found under its id ever after, and refers to the
object that was delivered, whatever other capabilities come and go. The
calls before and afterwards are `CapCallOk` (ids are not 0, no index is
inserted that is in the list under another id, none is freed that is in
the list), and those afterwards spare the id and the index. -/
theorem insertMap_kept (ha : a.Lawful) {objects : Nat → Option ω} {es es' : List (CapEvent κ ω)}
    {m₁ : CapabilityMap κ ω} {o : ω} (h : Steps (CapStepOk a) (.empty objects) es m)
    (hid : UInt16.ofInt id ≠ 0) (hrun : m.insertMap a fuel id kcap = .ok (some i, m₁))
    (ho : m.objects kcap = some o)
    (h' : Steps (fun m e m' => CapStepOk a m e m' ∧ Spares a (.ofInt id) i o e.1) m₁ es' m') :
    m'.objects (a.idxToKcap i) = some o ∧
      ∃ bound, ∀ fuel > bound, m'.find fuel id = .ok (some i) := by
  obtain ⟨n, -, cells, hR⟩ := refined_of_steps ha h
  obtain ⟨n₁, hstep, hR₁⟩ := insertMap_refines ha hR hid hrun
  have hbound : n₁.Bound a (.ofInt id) i o := hstep.insertMap_bound (by rw [hR.objects, ho])
  obtain ⟨n', ⟨cells', hR'⟩, hindex, hobject⟩ := h'.invariant
    (I := fun m => ∃ n, (∃ cells, RefinesNames m n cells) ∧ n.Bound a (.ofInt id) i o)
    (fun m e m' ⟨n, hR, hb⟩ ⟨hok, hspare⟩ => by
      obtain ⟨n', hn', hR'⟩ := hok.refines ha hR
      exact ⟨n', hR', hn'.bound ha hspare hb⟩) ⟨n₁, hR₁, hbound⟩
  refine ⟨by rw [← hR'.objects, hobject], cells'.length, fun fuel hfuel => ?_⟩
  have hfind := hR'.lists.find id hfuel
  rw [hR'.index] at hindex
  rw [hfind]
  exact congrArg Except.ok hindex

/-- Two more names come after the delivered capability. -/
theorem insertMap_kept_arrived :
    ∃ m' : CapabilityMap (Fin 4) Nat, m'.objects 0 = some 7 ∧
      ∃ bound, ∀ fuel > bound, m'.find fuel 9 = .ok (some (0 : Fin 4)) := by
  have hrun : arrivedFive.insertMap fourIndices 2 9 0x9000 =
      .ok (some 0, (arrivedFive.enterGrant fourIndices 9 0x9000).2) := rfl
  have hmore : (arrivedFive.enterGrant fourIndices 9 0x9000).2.insert fourIndices 3 4 =
      .ok (some 1, ((arrivedFive.enterGrant fourIndices 9 0x9000).2).enter 1 4) := rfl
  have hid : CapCallOk fourIndices (arrivedFive.enterGrant fourIndices 9 0x9000).2 (.insert 4) :=
    show UInt16.ofInt 4 ≠ 0 by decide
  exact ⟨_, insertMap_kept fourIndices_lawful steps_arrived (by decide) hrun rfl
    (.cons ⟨⟨hid, .insert hmore⟩, trivial⟩ (.nil _))⟩

end Refinement

end Rtcr
