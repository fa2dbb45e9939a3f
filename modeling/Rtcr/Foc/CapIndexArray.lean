import Rtcr.Foc.CapabilityNames
import Rtcr.Restorer.CapIndexList

/-!
# CapIndexArray — the capability map in the memory of the child

The RTCR does not call the capability map of the child, it works on the
array its indices lie in: the checkpointer reads ids off all slots, in
the list or not, and the restorer links slots into the list from outside.
Both are compared here with what the child's own `find` does.
-/

namespace Rtcr

open Fallible Intrusive Linked Simulation

/-! ## The scan -/

/-- A lookup in what the scan has read stops at the last slot with the
badge. -/
theorem findKcapByBadge_readCapMap {byte : Nat → UInt8} {array badge : Nat} (h0 : badge ≠ 0)
    (hinvalid : badge ≠ 0xffff) :
    Checkpointer.findKcapByBadge badge (readCapMap byte array) =
      (((List.range capSlots).reverse.find? fun slot =>
        slotBadge byte array slot == badge).map (· * pageSize)).getD 0 := by
  unfold Checkpointer.findKcapByBadge readCapMap findByBadge
  rw [← List.filterMap_reverse]
  generalize (List.range capSlots).reverse = l
  induction l with
  | nil => rfl
  | cons slot l ih =>
      by_cases hslot : slotBadge byte array slot = badge
      · have hused : slotBadge byte array slot ≠ 0 ∧ slotBadge byte array slot ≠ 0xffff := by
          rw [hslot]
          exact ⟨h0, hinvalid⟩
        rw [List.find?_cons_of_pos (by simpa using hslot),
          List.filterMap_cons_some (by dsimp only; rw [if_pos hused]),
          List.find?_cons_of_pos (by simpa using hslot)]
        rfl
      · rw [List.find?_cons_of_neg (by simpa using hslot)]
        by_cases hused : slotBadge byte array slot ≠ 0 ∧ slotBadge byte array slot ≠ 0xffff
        · rw [List.filterMap_cons_some (by dsimp only; rw [if_pos hused]),
            List.find?_cons_of_neg (by simpa using hslot)]
          exact ih
        · rw [List.filterMap_cons_none (by dsimp only; rw [if_neg hused])]
          exact ih

/-! ## Indices that stay behind -/

section Tidy

variable {κ ω : Type}

/-- The id that a call enters. -/
def CapCall.name : CapCall κ ω → Option UInt16
  | .insert id => some (.ofInt id)
  | .insertAt id _ => some (.ofInt id)
  | .insertMap id _ => some (.ofInt id)
  | _ => none

/-- Nothing is taken out of the list: an id is not entered at an address
while it is listed under another one, nor again after its capability has
been revoked. -/
def RemovesNone (a : CapIndexAllocator κ) (m : CapabilityMap κ ω) : CapCall κ ω → Prop
  | .insertAt id kcap => ∀ j, m.Listed j → (m.data j).id = UInt16.ofInt id → a.kcapToIdx kcap = some j
  | .insertMap id kcap => ∀ j, m.Listed j → (m.data j).id = UInt16.ofInt id →
      m.objects kcap ≠ none → m.objects (a.idxToKcap j) ≠ none
  | _ => True

/-- An index with an id is the one that the id stands for. -/
def CapNames.Tidy (m : CapabilityMap κ ω) (n : CapNames κ ω) : Prop :=
  ∀ j, (m.data j).id ≠ 0 → (m.data j).id ≠ 0xffff → n.index (m.data j).id = some j

variable {a : CapIndexAllocator κ} {m m' : CapabilityMap κ ω} {n n' : CapNames κ ω}
  {cells : List κ} {c : CapCall κ ω} {r : Option κ} {b : UInt16} {i j : κ}

/-- The id that a call has entered stands for the index it returns. -/
theorem NamesStep.index_entered (hstep : NamesStep a n (c, r) n') (hname : c.name = some b)
    (hr : r = some j) : n'.index b = some j := by
  cases hstep with
  | find => cases hname
  | insert =>
      cases hname
      rw [CapNames.set_index, if_pos rfl, hr]
  | insertAt =>
      cases hname
      rw [CapNames.set_index, if_pos rfl, hr]
  | insertMapSame hi =>
      cases hname
      rw [hi, hr]
  | insertMapFake => cases hr
  | insertMapNew =>
      cases hname
      subst hr
      show (n.set _ (some j)).index _ = some j
      rw [CapNames.set_index, if_pos rfl]
  | allocKcap => cases hname
  | freeKcap => cases hname
  | count => cases hname
  | kernel => cases hname

/-- What an id stands for, it stands for afterwards. -/
theorem NamesStep.index_kept (hstep : NamesStep a n (c, r) n') (hR : RefinesNames m n cells)
    (hkept : RemovesNone a m c) (h : n.index b = some j) : n'.index b = some j := by
  have hlisted : ∀ id : Int, b = UInt16.ofInt id → m.Listed j ∧ (m.data j).id = UInt16.ofInt id := by
    rintro id rfl
    rw [hR.index] at h
    obtain ⟨hj, hid⟩ := CapabilityMap.find?_hasId_eq_some h
    exact ⟨hR.lists.listed_iff.mpr hj, hid⟩
  cases hstep with
  | find => exact h
  | @insert id r hnone _ =>
      have hb : b ≠ UInt16.ofInt id := by
        rintro rfl
        rw [hnone] at h
        cases h
      rw [CapNames.set_index, if_neg hb, h]
  | insertAt id kcap =>
      rw [CapNames.set_index]
      by_cases hb : b = UInt16.ofInt id
      · obtain ⟨hj, hid⟩ := hlisted id hb
        rw [if_pos hb, hkept j hj hid]
      · rw [if_neg hb, h]
  | insertMapSame => exact h
  | insertMapFake => exact h
  | @insertMapNew id kcap r hgone _ =>
      have hb : b ≠ UInt16.ofInt id := by
        intro hb
        obtain ⟨hj, hid⟩ := hlisted id hb
        obtain ⟨hrevoked, hvalid⟩ := hgone j (hb ▸ h)
        rw [hR.objects] at hrevoked hvalid
        exact hkept j hj hid hvalid hrevoked
      have hset : (n.set id r).index b = some j := by
        rw [CapNames.set_index, if_neg hb, h]
      cases r with
      | none => exact hset
      | some i => exact hset
  | allocKcap => exact h
  | freeKcap => exact h
  | count => exact h
  | kernel => exact h

variable [DecidableEq κ]

theorem CapabilityMap.enter_id {id : Int} (h : ((m.enter i id).data j).id ≠ (m.data j).id) :
    j = i ∧ ((m.enter i id).data j).id = UInt16.ofInt id := by
  rw [enter_data] at h ⊢
  by_cases hj : j = i
  · rw [if_pos hj]
    exact ⟨hj, rfl⟩
  · rw [if_neg hj] at h
    exact absurd rfl h

variable [DecidableEq ω]

/-- An id has changed where an index was updated. -/
theorem update_id {data : κ → CapData} {d : CapData}
    (h : (Function.update data i d j).id ≠ (data j).id) :
    j = i ∧ (Function.update data i d j).id = d.id := by
  by_cases hj : j = i
  · rw [hj, Function.update_self]
    exact ⟨rfl, rfl⟩
  · rw [Function.update_of_ne hj] at h
    exact absurd rfl h

/-- **Ids change** where a call enters one, and where an index is
allocated or freed. -/
theorem CapStep.id_changed (hstep : CapStep a m (c, r) m') (h : (m'.data j).id ≠ (m.data j).id) :
    (m'.data j).id = 0 ∨ (m'.data j).id = 0xffff ∨
      r = some j ∧ c.name = some (m'.data j).id := by
  cases hstep with
  | find => exact absurd rfl h
  | insert hrun =>
      obtain ⟨found, -, hrest⟩ := bind_eq_ok.mp hrun
      cases found with
      | some i => cases hrest
      | none =>
          have hlast := Except.ok.inj hrest
          unfold CapabilityMap.enterNew at hlast
          split at hlast
          · cases hlast
            obtain ⟨rfl, hid⟩ := CapabilityMap.enter_id h
            exact .inr (.inr ⟨rfl, congrArg some hid.symm⟩)
          · cases hlast
            exact absurd rfl h
  | insertAt hrun =>
      obtain ⟨found, m₁, hclears, hlast⟩ := CapabilityMap.insertAt_ok hrun
      rw [← hclears.data] at h
      unfold CapabilityMap.enterAt at hlast
      split at hlast
      · cases hlast
        obtain ⟨rfl, hid⟩ := CapabilityMap.enter_id h
        exact .inr (.inr ⟨rfl, congrArg some hid.symm⟩)
      · cases hlast
        exact absurd rfl h
  | insertMap hrun =>
      obtain ⟨found, -, hcases⟩ := CapabilityMap.insertMap_ok hrun
      rcases hcases with ⟨-, -, -, rfl, -⟩ | ⟨-, -, -, rfl, -⟩ | ⟨-, m₁, hclears, hlast⟩
      · exact absurd rfl h
      · exact absurd rfl h
      · rw [← hclears.data] at h
        unfold CapabilityMap.enterGrant at hlast
        split at hlast
        · cases hlast
          obtain ⟨rfl, hid⟩ := CapabilityMap.enter_id h
          exact .inr (.inr ⟨rfl, congrArg some hid.symm⟩)
        · cases hlast
          exact absurd rfl h
  | allocKcap =>
      unfold CapabilityMap.allocKcap at h ⊢
      split at h
      · obtain ⟨-, hid⟩ := update_id h
        exact .inr (.inl hid)
      · exact absurd rfl h
  | freeKcap =>
      unfold CapabilityMap.freeKcap at h ⊢
      split at h
      · obtain ⟨-, hid⟩ := update_id h
        exact .inl hid
      · exact absurd rfl h
  | count delta i =>
      unfold CapabilityMap.count at h
      split at h
      · exact absurd rfl h
      · obtain ⟨rfl, hid⟩ := update_id h
        exact absurd hid h
  | kernel => exact absurd rfl h

/-- One call that takes nothing out of the list. -/
theorem CapStepOk.tidy (ha : a.Lawful) {e : CapEvent κ ω} (hstep : CapStepOk a m e m')
    (hkept : RemovesNone a m e.1)
    (h : ∃ n, (∃ cells, RefinesNames m n cells) ∧ n.Tidy m) :
    ∃ n, (∃ cells, RefinesNames m' n cells) ∧ n.Tidy m' := by
  obtain ⟨n, ⟨cells, hR⟩, htidy⟩ := h
  obtain ⟨n', hn', hR'⟩ := hstep.refines ha ⟨cells, hR⟩
  refine ⟨n', hR', fun j h0 hinvalid => ?_⟩
  by_cases hid : (m'.data j).id = (m.data j).id
  · rw [hid] at h0 hinvalid ⊢
    exact hn'.index_kept hR hkept (htidy j h0 hinvalid)
  · rcases hstep.2.id_changed hid with hdel | hnew | ⟨hr, hname⟩
    · exact absurd hdel h0
    · exact absurd hnew hinvalid
    · exact hn'.index_entered hname hr

/-- The maps of a run that takes nothing out of the list. -/
theorem tidy_of_steps (ha : a.Lawful) {objects : Nat → Option ω} {es : List (CapEvent κ ω)}
    (h : Steps (fun m e m' => CapStepOk a m e m' ∧ RemovesNone a m e.1) (.empty objects) es m) :
    ∃ n, (∃ cells, RefinesNames m n cells) ∧ n.Tidy m :=
  h.invariant (I := fun m => ∃ n, (∃ cells, RefinesNames m n cells) ∧ n.Tidy m)
    (fun _ _ _ hI hstep => hstep.1.tidy ha hstep.2 hI)
    ⟨.empty objects, ⟨[], .empty objects⟩, fun _ h0 => absurd rfl h0⟩

end Tidy

/-! ## The scan finds what the child finds -/

section Scan

variable {ω : Type} {a : CapIndexAllocator (Fin capSlots)} {m m' : CapabilityMap (Fin capSlots) ω}
  {n : CapNames (Fin capSlots) ω} {byte : Nat → UInt8} {array : Nat} {id : Int}
  {i j : Fin capSlots}

/-- The ids are in the slots of the array. -/
def HoldsIds (byte : Nat → UInt8) (array : Nat) (m : CapabilityMap (Fin capSlots) ω) : Prop :=
  ∀ s : Fin capSlots, slotBadge byte array s = (m.data s).id.toNat

theorem HoldsIds.slotBadge_eq (h : HoldsIds byte array m) (s : Fin capSlots) (b : UInt16) :
    slotBadge byte array s = b.toNat ↔ (m.data s).id = b := by
  rw [h s]
  exact UInt16.toNat_inj

/-- The scan finds the last slot with an id. -/
theorem HoldsIds.findKcapByBadge (h : HoldsIds byte array m) {b : UInt16} (h0 : b ≠ 0)
    (hinvalid : b ≠ 0xffff) (hi : (m.data i).id = b)
    (hlast : ∀ j, (m.data j).id = b → j ≤ i) :
    Checkpointer.findKcapByBadge b.toNat (readCapMap byte array) = i * pageSize := by
  have hb0 : b.toNat ≠ 0 := fun he => h0 (UInt16.toNat_inj.mp he)
  have hbinvalid : b.toNat ≠ 0xffff := fun he => hinvalid (UInt16.toNat_inj.mp he)
  rw [findKcapByBadge_readCapMap hb0 hbinvalid, List.find?_reverse_range i.isLt]
  · rfl
  · exact beq_iff_eq.mpr ((h.slotBadge_eq i b).mpr hi)
  · intro t hit ht
    rw [beq_eq_false_iff_ne]
    intro he
    have hle : (⟨t, ht⟩ : Fin capSlots) ≤ i := hlast ⟨t, ht⟩ ((h.slotBadge_eq ⟨t, ht⟩ b).mp he)
    exact absurd (Fin.le_def.mp hle) (by simpa using hit)

theorem HoldsIds.findKcapByBadge_none (h : HoldsIds byte array m) {b : UInt16} (h0 : b ≠ 0)
    (hinvalid : b ≠ 0xffff) (hnone : ∀ j, (m.data j).id ≠ b) :
    Checkpointer.findKcapByBadge b.toNat (readCapMap byte array) = 0 := by
  have hb0 : b.toNat ≠ 0 := fun he => h0 (UInt16.toNat_inj.mp he)
  have hbinvalid : b.toNat ≠ 0xffff := fun he => hinvalid (UInt16.toNat_inj.mp he)
  rw [findKcapByBadge_readCapMap hb0 hbinvalid]
  have hfind : ((List.range capSlots).reverse.find? fun slot =>
      slotBadge byte array slot == b.toNat) = none := by
    rw [List.find?_eq_none]
    intro t ht he
    have hlt : t < capSlots := List.mem_range.mp (List.mem_reverse.mp ht)
    exact hnone ⟨t, hlt⟩ ((h.slotBadge_eq ⟨t, hlt⟩ b).mp (beq_iff_eq.mp he))
  rw [hfind]
  rfl

theorem CapNames.Tidy.unique (h : n.Tidy m) {b : UInt16} (h0 : b ≠ 0) (hinvalid : b ≠ 0xffff)
    (hi : (m.data i).id = b) : n.index b = some i := by
  rw [← hi] at h0 hinvalid ⊢
  exact h i h0 hinvalid

/-! ### A map in an array -/

/-- The first unused slot, from `slot` on. -/
def firstUnused (data : Fin capSlots → CapData) : Nat → Nat → Option (Fin capSlots)
  | 0, _ => none
  | fuel + 1, slot =>
      if h : slot < capSlots then
        if (data ⟨slot, h⟩).used then firstUnused data fuel (slot + 1) else some ⟨slot, h⟩
      else none

theorem firstUnused_unused {data : Fin capSlots → CapData} {fuel slot : Nat} {i : Fin capSlots}
    (h : firstUnused data fuel slot = some i) : (data i).used = false := by
  induction fuel generalizing slot with
  | zero => cases h
  | succ fuel ih =>
      unfold firstUnused at h
      split at h
      · split at h
        · exact ih h
        · rename_i hunused
          cases h
          simpa using hunused
      · cases h

/-- Every slot stands for a page of the capability space. -/
def slotAllocator : CapIndexAllocator (Fin capSlots) where
  allocRange data := firstUnused data capSlots 0x200
  kcapToIdx kcap :=
    if h : kcap % pageSize = 0 ∧ kcap / pageSize < capSlots then some ⟨kcap / pageSize, h.2⟩ else none
  idxToKcap s := s * pageSize
  staticIdx s := decide ((s : Nat) < 0x200)

theorem slotAllocator_lawful : slotAllocator.Lawful where
  unused _ _ h := firstUnused_unused h
  kcap_idx s := by
    have hs : (s : Nat) * pageSize % pageSize = 0 ∧ (s : Nat) * pageSize / pageSize < capSlots := by
      refine ⟨Nat.mul_mod_left .., ?_⟩
      rw [Nat.mul_div_cancel _ (by decide)]
      exact s.isLt
    have hidx : (s : Nat) * pageSize / pageSize = s := Nat.mul_div_cancel _ (by decide)
    refine (dif_pos hs).trans ?_
    exact congrArg some (Fin.ext hidx)

/-- The bytes of an index, with the id only. -/
def idByte (id : UInt16) (k : Nat) : UInt8 :=
  if k = 6 then .ofNat (id.toNat % 256) else if k = 7 then .ofNat (id.toNat / 256) else 0

/-- An array at address 0. -/
def idBytes {ω : Type} (m : CapabilityMap (Fin capSlots) ω) (pos : Nat) : UInt8 :=
  if h : pos / capIndexSize < capSlots then
    idByte (m.data ⟨pos / capIndexSize, h⟩).id (pos % capIndexSize)
  else 0

theorem idBytes_slot {ω : Type} (m : CapabilityMap (Fin capSlots) ω) (s : Fin capSlots) {k : Nat}
    (hk : k < capIndexSize) :
    idBytes m (0 + capIndexSize * s + k) = idByte (m.data s).id k := by
  have hdiv : (0 + capIndexSize * s + k) / capIndexSize = s := by
    unfold capIndexSize at *
    omega
  have hmod : (0 + capIndexSize * s + k) % capIndexSize = k := by
    unfold capIndexSize at *
    omega
  have hs : (0 + capIndexSize * s + k) / capIndexSize < capSlots := by
    rw [hdiv]
    exact s.isLt
  unfold idBytes
  rw [dif_pos hs, hmod]
  congr 3
  exact Fin.ext hdiv

theorem holdsIds_idBytes {ω : Type} (m : CapabilityMap (Fin capSlots) ω) :
    HoldsIds (idBytes m) 0 m := by
  intro s
  have hid := (m.data s).id.toNat_lt
  unfold slotBadge
  rw [idBytes_slot m s (by decide), idBytes_slot m s (by decide)]
  show (UInt8.ofNat ((m.data s).id.toNat % 256)).toNat +
    256 * (UInt8.ofNat ((m.data s).id.toNat / 256)).toNat = _
  rw [UInt8.toNat_ofNat', UInt8.toNat_ofNat']
  omega

/-- A capability at the address of slot 0x201. -/
def owned : CapabilityMap (Fin capSlots) Nat :=
  .empty (Function.update (fun _ => none) 0x201000 (some 7))

/-- It is known as 9. -/
def ownedNine : CapabilityMap (Fin capSlots) Nat := owned.enter CapListSample.second 9

theorem steps_owned :
    Steps (fun m e m' => CapStepOk slotAllocator m e m' ∧ RemovesNone slotAllocator m e.1) owned
      [(.insertAt 9 0x201000, some CapListSample.second)] ownedNine := by
  have hnone : ∀ s, ¬owned.Listed s := by
    intro s hlisted
    have hmem := (CapabilityMap.Lists.empty _).listed_iff.mp hlisted
    cases hmem
  have hrun : owned.insertAt slotAllocator 1 9 0x201000 =
      .ok (some CapListSample.second, ownedNine) := rfl
  refine .cons ⟨⟨⟨by decide, fun s _ hs => absurd hs (hnone s)⟩, .insertAt hrun⟩, ?_⟩ (.nil _)
  exact fun s hs => absurd hs (hnone s)

/-! ### Searches and scans -/

variable [DecidableEq ω]

/-- **The checkpointer sees what the child sees**: as long as the calls
are `CapCallOk` and nothing has been taken out of the list, the scan over
all slots finds for every id
the address of the index that the child's search ends with, and address 0
for an id that the child does not have. -/
theorem find_scanned (ha : a.Lawful) (hkcap : ∀ s, a.idxToKcap s = s * pageSize)
    {objects : Nat → Option ω} {es : List (CapEvent (Fin capSlots) ω)}
    (h : Steps (fun m e m' => CapStepOk a m e m' ∧ RemovesNone a m e.1) (.empty objects) es m)
    (hbytes : HoldsIds byte array m) (h0 : UInt16.ofInt id ≠ 0)
    (hinvalid : UInt16.ofInt id ≠ 0xffff) :
    ∃ bound, ∀ fuel > bound, ∃ found, m.find fuel id = .ok found ∧
      Checkpointer.findKcapByBadge (UInt16.ofInt id).toNat (readCapMap byte array) =
        (found.map a.idxToKcap).getD 0 := by
  obtain ⟨n, ⟨cells, hR⟩, htidy⟩ := tidy_of_steps ha h
  refine ⟨cells.length, fun fuel hfuel => ⟨_, hR.lists.find id hfuel, ?_⟩⟩
  cases hfind : cells.find? (m.hasId id) with
  | some i =>
      obtain ⟨-, hid⟩ := CapabilityMap.find?_hasId_eq_some hfind
      have hi := htidy.unique h0 hinvalid hid
      rw [hbytes.findKcapByBadge h0 hinvalid hid]
      · exact (hkcap i).symm
      · intro j hj
        have hij := htidy.unique h0 hinvalid hj
        rw [hi] at hij
        exact le_of_eq (Option.some.inj hij).symm
  | none =>
      refine hbytes.findKcapByBadge_none h0 hinvalid fun j hj => ?_
      have hindex := htidy.unique h0 hinvalid hj
      rw [hR.index] at hindex
      exact absurd (hindex.symm.trans hfind) nofun

theorem find_scanned_owned :
    ∃ bound, ∀ fuel > bound, ∃ found, ownedNine.find fuel 9 = .ok found ∧
      Checkpointer.findKcapByBadge 9 (readCapMap (idBytes ownedNine) 0) =
        (found.map slotAllocator.idxToKcap).getD 0 :=
  find_scanned slotAllocator_lawful (fun _ => rfl) steps_owned (holdsIds_idBytes _) (by decide)
    (by decide)

/-- **After a revocation**: when a capability is delivered under the id of
one that has been revoked, the scan finds the new index only if it lies
behind the old one, which keeps its id. Nothing has been taken out of the
list before (`RemovesNone`): it is the first index to be replaced. -/
theorem replaced_scanned_iff (ha : a.Lawful) (hkcap : ∀ s, a.idxToKcap s = s * pageSize)
    {objects : Nat → Option ω} {es : List (CapEvent (Fin capSlots) ω)}
    (h : Steps (fun m e m' => CapStepOk a m e m' ∧ RemovesNone a m e.1) (.empty objects) es m)
    (h0 : UInt16.ofInt id ≠ 0) (hinvalid : UInt16.ofInt id ≠ 0xffff)
    (hj : m.Listed j) (hid : (m.data j).id = UInt16.ofInt id)
    (hrevoked : m.objects (a.idxToKcap j) = none) {fuel kcap : Nat} (hvalid : m.objects kcap ≠ none)
    (hrun : m.insertMap a fuel id kcap = .ok (some i, m')) (hbytes : HoldsIds byte array m') :
    Checkpointer.findKcapByBadge (UInt16.ofInt id).toNat (readCapMap byte array) = a.idxToKcap i ↔
      j < i := by
  obtain ⟨n, ⟨cells, hR⟩, htidy⟩ := tidy_of_steps ha h
  have hindex := htidy.unique h0 hinvalid hid
  obtain ⟨found, hfind, hcases⟩ := CapabilityMap.insertMap_ok hrun
  obtain rfl : found = some j := (hR.find hfind).symm.trans hindex
  have hgrant : ∃ m₁, CapabilityMap.Clears fuel id m m₁ (some j) ∧
      m₁.enterGrant a id kcap = (some i, m') := by
    rcases hcases with ⟨k, hk, -, -, hsame⟩ | ⟨-, -, hnone, -⟩ | ⟨-, hnew⟩
    · obtain rfl := Option.some.inj hk
      exact absurd (hsame.symm.trans hrevoked) hvalid
    · cases hnone
    · exact hnew
  obtain ⟨m₁, hclears, hlast⟩ := hgrant
  have hdata := hclears.data
  have hfresh := hR.fresh ha
  unfold CapabilityMap.enterGrant at hlast
  rw [hdata] at hlast
  split at hlast
  · rename_i k halloc
    cases hlast
    have hij : j ≠ i := by
      rintro rfl
      rw [halloc] at hfresh
      exact hfresh j rfl _ hindex
    have hids : ∀ k, ((m₁.enter i id).data k).id = UInt16.ofInt id ↔ k = i ∨ k = j := by
      intro k
      rw [CapabilityMap.enter_data, hdata]
      by_cases hk : k = i
      · rw [if_pos hk]
        exact ⟨fun _ => .inl hk, fun _ => rfl⟩
      · rw [if_neg hk]
        constructor
        · intro hkid
          have hkindex := htidy.unique h0 hinvalid hkid
          rw [hindex] at hkindex
          exact .inr (Option.some.inj hkindex).symm
        · intro hkj
          rw [hkj.resolve_left hk, hid]
    have hscan : ∀ k, (k = i ∨ k = j) → i ≤ k → j ≤ k →
        Checkpointer.findKcapByBadge (UInt16.ofInt id).toNat (readCapMap byte array) =
          k * pageSize := by
      intro k hk hik hjk
      refine hbytes.findKcapByBadge h0 hinvalid ((hids k).mpr hk) fun l hl => ?_
      rcases (hids l).mp hl with rfl | rfl
      · exact hik
      · exact hjk
    rw [hkcap]
    rcases lt_or_gt_of_ne hij with hlt | hgt
    · rw [hscan i (.inl rfl) le_rfl hlt.le]
      exact ⟨fun _ => hlt, fun _ => rfl⟩
    · rw [hscan j (.inr rfl) hgt.le le_rfl]
      constructor
      · intro he
        exact absurd (Fin.ext (Nat.eq_of_mul_eq_mul_right (by decide) he)) hij
      · intro hlt
        exact absurd hlt hgt.asymm
  · cases hlast

/-- The capability has been revoked, and another one has arrived. -/
def ownedOther : CapabilityMap (Fin capSlots) Nat :=
  { ownedNine with objects := Function.update (fun _ => none) 0x1000000 (some 8) }

theorem steps_ownedOther :
    Steps (fun m e m' => CapStepOk slotAllocator m e m' ∧ RemovesNone slotAllocator m e.1) owned
      [(.insertAt 9 0x201000, some CapListSample.second), (.kernel ownedOther.objects, none)]
      ownedOther :=
  steps_owned.append (.cons ⟨⟨trivial, .kernel ownedNine ownedOther.objects⟩, trivial⟩ (.nil _))

/-- The new one gets slot 0x200, and the scan goes past it. -/
theorem replaced_scanned_iff_owned :
    ∃ i m', ownedOther.insertMap slotAllocator 2 9 0x1000000 = .ok (some i, m') ∧
      Checkpointer.findKcapByBadge 9 (readCapMap (idBytes m') 0) ≠ slotAllocator.idxToKcap i := by
  obtain ⟨m', hrun⟩ : ∃ m', ownedOther.insertMap slotAllocator 2 9 0x1000000 =
      .ok (some ⟨0x200, by decide⟩, m') := ⟨_, rfl⟩
  have hlisted : ownedOther.Listed CapListSample.second :=
    ⟨[_], ((CapabilityMap.Lists.empty _).holds.reset (by simp)).insert (by simp), by simp⟩
  refine ⟨_, m', hrun, fun hscan => ?_⟩
  have hlt := (replaced_scanned_iff slotAllocator_lawful (fun _ => rfl) steps_ownedOther (by decide)
    (by decide) hlisted (by decide +kernel) rfl (by decide) hrun (holdsIds_idBytes _)).mp hscan
  exact absurd hlt (by decide)

end Scan

end Rtcr
