import Rtcr.Restorer.Memory

/-!
# Restorer.CapMapAgree — writer, reader and installer of the capability map

`restoreCapMap_agrees`: reading back the array that `_restore_cap_map`
has written gives the recreated objects with their new badges, exactly
those `_restore_cap_space` installs, and in all other slots what was in
the array of the child.
-/

namespace Rtcr

open ByteStore Fallible

/-! ## Bytes that are written and bytes that are not -/

theorem poke_self {d i : Nat} (b : UInt8) (m : Store Nat UInt8) : poke d i b m d i = b :=
  if_pos ⟨rfl, rfl⟩

theorem poke_other {d i j : Nat} (h : j ≠ i) (b : UInt8) (m : Store Nat UInt8) :
    poke d i b m d j = m d j := if_neg fun hc => h hc.2

theorem write8_other {d pos j : Nat} (h : j ≠ pos) (v : Nat) (m : Store Nat UInt8) :
    write8 d pos v m d j = m d j := poke_other h _ _

theorem write16_other {d pos j : Nat} (h : j < pos ∨ pos + 2 ≤ j) (v : Nat)
    (m : Store Nat UInt8) : write16 d pos v m d j = m d j := by
  unfold write16
  rw [write8_other (by omega), write8_other (by omega)]

theorem write32_other {d pos j : Nat} (h : j < pos ∨ pos + 4 ≤ j) (v : Nat)
    (m : Store Nat UInt8) : write32 d pos v m d j = m d j := by
  unfold write32
  rw [write16_other (by omega), write16_other (by omega)]

/-- The two bytes of a written badge. -/
theorem write16_read {d pos v : Nat} (hv : v < 2 ^ 16) (m : Store Nat UInt8) :
    (write16 d pos v m d pos).toNat + 256 * (write16 d pos v m d (pos + 1)).toNat = v := by
  have hlow : write16 d pos v m d pos = UInt8.ofNat v := by
    unfold write16
    rw [write8_other (by omega)]
    exact poke_self ..
  have hhigh : write16 d pos v m d (pos + 1) = UInt8.ofNat (v / 2 ^ 8) := poke_self ..
  rw [hlow, hhigh, UInt8.toNat_ofNat', UInt8.toNat_ofNat']
  omega

/-! ## Badges of slots -/

/-- The badge a slot of the stored array carries. -/
def CapArrays.badge (arrays : CapArrays) (core : Core) (slot : Nat) : Nat :=
  slotBadge (core.bytes arrays.stateDs.localName) arrays.stateArray slot

theorem slotBadge_congr {byte byte' : Nat → UInt8} {array array' slot slot' : Nat}
    (h₆ : byte (array + capIndexSize * slot + 6) = byte' (array' + capIndexSize * slot' + 6))
    (h₇ : byte (array + capIndexSize * slot + 7) = byte' (array' + capIndexSize * slot' + 7)) :
    slotBadge byte array slot = slotBadge byte' array' slot' := by
  unfold slotBadge
  rw [h₆, h₇]

variable {arrays : CapArrays}

/-- One element of the list: its slot gets the badge, no other slot
changes its own. -/
theorem linkCapIndex_badge {info : CapKcapInfo} (hkcap : info.kcap ≠ 0)
    (hslot : info.kcap / pageSize < capSlots) (hbadge : info.cap.localName < 2 ^ 16)
    (x : Nat × Core) : ∃ x', linkCapIndex arrays info x = .ok x' ∧
      arrays.badge x'.2 (info.kcap / pageSize) = info.cap.localName ∧
      ∀ slot, slot ≠ info.kcap / pageSize → arrays.badge x'.2 slot = arrays.badge x.2 slot := by
  have hstep : ∃ x', linkCapIndex arrays info x = .ok x' := by
    unfold linkCapIndex
    rw [if_neg hkcap]
    dsimp only
    rw [if_pos hslot]
    exact ⟨_, rfl⟩
  obtain ⟨x', hx'⟩ := hstep
  refine ⟨x', hx', ?_⟩
  unfold linkCapIndex at hx'
  rw [if_neg hkcap] at hx'
  dsimp only at hx'
  rw [if_pos hslot, Except.ok.injEq] at hx'
  subst hx'
  -- list pointers and the reference count take the first five bytes
  have hlink : ∀ slot p v (m : Store Nat UInt8), ∀ k, k = 6 ∨ k = 7 →
      write32 arrays.stateDs.localName (arrays.stateArray + p * capIndexSize) v m
        arrays.stateDs.localName (arrays.stateArray + capIndexSize * slot + k) =
      m arrays.stateDs.localName (arrays.stateArray + capIndexSize * slot + k) := by
    intro slot p v m k hk
    refine write32_other ?_ v m
    unfold capIndexSize
    omega
  have hcount : ∀ slot v (m : Store Nat UInt8), ∀ k, k = 6 ∨ k = 7 →
      write8 arrays.stateDs.localName
        (arrays.stateArray + info.kcap / pageSize * capIndexSize + 4) v m
        arrays.stateDs.localName (arrays.stateArray + capIndexSize * slot + k) =
      m arrays.stateDs.localName (arrays.stateArray + capIndexSize * slot + k) := by
    intro slot v m k hk
    refine write8_other ?_ v m
    unfold capIndexSize
    omega
  constructor
  · unfold CapArrays.badge slotBadge
    dsimp only
    rw [hlink _ _ _ _ 6 (by omega), hlink _ _ _ _ 7 (by omega),
      Nat.mul_comm capIndexSize (info.kcap / pageSize)]
    exact write16_read hbadge _
  · intro slot hne
    have hother : ∀ v (m : Store Nat UInt8), ∀ k, k = 6 ∨ k = 7 →
        write16 arrays.stateDs.localName
          (arrays.stateArray + info.kcap / pageSize * capIndexSize + 6) v m
          arrays.stateDs.localName (arrays.stateArray + capIndexSize * slot + k) =
        m arrays.stateDs.localName (arrays.stateArray + capIndexSize * slot + k) := by
      intro v m k hk
      refine write16_other ?_ v m
      unfold capIndexSize
      omega
    refine slotBadge_congr ?_ ?_
    · dsimp only
      rw [hlink _ _ _ _ 6 (by omega), hother _ _ 6 (by omega), hcount _ _ _ 6 (by omega),
        hlink _ _ _ _ 6 (by omega)]
    · dsimp only
      rw [hlink _ _ _ _ 7 (by omega), hother _ _ 7 (by omega), hcount _ _ _ 7 (by omega),
        hlink _ _ _ _ 7 (by omega)]

/-! ## The whole list -/

/-- What the restorer may rely on about recreated objects: a kcap that is
not 0 names a slot of its own, and a badge is one that a slot can hold. -/
structure Linkable (infos : List CapKcapInfo) : Prop where
  slot : ∀ info ∈ infos, info.kcap ≠ 0 →
    info.kcap / pageSize < capSlots ∧ info.kcap % pageSize = 0
  distinct : infos.Pairwise fun a b => a.kcap ≠ 0 → b.kcap ≠ 0 → a.kcap ≠ b.kcap
  badge : ∀ info ∈ infos, info.cap.localName ≠ 0 ∧ info.cap.localName ≠ 0xffff ∧
    info.cap.localName < 2 ^ 16

theorem Linkable.tail {info : CapKcapInfo} {infos : List CapKcapInfo}
    (h : Linkable (info :: infos)) : Linkable infos where
  slot i hi := h.slot i (List.mem_cons_of_mem _ hi)
  distinct := (List.pairwise_cons.mp h.distinct).2
  badge i hi := h.badge i (List.mem_cons_of_mem _ hi)

theorem Linkable.unique {infos : List CapKcapInfo} (h : Linkable infos) {a b : CapKcapInfo}
    (ha : a ∈ infos) (hb : b ∈ infos) (hne : a.kcap ≠ 0) (he : a.kcap = b.kcap) : a = b := by
  induction infos with
  | nil => cases ha
  | cons info infos ih =>
      have hfirst := (List.pairwise_cons.mp h.distinct).1
      rcases List.mem_cons.mp ha with rfl | ha'
      · rcases List.mem_cons.mp hb with rfl | hb'
        · rfl
        · exact absurd he (hfirst b hb' hne (he ▸ hne))
      · rcases List.mem_cons.mp hb with rfl | hb'
        · exact absurd he.symm (hfirst a ha' (he ▸ hne) hne)
        · exact ih h.tail ha' hb'

/-- The element that fills the slot. -/
def linked (infos : List CapKcapInfo) (slot : Nat) : Option CapKcapInfo :=
  infos.find? fun info => info.kcap ≠ 0 ∧ info.kcap = slot * pageSize

/-- The badge of a slot after the list has been worked through. -/
def linkedBadge (infos : List CapKcapInfo) (before : Nat → Nat) (slot : Nat) : Nat :=
  match linked infos slot with
  | some info => info.cap.localName
  | none => before slot

theorem linkCapIndices_badge {infos : List CapKcapInfo} (h : Linkable infos) (x : Nat × Core) :
    ∃ x', loop (linkCapIndex arrays) infos x = .ok x' ∧
      ∀ slot, arrays.badge x'.2 slot = linkedBadge infos (arrays.badge x.2) slot := by
  induction infos generalizing x with
  | nil => exact ⟨x, rfl, fun _ => rfl⟩
  | cons info infos ih =>
      by_cases hkcap : info.kcap = 0
      · -- only a warning
        have hskip : linkCapIndex arrays info x = .ok x := by
          unfold linkCapIndex
          rw [if_pos hkcap]
        obtain ⟨x', hloop, hall⟩ := ih h.tail x
        refine ⟨x', (loop_cons_of_ok hskip).trans hloop, fun slot => ?_⟩
        rw [hall]
        unfold linkedBadge linked
        rw [List.find?_cons_of_neg (by simp [hkcap])]
      · obtain ⟨hslot, hmod⟩ := h.slot info (by simp) hkcap
        obtain ⟨x₁, hstep, hown, hothers⟩ := @linkCapIndex_badge arrays info hkcap hslot
          (h.badge info (by simp)).2.2 x
        obtain ⟨x', hloop, hall⟩ := ih h.tail x₁
        refine ⟨x', (loop_cons_of_ok hstep).trans hloop, fun slot => ?_⟩
        rw [hall]
        have hslotOf : info.kcap = info.kcap / pageSize * pageSize := by
          have := Nat.div_add_mod info.kcap pageSize
          rw [hmod, Nat.mul_comm] at this
          omega
        by_cases hs : slot = info.kcap / pageSize
        · subst hs
          -- no later element has this slot
          have hnone : linked infos (info.kcap / pageSize) = none := by
            refine List.find?_eq_none.mpr fun i hi hp => ?_
            simp only [decide_eq_true_eq] at hp
            exact (List.pairwise_cons.mp h.distinct).1 i hi hkcap hp.1 (hslotOf.trans hp.2.symm)
          unfold linkedBadge
          rw [hnone]
          unfold linked
          rw [List.find?_cons_of_pos (by simp [hkcap, ← hslotOf])]
          exact hown
        · have hne : info.kcap ≠ slot * pageSize := by
            intro he
            rw [he] at hs
            exact hs (Nat.mul_div_cancel slot (by decide)).symm
          unfold linkedBadge linked
          rw [List.find?_cons_of_neg (by simp [hne])]
          split
          · rfl
          · exact hothers slot hs

/-! ## Reading back -/

theorem mem_readCapMap {byte : Nat → UInt8} {array : Nat} {info : BadgeKcapInfo} :
    info ∈ readCapMap byte array ↔ ∃ slot < capSlots, info.kcap = slot * pageSize ∧
      info.badge = slotBadge byte array slot ∧ info.badge ≠ 0 ∧ info.badge ≠ 0xffff := by
  unfold readCapMap
  rw [List.mem_reverse, List.mem_filterMap]
  constructor
  · rintro ⟨slot, hslot, hsome⟩
    dsimp only at hsome
    split at hsome
    · rename_i hused
      cases hsome
      exact ⟨slot, List.mem_range.mp hslot, rfl, rfl, hused⟩
    · cases hsome
  · rintro ⟨slot, hslot, hkcap, hbadge, hused⟩
    refine ⟨slot, List.mem_range.mpr hslot, ?_⟩
    dsimp only
    rw [← hbadge, if_pos hused, ← hkcap]

/-- One element for a slot at most. -/
theorem readCapMap_kcaps (byte : Nat → UInt8) (array : Nat) :
    ((readCapMap byte array).map (·.kcap)).Nodup := by
  unfold readCapMap
  rw [List.map_reverse, List.nodup_reverse, List.map_filterMap]
  refine List.Nodup.filterMap ?_ List.nodup_range
  intro slot slot' kcap h h'
  simp only [Option.mem_def, Option.map_eq_some_iff] at h h'
  obtain ⟨info, hinfo, hk⟩ := h
  obtain ⟨info', hinfo', hk'⟩ := h'
  split at hinfo
  · split at hinfo'
    · cases hinfo
      cases hinfo'
      have hsame : slot * pageSize = slot' * pageSize := hk.trans hk'.symm
      exact Nat.eq_of_mul_eq_mul_right (by decide) hsame
    · cases hinfo'
  · cases hinfo

/-- The array the child has been bootstrapped with. -/
def CapArrays.original (arrays : CapArrays) (child : TargetChild) (core : Core) :
    List BadgeKcapInfo :=
  readCapMap (child.dataspaceByte core arrays.childDs) arrays.childArray

/-- The stored array, read the way the checkpointer reads it. -/
def CapArrays.decoded (arrays : CapArrays) (core : Core) : List BadgeKcapInfo :=
  readCapMap (core.bytes arrays.stateDs.localName) arrays.stateArray

/-- Writer, reader and installer agree. -/
structure CapMapAgrees (arrays : CapArrays) (child : TargetChild) (infos : List CapKcapInfo)
    (core core' : Core) : Prop where
  /-- the installed capabilities, and what the child has in other slots -/
  decoded : ∀ kcap badge, ⟨kcap, badge⟩ ∈ arrays.decoded core' ↔
    (∃ info ∈ restoreCapSpace infos, info.kcap = kcap ∧ info.cap.localName = badge) ∨
    (⟨kcap, badge⟩ ∈ arrays.original child core ∧
      ∀ info ∈ restoreCapSpace infos, info.kcap ≠ kcap)
  /-- each once -/
  once : ((arrays.decoded core').map (·.kcap)).Nodup
  /-- a badge that is in no other slot is found -/
  found : ∀ info ∈ restoreCapSpace infos,
    (∀ p ∈ arrays.decoded core', p.badge = info.cap.localName → p.kcap = info.kcap) →
    Checkpointer.findKcapByBadge info.cap.localName (arrays.decoded core') = info.kcap

theorem mem_restoreCapSpace {infos : List CapKcapInfo} {info : CapKcapInfo} :
    info ∈ restoreCapSpace infos ↔ info ∈ infos ∧ info.kcap ≠ 0 := by
  simp [restoreCapSpace]

/-- The copied array is the child's, byte by byte. -/
theorem copyCapArray_byte (child : TargetChild) (core : Core) {k : Nat} (hk : k < capArraySize) :
    (copyCapArray arrays child core).bytes arrays.stateDs.localName (arrays.stateArray + k) =
      child.dataspaceByte core arrays.childDs (arrays.childArray + k) := by
  unfold copyCapArray
  dsimp only
  rw [if_pos ⟨rfl, by omega, by omega⟩, Nat.add_sub_cancel_left]

/-- The copied array has the badges of the child's. -/
theorem copyCapArray_badge (child : TargetChild) (core : Core) {slot : Nat}
    (hslot : slot < capSlots) : arrays.badge (copyCapArray arrays child core) slot =
      slotBadge (child.dataspaceByte core arrays.childDs) arrays.childArray slot := by
  unfold capSlots at hslot
  unfold CapArrays.badge
  refine slotBadge_congr ?_ ?_
  · rw [Nat.add_assoc, Nat.add_assoc]
    refine copyCapArray_byte child core ?_
    unfold capArraySize capIndexSize capSlots
    omega
  · rw [Nat.add_assoc, Nat.add_assoc]
    refine copyCapArray_byte child core ?_
    unfold capArraySize capIndexSize capSlots
    omega

/-- What is decoded, slot by slot. -/
theorem decoded_of_badges {infos : List CapKcapInfo} (h : Linkable infos) {child : TargetChild}
    {core core' : Core}
    (hall : ∀ slot < capSlots, arrays.badge core' slot = linkedBadge infos
      (slotBadge (child.dataspaceByte core arrays.childDs) arrays.childArray) slot)
    (kcap badge : Nat) : ⟨kcap, badge⟩ ∈ arrays.decoded core' ↔
      (∃ info ∈ restoreCapSpace infos, info.kcap = kcap ∧ info.cap.localName = badge) ∨
      (⟨kcap, badge⟩ ∈ arrays.original child core ∧
        ∀ info ∈ restoreCapSpace infos, info.kcap ≠ kcap) := by
  have hlinked : ∀ slot info, linked infos slot = some info →
      info ∈ infos ∧ info.kcap ≠ 0 ∧ info.kcap = slot * pageSize := by
    intro slot info hl
    have hp := List.find?_some hl
    simp only [decide_eq_true_eq] at hp
    exact ⟨List.mem_of_find?_eq_some hl, hp⟩
  unfold CapArrays.decoded CapArrays.original
  rw [mem_readCapMap, mem_readCapMap]
  constructor
  · rintro ⟨slot, hslot, hkcap, hbadge, hused⟩
    change kcap = slot * pageSize at hkcap
    change badge = arrays.badge core' slot at hbadge
    rw [hall slot hslot] at hbadge
    unfold linkedBadge at hbadge
    split at hbadge
    · rename_i info hl
      obtain ⟨hmem, hne, hk⟩ := hlinked slot info hl
      exact .inl ⟨info, mem_restoreCapSpace.mpr ⟨hmem, hne⟩, hk.trans hkcap.symm, hbadge.symm⟩
    · rename_i hl
      refine .inr ⟨⟨slot, hslot, hkcap, hbadge, hused⟩, fun info hinfo hk => ?_⟩
      obtain ⟨hmem, hne⟩ := mem_restoreCapSpace.mp hinfo
      have hnot := List.find?_eq_none.mp hl info hmem
      simp only [decide_eq_true_eq] at hnot
      exact hnot ⟨hne, hk.trans hkcap⟩
  · rintro (⟨info, hinfo, rfl, rfl⟩ | ⟨⟨slot, hslot, hkcap, hbadge, hused⟩, hfree⟩)
    · obtain ⟨hmem, hne⟩ := mem_restoreCapSpace.mp hinfo
      obtain ⟨hslot, hmod⟩ := h.slot info hmem hne
      obtain ⟨h0, hf, -⟩ := h.badge info hmem
      have hk : info.kcap = info.kcap / pageSize * pageSize := by
        have := Nat.div_add_mod info.kcap pageSize
        rw [hmod, Nat.mul_comm] at this
        omega
      refine ⟨info.kcap / pageSize, hslot, hk, ?_, h0, hf⟩
      show info.cap.localName = arrays.badge core' (info.kcap / pageSize)
      rw [hall _ hslot]
      unfold linkedBadge
      cases hl : linked infos (info.kcap / pageSize) with
      | none =>
          have hnot := List.find?_eq_none.mp hl info hmem
          simp only [decide_eq_true_eq] at hnot
          exact absurd ⟨hne, hk⟩ hnot
      | some other =>
          obtain ⟨hmem', hne', hk'⟩ := hlinked _ other hl
          -- the slot is its own
          have hsame : other = info := h.unique hmem' hmem hne' (hk'.trans hk.symm)
          rw [hsame]
    · change kcap = slot * pageSize at hkcap
      refine ⟨slot, hslot, hkcap, ?_, hused⟩
      show badge = arrays.badge core' slot
      rw [hall slot hslot]
      unfold linkedBadge
      split
      · rename_i info hl
        obtain ⟨hmem, hne, hk⟩ := hlinked slot info hl
        exact absurd (hk.trans hkcap.symm) (hfree info (mem_restoreCapSpace.mpr ⟨hmem, hne⟩))
      · exact hbadge

/-- **Writer, reader and installer of the capability map agree.** -/
theorem restoreCapMap_agrees {g : Genode} {child : TargetChild} {st : TargetState}
    {infos : List CapKcapInfo} (core : Core) (harrays : findCapArrays g child st = .ok arrays)
    (hinfos : Linkable infos) : ∃ core', restoreCapMap g child st infos core = .ok core' ∧
      CapMapAgrees arrays child infos core core' := by
  obtain ⟨x', hloop, hall⟩ := @linkCapIndices_badge arrays infos hinfos
    (previousCapIndex ((copyCapArray arrays child core).bytes arrays.stateDs.localName)
      arrays.stateArray, copyCapArray arrays child core)
  have hrun : restoreCapMap g child st infos core = .ok x'.2 := by
    simp only [restoreCapMap, harrays, bind, Except.bind, hloop]
  have hdecoded := @decoded_of_badges arrays infos hinfos child core x'.2 fun slot hslot => by
    rw [hall slot]
    unfold linkedBadge
    rw [copyCapArray_badge child core hslot]
  refine ⟨x'.2, hrun, hdecoded, readCapMap_kcaps .., fun info hinfo honly => ?_⟩
  have hmem : ⟨info.kcap, info.cap.localName⟩ ∈ arrays.decoded x'.2 :=
    (hdecoded _ _).mpr (.inl ⟨info, hinfo, rfl, rfl⟩)
  unfold Checkpointer.findKcapByBadge
  split
  · rename_i p hfind
    obtain ⟨hp, hbadge⟩ := findByBadge_some hfind
    exact honly p hp hbadge
  · rename_i hnone
    exact absurd (List.mem_map_of_mem hmem) (findByBadge_eq_none.mp hnone)

namespace CapMapSample

def twinArrays : CapArrays where
  childDs := ⟨231⟩
  childArray := 8
  stateDs := ⟨100⟩
  stateArray := 8
  remoteChildArrayStart := 0x1008

/-- The second small child, with the badge 41 in slot 0x200 of its array
and 42 in slot 0x210. -/
def core : Core :=
  { Core.small with
    bytes := write16 231 (8 + capIndexSize * 0x200 + 6) 41
      (write16 231 (8 + capIndexSize * 0x210 + 6) 42 Core.small.bytes) }

/-- Two recreated objects, the first in place of badge 42, and one that has
no kcap. -/
def infos : List CapKcapInfo := [⟨0x210000, ⟨300⟩⟩, ⟨0, ⟨301⟩⟩, ⟨0x212000, ⟨302⟩⟩]

theorem original_probe : ⟨0x200000, 41⟩ ∈ twinArrays.original TargetChild.twin core ∧
    ⟨0x210000, 42⟩ ∈ twinArrays.original TargetChild.twin core ∧
    ∀ p ∈ twinArrays.original TargetChild.twin core, p.badge ≠ 301 := by
  decide +kernel

end CapMapSample

open CapMapSample in
/-- Badge 41 is kept, 42 has given way, and the object without a kcap is in
no slot. -/
theorem restoreCapMap_agrees_twin :
    ∃ core', restoreCapMap Genode.small TargetChild.twin RoundTripSample.checkpoint.state infos
        core = .ok core' ∧
      CapMapAgrees twinArrays TargetChild.twin infos core core' ∧
      ⟨0x200000, 41⟩ ∈ twinArrays.decoded core' ∧ ⟨0x210000, 300⟩ ∈ twinArrays.decoded core' ∧
      ⟨0x212000, 302⟩ ∈ twinArrays.decoded core' ∧ ⟨0x210000, 42⟩ ∉ twinArrays.decoded core' ∧
      ∀ p ∈ twinArrays.decoded core', p.badge ≠ 301 := by
  have hfound : (findCapArrays Genode.small TargetChild.twin
      RoundTripSample.checkpoint.state).toOption.map id = some twinArrays := by decide +kernel
  obtain ⟨x, harrays, rfl⟩ := exists_ok_of_map hfound
  have hinfos : Linkable infos := ⟨by decide, by decide, by decide⟩
  obtain ⟨core', hok, hagrees⟩ := restoreCapMap_agrees core harrays hinfos
  refine ⟨core', hok, hagrees, ?_, ?_, ?_, ?_, ?_⟩
  · exact (hagrees.decoded _ _).mpr (.inr ⟨original_probe.1, by decide⟩)
  · exact (hagrees.decoded _ _).mpr (.inl (by decide))
  · exact (hagrees.decoded _ _).mpr (.inl (by decide))
  · intro hmem
    rcases (hagrees.decoded _ _).mp hmem with hnew | ⟨-, hother⟩
    · exact absurd hnew (by decide)
    · exact hother ⟨0x210000, ⟨300⟩⟩ (by decide) rfl
  · rintro ⟨kcap, badge⟩ hmem rfl
    rcases (hagrees.decoded _ _).mp hmem with ⟨info, hinfo, -, hbadge⟩ | ⟨hold, -⟩
    · have hinstalled : ∀ i ∈ restoreCapSpace infos, i.cap.localName ≠ 301 := by decide
      exact hinstalled info hinfo hbadge
    · exact original_probe.2.2 _ hold rfl

end Rtcr
