import Rtcr.Lib.Linked
import Rtcr.Restorer.CapMapAgree

/-!
# Restorer.CapIndexList — the list inside the capability array

The child finds its capabilities by following the list pointers of the
array's elements (`Cap_index::find_by_id`). `_restore_cap_map` works on
the bytes of a copy of the array; `slots` reads them as elements, and one
turn of its loop is one insertion into the list.
-/

namespace Rtcr

open ByteStore Fallible Linked

/-! ## Elements -/

/-- `Cap_index`, an element of the array. -/
@[ext]
structure CapIndex where
  /-- list pointer, valid in the address space of the child; 0: null -/
  link : Nat
  refCount : Nat
  badge : Nat
deriving DecidableEq, Repr

/-- The element in a slot of an array. -/
def readSlot (byte : Nat → UInt8) (array slot : Nat) : CapIndex where
  link := read32 byte (array + slot * capIndexSize)
  refCount := (byte (array + slot * capIndexSize + 4)).toNat
  badge := slotBadge byte array slot

namespace CapArrays

/-- The address of a slot in the child. -/
def slotAddr (arrays : CapArrays) (slot : Fin capSlots) : Nat :=
  arrays.remoteChildArrayStart + slot * capIndexSize

/-- The stored array. -/
def slots (arrays : CapArrays) (core : Core) (slot : Fin capSlots) : CapIndex :=
  readSlot (core.bytes arrays.stateDs.localName) arrays.stateArray slot

/-- The array of the child. -/
def childSlots (arrays : CapArrays) (child : TargetChild) (core : Core) (slot : Fin capSlots) :
    CapIndex :=
  readSlot (child.dataspaceByte core arrays.childDs) arrays.childArray slot

end CapArrays

/-- The list pointers of an array. -/
def pointers (slots : Fin capSlots → CapIndex) (s : Fin capSlots) : Nat := (slots s).link

/-- Slot `c` gets its badge and is linked behind slot `p`. -/
def linkSlot (addr : Fin capSlots → Nat) (p c : Fin capSlots) (badge : Nat)
    (slots : Fin capSlots → CapIndex) : Fin capSlots → CapIndex :=
  let filled := Function.update slots c ⟨(slots p).link, 2, badge⟩
  Function.update filled p { filled p with link := addr c }

section LinkSlot

variable (addr : Fin capSlots → Nat) (p c : Fin capSlots) (badge : Nat)
  (slots : Fin capSlots → CapIndex) (s : Fin capSlots)

theorem linkSlot_link : (linkSlot addr p c badge slots s).link =
    if s = p then addr c else if s = c then (slots p).link else (slots s).link := by
  unfold linkSlot
  simp only [Function.update_apply]
  by_cases hp : s = p
  · rw [if_pos hp, if_pos hp]
  · rw [if_neg hp, if_neg hp]
    split
    · rfl
    · rfl

/-- What does not depend on the list pointer changes in slot `c` only. -/
theorem linkSlot_apply {α : Type} {f : CapIndex → α}
    (hf : ∀ x link, f { x with link := link } = f x) :
    f (linkSlot addr p c badge slots s) =
      if s = c then f ⟨(slots p).link, 2, badge⟩ else f (slots s) := by
  unfold linkSlot
  simp only [Function.update_apply]
  by_cases hp : s = p
  · rw [if_pos hp, hf, ← hp]
    split
    · rfl
    · rfl
  · rw [if_neg hp]
    split
    · rfl
    · rfl

theorem linkSlot_refCount : (linkSlot addr p c badge slots s).refCount =
    if s = c then 2 else (slots s).refCount :=
  linkSlot_apply addr p c badge slots s (f := CapIndex.refCount) fun _ _ => rfl

theorem linkSlot_badge : (linkSlot addr p c badge slots s).badge =
    if s = c then badge else (slots s).badge :=
  linkSlot_apply addr p c badge slots s (f := CapIndex.badge) fun _ _ => rfl

/-- On the list pointers, it is an insertion. -/
theorem linkSlot_insertAfter : pointers (linkSlot addr p c badge slots) =
    insertAfter addr p c (pointers slots) := by
  funext s
  refine (linkSlot_link addr p c badge slots s).trans ?_
  unfold insertAfter
  rw [Function.update_apply, Function.update_apply]
  rfl

end LinkSlot

/-! ## Bytes -/

theorem read32_congr {byte byte' : Nat → UInt8} {pos pos' : Nat}
    (h : ∀ k < 4, byte (pos + k) = byte' (pos' + k)) : read32 byte pos = read32 byte' pos' := by
  have h0 := h 0 (by decide)
  have h1 := h 1 (by decide)
  have h2 := h 2 (by decide)
  have h3 := h 3 (by decide)
  unfold read32
  rw [Nat.add_zero, Nat.add_zero] at h0
  rw [h0, h1, h2, h3]

theorem readSlot_congr {byte byte' : Nat → UInt8} {array array' slot : Nat}
    (h : ∀ k < 8, byte (array + slot * capIndexSize + k) = byte' (array' + slot * capIndexSize + k)) :
    readSlot byte array slot = readSlot byte' array' slot := by
  unfold readSlot
  congr 1
  · exact read32_congr fun k hk => h k (by omega)
  · rw [h 4 (by decide)]
  · refine slotBadge_congr ?_ ?_
    · rw [Nat.mul_comm]
      exact h 6 (by decide)
    · rw [Nat.mul_comm]
      exact h 7 (by decide)

theorem read32_lt (byte : Nat → UInt8) (pos : Nat) : read32 byte pos < 2 ^ 32 := by
  have h0 := (byte pos).toNat_lt
  have h1 := (byte (pos + 1)).toNat_lt
  have h2 := (byte (pos + 2)).toNat_lt
  have h3 := (byte (pos + 3)).toNat_lt
  unfold read32
  omega

/-- The four bytes of a written word. -/
theorem write32_read {d pos v : Nat} (hv : v < 2 ^ 32) (m : Store Nat UInt8) :
    read32 (write32 d pos v m d) pos = v := by
  have h0 : write32 d pos v m d pos = UInt8.ofNat v := by
    unfold write32
    rw [write16_other (by omega)]
    unfold write16
    rw [write8_other (by omega)]
    exact poke_self ..
  have h1 : write32 d pos v m d (pos + 1) = UInt8.ofNat (v / 2 ^ 8) := by
    unfold write32
    rw [write16_other (by omega)]
    exact poke_self ..
  have h2 : write32 d pos v m d (pos + 2) = UInt8.ofNat (v / 2 ^ 16) := by
    unfold write32 write16
    rw [write8_other (by omega)]
    exact poke_self ..
  have h3 : write32 d pos v m d (pos + 3) = UInt8.ofNat (v / 2 ^ 16 / 2 ^ 8) := poke_self ..
  unfold read32
  rw [h0, h1, h2, h3, UInt8.toNat_ofNat', UInt8.toNat_ofNat', UInt8.toNat_ofNat',
    UInt8.toNat_ofNat']
  omega

/-! ## One turn -/

section Turn

variable {arrays : CapArrays}

/-- The bytes after one turn: the new element, then the list pointer of
the one before. -/
def CapArrays.linkBytes (arrays : CapArrays) (p c badge : Nat) (m : Store Nat UInt8) :
    Store Nat UInt8 :=
  let d := arrays.stateDs.localName
  let current := arrays.stateArray + c * capIndexSize
  let previous := arrays.stateArray + p * capIndexSize
  write32 d previous (arrays.remoteChildArrayStart + c * capIndexSize) <|
    write16 d (current + 6) badge <|
      write8 d (current + 4) 2 <|
        write32 d current (read32 (m d) previous) m

theorem linkCapIndex_eq {info : CapKcapInfo} (hkcap : info.kcap ≠ 0) (x : Nat × Core) :
    linkCapIndex arrays info x =
      if info.kcap / pageSize < capSlots then
        .ok (info.kcap / pageSize,
          { x.2 with
            bytes := arrays.linkBytes x.1 (info.kcap / pageSize) info.cap.localName x.2.bytes })
      else .error (.exception "Cap_index positions are invalid!") := by
  unfold linkCapIndex
  rw [if_neg hkcap]
  rfl

theorem linkBytes_link (h32 : arrays.remoteChildArrayStart + capArraySize ≤ 2 ^ 32)
    (p c s : Fin capSlots) (badge : Nat) (m : Store Nat UInt8) :
    read32 (arrays.linkBytes p c badge m arrays.stateDs.localName)
        (arrays.stateArray + s * capIndexSize) =
      if s = p then arrays.slotAddr c
      else if s = c then
        read32 (m arrays.stateDs.localName) (arrays.stateArray + p * capIndexSize)
      else read32 (m arrays.stateDs.localName) (arrays.stateArray + s * capIndexSize) := by
  have hc := c.isLt
  unfold CapArrays.linkBytes CapArrays.slotAddr
  unfold capArraySize capIndexSize at *
  by_cases hp : s = p
  · rw [if_pos hp, hp]
    exact write32_read (by omega) _
  · have hpv : (s : Nat) ≠ p := Fin.val_ne_of_ne hp
    rw [if_neg hp]
    -- the writes behind the new list pointer are to other bytes
    have hframe : ∀ k < 4, ∀ v v' v'' (m' : Store Nat UInt8),
        write32 arrays.stateDs.localName (arrays.stateArray + p * 8) v
            (write16 arrays.stateDs.localName (arrays.stateArray + c * 8 + 6) v'
              (write8 arrays.stateDs.localName (arrays.stateArray + c * 8 + 4) v'' m'))
            arrays.stateDs.localName (arrays.stateArray + s * 8 + k) =
          m' arrays.stateDs.localName (arrays.stateArray + s * 8 + k) := by
      intro k hk v v' v'' m'
      rw [write32_other (by omega), write16_other (by omega), write8_other (by omega)]
    by_cases hsc : s = c
    · rw [if_pos hsc]
      refine (read32_congr fun k hk => hframe k hk _ _ _ _).trans ?_
      rw [hsc]
      exact write32_read (read32_lt _ _) m
    · have hcv : (s : Nat) ≠ c := Fin.val_ne_of_ne hsc
      rw [if_neg hsc]
      refine read32_congr fun k hk => ?_
      rw [hframe k hk, write32_other (by omega)]

theorem linkBytes_refCount (p c s : Fin capSlots) (badge : Nat) (m : Store Nat UInt8) :
    arrays.linkBytes p c badge m arrays.stateDs.localName
        (arrays.stateArray + s * capIndexSize + 4) =
      if s = c then 2
      else m arrays.stateDs.localName (arrays.stateArray + s * capIndexSize + 4) := by
  unfold CapArrays.linkBytes capIndexSize
  rw [write32_other (by omega), write16_other (by omega)]
  by_cases hsc : s = c
  · rw [if_pos hsc, hsc]
    exact poke_self ..
  · have hcv : (s : Nat) ≠ c := Fin.val_ne_of_ne hsc
    rw [if_neg hsc, write8_other (by omega), write32_other (by omega)]

/-- **One turn** is one insertion. -/
theorem linkCapIndex_slots (h32 : arrays.remoteChildArrayStart + capArraySize ≤ 2 ^ 32)
    {info : CapKcapInfo} (hkcap : info.kcap ≠ 0) (hslot : info.kcap / pageSize < capSlots)
    (hbadge : info.cap.localName < 2 ^ 16) (p : Fin capSlots) (core : Core) :
    ∃ core', linkCapIndex arrays info (p, core) = .ok (info.kcap / pageSize, core') ∧
      arrays.slots core' =
        linkSlot arrays.slotAddr p ⟨_, hslot⟩ info.cap.localName (arrays.slots core) := by
  obtain ⟨x', hx', hown, hothers⟩ :=
    @linkCapIndex_badge arrays info hkcap hslot hbadge (p, core)
  have hstep := @linkCapIndex_eq arrays info hkcap (p, core)
  rw [if_pos hslot] at hstep
  obtain rfl := Except.ok.inj (hx'.symm.trans hstep)
  refine ⟨_, hstep, funext fun s => CapIndex.ext ?_ ?_ ?_⟩
  · rw [linkSlot_link]
    exact linkBytes_link h32 p ⟨_, hslot⟩ s info.cap.localName core.bytes
  · have hcount := @linkBytes_refCount arrays p ⟨_, hslot⟩ s info.cap.localName core.bytes
    rw [linkSlot_refCount]
    refine (congrArg UInt8.toNat hcount).trans ?_
    split
    · rfl
    · rfl
  · rw [linkSlot_badge]
    by_cases hs : s = ⟨_, hslot⟩
    · rw [if_pos hs, hs]
      exact hown
    · rw [if_neg hs]
      exact hothers s fun he => hs (Fin.ext he)

end Turn

/-! ## The loop -/

/-- The slot an element of `_capability_map_infos` names; a kcap of 0 is
only warned about. -/
def slotOf (info : CapKcapInfo) : Option (Fin capSlots) :=
  if h : info.kcap ≠ 0 ∧ info.kcap / pageSize < capSlots then some ⟨info.kcap / pageSize, h.2⟩
  else none

def namedSlots (infos : List CapKcapInfo) : List (Fin capSlots) := infos.filterMap slotOf

/-- What the loop makes of the array: the named slots are linked one after
the other behind slot `p`, and filled. -/
structure SplicedSlots (addr : Fin capSlots → Nat) (p : Fin capSlots) (infos : List CapKcapInfo)
    (slots slots' : Fin capSlots → CapIndex) : Prop where
  links : pointers slots' = splice addr p (namedSlots infos) (pointers slots)
  counts : ∀ s ∈ namedSlots infos, (slots' s).refCount = 2
  badges : (namedSlots infos).Nodup → ∀ info ∈ infos, ∀ s, slotOf info = some s →
    (slots' s).badge = info.cap.localName
  others : ∀ s ∉ namedSlots infos,
    (slots' s).refCount = (slots s).refCount ∧ (slots' s).badge = (slots s).badge

namespace SplicedSlots

variable {addr : Fin capSlots → Nat} {p c : Fin capSlots} {info : CapKcapInfo}
  {infos : List CapKcapInfo} {slots slots' : Fin capSlots → CapIndex}

theorem nil : SplicedSlots addr p [] slots slots :=
  ⟨rfl, by simp [namedSlots], by simp, fun _ _ => ⟨rfl, rfl⟩⟩

theorem skip (hinfo : slotOf info = none) (h : SplicedSlots addr p infos slots slots') :
    SplicedSlots addr p (info :: infos) slots slots' := by
  have hsame : namedSlots (info :: infos) = namedSlots infos := List.filterMap_cons_none hinfo
  refine ⟨by rw [hsame]; exact h.links, by rw [hsame]; exact h.counts, ?_, by rw [hsame]; exact h.others⟩
  rw [hsame]
  intro hnodup i hi s hs
  rcases List.mem_cons.mp hi with rfl | hi
  · rw [hinfo] at hs
    cases hs
  · exact h.badges hnodup i hi s hs

theorem cons (hinfo : slotOf info = some c)
    (h : SplicedSlots addr c infos (linkSlot addr p c info.cap.localName slots) slots') :
    SplicedSlots addr p (info :: infos) slots slots' := by
  have hnamed : namedSlots (info :: infos) = c :: namedSlots infos :=
    List.filterMap_cons_some hinfo
  refine ⟨?_, fun s hs => ?_, fun hnodup i hi s hs => ?_, fun s hs => ?_⟩
  · rw [hnamed, h.links, linkSlot_insertAfter]
    rfl
  · by_cases hmem : s ∈ namedSlots infos
    · exact h.counts s hmem
    · rw [hnamed] at hs
      have hsc : s = c := (List.mem_cons.mp hs).resolve_right hmem
      rw [(h.others s hmem).1, linkSlot_refCount, if_pos hsc]
  · rw [hnamed, List.nodup_cons] at hnodup
    rcases List.mem_cons.mp hi with rfl | hi
    · obtain rfl : c = s := Option.some.inj (hinfo.symm.trans hs)
      rw [(h.others c hnodup.1).2, linkSlot_badge, if_pos rfl]
    · exact h.badges hnodup.2 i hi s hs
  · rw [hnamed, List.mem_cons, not_or] at hs
    obtain ⟨hcount, hbadge⟩ := h.others s hs.2
    rw [hcount, hbadge, linkSlot_refCount, linkSlot_badge, if_neg hs.1, if_neg hs.1]
    exact ⟨rfl, rfl⟩

end SplicedSlots

section Loop

variable {arrays : CapArrays} {infos : List CapKcapInfo}

/-- **The loop**, where all kcaps are in range. -/
theorem linkCapIndices_slots (h32 : arrays.remoteChildArrayStart + capArraySize ≤ 2 ^ 32)
    (hslots : ∀ info ∈ infos, info.kcap ≠ 0 → info.kcap / pageSize < capSlots)
    (hbadges : ∀ info ∈ infos, info.cap.localName < 2 ^ 16) (p : Fin capSlots) (core : Core) :
    ∃ x', loop (linkCapIndex arrays) infos (p, core) = .ok x' ∧
      SplicedSlots arrays.slotAddr p infos (arrays.slots core) (arrays.slots x'.2) := by
  induction infos generalizing p core with
  | nil => exact ⟨_, rfl, .nil⟩
  | cons info infos ih =>
      have ih' := ih (fun i hi => hslots i (by simp [hi])) fun i hi => hbadges i (by simp [hi])
      by_cases hkcap : info.kcap = 0
      · have hskip : linkCapIndex arrays info (p, core) = .ok ((p : Nat), core) := by
          unfold linkCapIndex
          rw [if_pos hkcap]
        have hnone : slotOf info = none := dif_neg fun h => h.1 hkcap
        obtain ⟨x', hloop, hspliced⟩ := ih' p core
        exact ⟨x', (loop_cons_of_ok hskip).trans hloop, hspliced.skip hnone⟩
      · have hslot := hslots info (by simp) hkcap
        have hsome : slotOf info = some ⟨info.kcap / pageSize, hslot⟩ := dif_pos ⟨hkcap, hslot⟩
        obtain ⟨core₁, hstep, hslots₁⟩ :=
          linkCapIndex_slots h32 hkcap hslot (hbadges info (by simp)) p core
        obtain ⟨x', hloop, hspliced⟩ := ih' ⟨info.kcap / pageSize, hslot⟩ core₁
        rw [hslots₁] at hspliced
        exact ⟨x', (loop_cons_of_ok hstep).trans hloop, hspliced.cons hsome⟩

/-- A kcap out of range ends the loop with an exception. -/
theorem inRange_of_linkCapIndices {x x' : Nat × Core}
    (h : loop (linkCapIndex arrays) infos x = .ok x') :
    ∀ info ∈ infos, info.kcap ≠ 0 → info.kcap / pageSize < capSlots := by
  intro info hinfo hkcap
  by_contra hout
  refine loop_ne_ok hinfo (fun s s' hstep => ?_) h
  rw [linkCapIndex_eq hkcap, if_neg hout] at hstep
  cases hstep

end Loop

/-! ## The function -/

section RestoreCapMap

variable {g : Genode} {child : TargetChild} {st : TargetState} {arrays : CapArrays}
  {infos : List CapKcapInfo}

theorem previousCapIndex_lt (byte : Nat → UInt8) (array : Nat) :
    previousCapIndex byte array < capSlots := by
  unfold previousCapIndex
  cases hfind : (List.range' 0x200 0x80).find? fun slot =>
      read32 byte (array + slot * capIndexSize) ≠ 0 with
  | none => exact Nat.zero_lt_succ _
  | some slot =>
      have hmem := List.mem_range'_1.mp (List.mem_of_find?_eq_some hfind)
      show slot < 4096
      omega

/-- The slot the first new element is linked behind: the first one from
0x200 to 0x27f with a list pointer, or slot 0. -/
def CapArrays.previous (arrays : CapArrays) (child : TargetChild) (core : Core) : Fin capSlots :=
  ⟨previousCapIndex (child.dataspaceByte core arrays.childDs) arrays.childArray,
    previousCapIndex_lt _ _⟩

theorem copyCapArray_slots (child : TargetChild) (core : Core) :
    arrays.slots (copyCapArray arrays child core) = arrays.childSlots child core := by
  funext s
  have hs := s.isLt
  refine readSlot_congr fun k hk => ?_
  rw [Nat.add_assoc, Nat.add_assoc]
  refine copyCapArray_byte child core ?_
  unfold capArraySize capIndexSize
  omega

theorem copyCapArray_previous (child : TargetChild) (core : Core) :
    previousCapIndex ((copyCapArray arrays child core).bytes arrays.stateDs.localName)
        arrays.stateArray = arrays.previous child core := by
  have hsame : ∀ slot ∈ List.range' 0x200 0x80,
      read32 ((copyCapArray arrays child core).bytes arrays.stateDs.localName)
          (arrays.stateArray + slot * capIndexSize) =
        read32 (child.dataspaceByte core arrays.childDs)
          (arrays.childArray + slot * capIndexSize) := by
    intro slot hslot
    have hlt : slot < capSlots := by
      have hmem := List.mem_range'_1.mp hslot
      show slot < 4096
      omega
    exact congrArg CapIndex.link (congrFun (copyCapArray_slots child core) ⟨slot, hlt⟩)
  unfold CapArrays.previous previousCapIndex
  congr 1
  exact List.find?_congr fun slot hslot => by rw [hsame slot hslot]

/-- **`_restore_cap_map`**, as a change of the array of the child. -/
theorem restoreCapMap_slots (core : Core) (harrays : findCapArrays g child st = .ok arrays)
    (h32 : arrays.remoteChildArrayStart + capArraySize ≤ 2 ^ 32)
    (hslots : ∀ info ∈ infos, info.kcap ≠ 0 → info.kcap / pageSize < capSlots)
    (hbadges : ∀ info ∈ infos, info.cap.localName < 2 ^ 16) :
    ∃ core', restoreCapMap g child st infos core = .ok core' ∧
      SplicedSlots arrays.slotAddr (arrays.previous child core) infos
        (arrays.childSlots child core) (arrays.slots core') := by
  obtain ⟨x', hloop, hspliced⟩ := linkCapIndices_slots h32 hslots hbadges
    (arrays.previous child core) (copyCapArray arrays child core)
  rw [copyCapArray_slots] at hspliced
  rw [← copyCapArray_previous] at hloop
  refine ⟨x'.2, ?_, hspliced⟩
  simp only [restoreCapMap, harrays, bind, Except.bind, hloop]

theorem slotAddr_addresses (arrays : CapArrays) (hstart : 0 < arrays.remoteChildArrayStart) :
    Addresses 0 arrays.slotAddr where
  injective a b h := by
    unfold CapArrays.slotAddr capIndexSize at h
    exact Fin.ext (by omega)
  ne_null s := by
    unfold CapArrays.slotAddr
    omega

theorem remoteChildArrayStart_pos (h : findCapArrays g child st = .ok arrays) :
    0 < arrays.remoteChildArrayStart := by
  unfold findCapArrays at h
  split at h
  · cases h
  · split at h
    · cases h
    · split at h
      · cases h
      · dsimp only at h
        split at h
        · cases h
        · split at h
          · cases h
            exact Nat.succ_pos _
          · cases h

/-- A predecessor with a list pointer is the first of its range. -/
theorem previous_spec {core : Core} (h : ∃ s : Fin capSlots, 0x200 ≤ (s : Nat) ∧ (s : Nat) < 0x280 ∧
      (arrays.childSlots child core s).link ≠ 0) :
    (arrays.childSlots child core (arrays.previous child core)).link ≠ 0 ∧
      0x200 ≤ (arrays.previous child core : Nat) ∧ (arrays.previous child core : Nat) < 0x280 ∧
      ∀ s : Fin capSlots, 0x200 ≤ (s : Nat) → s < arrays.previous child core →
        (arrays.childSlots child core s).link = 0 := by
  obtain ⟨s₀, hlo, hhi, hlink⟩ := h
  let test : Nat → Bool := fun slot =>
    decide (read32 (child.dataspaceByte core arrays.childDs)
      (arrays.childArray + slot * capIndexSize) ≠ 0)
  have hsome : ((List.range' 0x200 0x80).find? test).isSome = true := by
    rw [List.find?_isSome]
    exact ⟨s₀, List.mem_range'_1.mpr ⟨hlo, hhi⟩, decide_eq_true hlink⟩
  obtain ⟨slot, hfind⟩ := Option.isSome_iff_exists.mp hsome
  have hprev : (arrays.previous child core : Nat) = slot := by
    show ((List.range' 0x200 0x80).find? test).getD 0 = slot
    rw [hfind]
    rfl
  have hmem := List.mem_range'_1.mp (List.mem_of_find?_eq_some hfind)
  refine ⟨?_, by omega, by omega, fun s hs hlt => ?_⟩
  · have htest : test slot = true := List.find?_some hfind
    unfold CapArrays.childSlots readSlot
    dsimp only
    rw [hprev]
    exact of_decide_eq_true htest
  · -- the scan has passed it
    obtain ⟨-, before, after, hrange, hbefore⟩ := List.find?_eq_some_iff_append.mp hfind
    have hlt' : (s : Nat) < slot := hprev ▸ hlt
    have hsorted : (List.range' 0x200 0x80).Pairwise (· < ·) := List.pairwise_lt_range'
    have hin : (s : Nat) ∈ List.range' 0x200 0x80 := List.mem_range'_1.mpr ⟨hs, by omega⟩
    rw [hrange] at hsorted hin
    have hnot : (s : Nat) ∉ slot :: after := by
      intro hm
      rcases List.mem_cons.mp hm with he | hm
      · omega
      · have := List.rel_of_pairwise_cons (List.pairwise_append.mp hsorted).2.1 hm
        omega
    have hb := hbefore s ((List.mem_append.mp hin).resolve_right hnot)
    simp only [test, Bool.not_eq_true', decide_eq_false_iff_not, not_not] at hb
    exact hb

/-- **The list with the new slots**: they follow the first slot of the
range that has a list pointer. -/
theorem restoreCapMap_splices (core : Core) (harrays : findCapArrays g child st = .ok arrays)
    (h32 : arrays.remoteChildArrayStart + capArraySize ≤ 2 ^ 32) {w : Nat}
    {l : List (Fin capSlots)}
    (hlist : Walk 0 arrays.slotAddr (pointers (arrays.childSlots child core)) w l)
    (hunlinked : ∀ s ∉ l, pointers (arrays.childSlots child core) s = 0)
    (hrange : ∃ s ∈ l, l.getLast? ≠ some s ∧ 0x200 ≤ (s : Nat) ∧ (s : Nat) < 0x280)
    (hslots : ∀ info ∈ infos, info.kcap ≠ 0 → info.kcap / pageSize < capSlots)
    (hdistinct : (namedSlots infos).Nodup) (hnew : ∀ s ∈ namedSlots infos, s ∉ l)
    (hbadges : ∀ info ∈ infos, info.cap.localName < 2 ^ 16) :
    ∃ (core' : Core) (before : List (Fin capSlots)) (p : Fin capSlots) (after : List (Fin capSlots)),
      restoreCapMap g child st infos core = .ok core' ∧ l = before ++ p :: after ∧
      (0x200 ≤ (p : Nat) ∧ (p : Nat) < 0x280 ∧ pointers (arrays.childSlots child core) p ≠ 0 ∧
        ∀ s : Fin capSlots, 0x200 ≤ (s : Nat) → s < p →
          pointers (arrays.childSlots child core) s = 0) ∧
      Walk 0 arrays.slotAddr (pointers (arrays.slots core')) w
        (before ++ p :: (namedSlots infos ++ after)) ∧
      (before ++ p :: (namedSlots infos ++ after)).Nodup ∧
      (∀ info ∈ infos, ∀ s, slotOf info = some s →
        (arrays.slots core' s).refCount = 2 ∧ (arrays.slots core' s).badge = info.cap.localName) ∧
      ∀ s ∉ namedSlots infos,
        (arrays.slots core' s).refCount = (arrays.childSlots child core s).refCount ∧
          (arrays.slots core' s).badge = (arrays.childSlots child core s).badge := by
  have ha := slotAddr_addresses arrays (remoteChildArrayStart_pos harrays)
  obtain ⟨core', hok, hspliced⟩ := restoreCapMap_slots core harrays h32 hslots hbadges
  obtain ⟨s, hs, hlast, hlo, hhi⟩ := hrange
  have hne : pointers (arrays.childSlots child core) s ≠ 0 := by
    obtain ⟨before, after, rfl⟩ := List.append_of_mem hs
    refine hlist.link_ne_null ha fun hnil => hlast ?_
    rw [hnil]
    exact List.getLast?_concat
  obtain ⟨hlink, hplo, hphi, hfirst⟩ := previous_spec ⟨s, hlo, hhi, hne⟩
  have hp : arrays.previous child core ∈ l := by
    by_contra hno
    exact hlink (hunlinked _ hno)
  obtain ⟨before, after, rfl⟩ := List.append_of_mem hp
  have hwalk := splice_walk hlist hdistinct hnew ha
  rw [← hspliced.links] at hwalk
  refine ⟨core', before, _, after, hok, rfl, ⟨hplo, hphi, hlink, hfirst⟩, hwalk, hwalk.nodup ha,
    fun info hinfo s hs => ⟨?_, hspliced.badges hdistinct info hinfo s hs⟩, hspliced.others⟩
  exact hspliced.counts s (List.mem_filterMap.mpr ⟨info, hinfo, hs⟩)

/-- **Any kcaps**: after a restore that has not thrown, the list still
ends and has kept all its slots exactly where it is spliceable. -/
theorem restoreCapMap_walk_iff {core core' : Core} (harrays : findCapArrays g child st = .ok arrays)
    (h32 : arrays.remoteChildArrayStart + capArraySize ≤ 2 ^ 32)
    (hbadges : ∀ info ∈ infos, info.cap.localName < 2 ^ 16) {w : Nat} {l : List (Fin capSlots)}
    (hlist : Walk 0 arrays.slotAddr (pointers (arrays.childSlots child core)) w l)
    (h : restoreCapMap g child st infos core = .ok core') :
    (∃ l', Walk 0 arrays.slotAddr (pointers (arrays.slots core')) w l' ∧ ∀ s ∈ l, s ∈ l') ↔
      Spliceable 0 arrays.slotAddr (pointers (arrays.childSlots child core))
        (arrays.previous child core) (namedSlots infos) l := by
  have ha := slotAddr_addresses arrays (remoteChildArrayStart_pos harrays)
  have hslots : ∀ info ∈ infos, info.kcap ≠ 0 → info.kcap / pageSize < capSlots := by
    simp only [restoreCapMap, harrays, bind, Except.bind] at h
    split at h
    · cases h
    · rename_i x hloop
      exact inRange_of_linkCapIndices hloop
  obtain ⟨core₁, hok, hspliced⟩ := restoreCapMap_slots core harrays h32 hslots hbadges
  obtain rfl := Except.ok.inj (hok.symm.trans h)
  rw [hspliced.links]
  exact splice_iff ha hlist

end RestoreCapMap

/-! ## A list of two slots -/

namespace CapListSample

def arrays : CapArrays := CapMapSample.twinArrays

/-- The second small child, with slot 0x200 linked to slot 0x201. -/
def core : Core :=
  { Core.small with bytes := write32 231 0x1008 0x2010 Core.small.bytes }

def checkpointed : TargetState := RoundTripSample.checkpoint.state

def restored (infos : List CapKcapInfo) : Except Err Core :=
  restoreCapMap Genode.small TargetChild.twin checkpointed infos core

theorem findCapArrays_eq : findCapArrays Genode.small TargetChild.twin checkpointed = .ok arrays := by
  have hfound : (findCapArrays Genode.small TargetChild.twin checkpointed).toOption.map id =
      some arrays := by decide +kernel
  obtain ⟨x, hx, rfl⟩ := exists_ok_of_map hfound
  exact hx

def first : Fin capSlots := ⟨0x200, by decide⟩

def second : Fin capSlots := ⟨0x201, by decide⟩

def fresh : Fin capSlots := ⟨0x210, by decide⟩

def later : Fin capSlots := ⟨0x211, by decide⟩

theorem pointers_other {s : Fin capSlots} (hs : s ≠ first) :
    pointers (arrays.childSlots TargetChild.twin core) s = 0 := by
  have hv : (s : Nat) ≠ 0x200 := fun he => hs (Fin.ext he)
  have hzero : read32 (core.bytes 231) (8 + s * capIndexSize) = read32 (fun _ => 0) 0 := by
    refine read32_congr fun k hk => (write32_other ?_ 0x2010 Core.small.bytes).trans rfl
    unfold capIndexSize
    omega
  exact hzero

theorem list : Walk 0 arrays.slotAddr (pointers (arrays.childSlots TargetChild.twin core)) 0x2008
    [first, second] := by
  have hfirst : pointers (arrays.childSlots TargetChild.twin core) first = arrays.slotAddr second :=
    write32_read (by decide : 0x2010 < 2 ^ 32) Core.small.bytes
  have hsecond : pointers (arrays.childSlots TargetChild.twin core) second = 0 :=
    pointers_other (by decide)
  have hlast : Walk 0 arrays.slotAddr (pointers (arrays.childSlots TargetChild.twin core))
      (arrays.slotAddr second) [second] := by
    refine .cons ?_
    rw [hsecond]
    exact .nil
  rw [← hfirst] at hlast
  exact .cons hlast

end CapListSample

open CapListSample in
/-- Two new slots, in the order of the recreated objects and not in that of
the array. -/
theorem restoreCapMap_splices_sample :
    ∃ core', restored [⟨0x211000, ⟨300⟩⟩, ⟨0x210000, ⟨301⟩⟩] = .ok core' ∧
      Walk 0 arrays.slotAddr (pointers (arrays.slots core')) 0x2008
        [first, later, fresh, second] := by
  have hunlinked : ∀ s ∉ [first, second],
      pointers (arrays.childSlots TargetChild.twin core) s = 0 :=
    fun s hs => pointers_other fun he => hs (by simp [he])
  have hslots : ∀ info ∈ [(⟨0x211000, ⟨300⟩⟩ : CapKcapInfo), ⟨0x210000, ⟨301⟩⟩], info.kcap ≠ 0 →
      info.kcap / pageSize < capSlots := by decide
  have hnamed : namedSlots [⟨0x211000, ⟨300⟩⟩, ⟨0x210000, ⟨301⟩⟩] = [later, fresh] := rfl
  have hnew : ∀ s ∈ namedSlots [⟨0x211000, ⟨300⟩⟩, ⟨0x210000, ⟨301⟩⟩], s ∉ [first, second] := by
    rw [hnamed]
    intro s hs
    rcases List.mem_cons.mp hs with rfl | hs
    · decide
    · obtain rfl := List.mem_singleton.mp hs
      decide
  obtain ⟨core', before, p, after, hok, hl, ⟨-, -, hlink, -⟩, hwalk, -⟩ :=
    restoreCapMap_splices core findCapArrays_eq (by decide) list hunlinked
      ⟨first, by decide, by decide, by decide, by decide⟩ hslots (by rw [hnamed]; decide) hnew
      (by decide)
  refine ⟨core', hok, ?_⟩
  -- the predecessor is linked, and the second slot is not
  have hp : p = first := by
    by_contra hne
    exact hlink (pointers_other hne)
  subst hp
  rw [hnamed] at hwalk
  cases before with
  | nil =>
      obtain rfl := (List.cons.inj hl).2
      exact hwalk
  | cons b before =>
      have hmem : first ∈ [second] := by
        rw [(List.cons.inj hl).2]
        simp
      exact absurd hmem (by decide)

open CapListSample in
theorem restoreCapMap_walk_iff_sample :
    ∃ core', restored [⟨0x210000, ⟨300⟩⟩] = .ok core' ∧
      ∃ l', Walk 0 arrays.slotAddr (pointers (arrays.slots core')) 0x2008 l' ∧
        ∀ s ∈ [first, second], s ∈ l' := by
  have hslots : ∀ info ∈ [(⟨0x210000, ⟨300⟩⟩ : CapKcapInfo)], info.kcap ≠ 0 →
      info.kcap / pageSize < capSlots := by decide
  have h32 : arrays.remoteChildArrayStart + capArraySize ≤ 2 ^ 32 := by decide
  have hnamed : namedSlots [⟨0x210000, ⟨300⟩⟩] = [fresh] := rfl
  have hprevious : arrays.previous TargetChild.twin core = first := by decide +kernel
  obtain ⟨core', hok, -⟩ :=
    restoreCapMap_slots core findCapArrays_eq h32 hslots (by decide)
  refine ⟨core', hok, (restoreCapMap_walk_iff findCapArrays_eq h32 (by decide) list hok).mpr ?_⟩
  rw [hprevious, hnamed]
  have hrest : Walk 0 arrays.slotAddr (pointers (arrays.childSlots TargetChild.twin core))
      (pointers (arrays.childSlots TargetChild.twin core) first) [second] :=
    @Walk.next _ _ _ _ _ _ [] _ _ list
  have hclear : ∀ c ∈ [second], c ∉ [first, fresh] := by
    intro c hc
    obtain rfl := List.mem_singleton.mp hc
    decide
  refine .inr ⟨by decide, [second], hrest, hclear, fun before x after hl _ _ c hc => .inr ?_⟩
  have hmem : c ∈ [first, second].tail := by
    rw [hl]
    cases before with
    | nil => exact hc
    | cons b before => simp [hc]
  exact hmem

open CapListSample in
/-- The kcap of a recreated object names the slot that is chosen as its
predecessor: the slot ends up as its own successor. -/
theorem endless_list_after_occupied_slot :
    ∃ core', restored [⟨0x200000, ⟨300⟩⟩] = .ok core' ∧
      Walk 0 arrays.slotAddr (pointers (arrays.childSlots TargetChild.twin core)) 0x2008
        [first, second] ∧
      pointers (arrays.slots core') first = arrays.slotAddr first ∧
      ¬∃ l', Walk 0 arrays.slotAddr (pointers (arrays.slots core')) 0x2008 l' := by
  have hrun : (restored [⟨0x200000, ⟨300⟩⟩]).toOption.map
      (fun core' => pointers (arrays.slots core') first) = some (arrays.slotAddr first) := by
    decide +kernel
  obtain ⟨core', hok, hself⟩ := exists_ok_of_map hrun
  refine ⟨core', hok, list, hself, fun ⟨l', hl'⟩ => ?_⟩
  have ha := slotAddr_addresses arrays (by decide)
  obtain ⟨l, rfl, hl⟩ := Walk.of_addr ha (show Walk 0 arrays.slotAddr _ (arrays.slotAddr first) l' from hl')
  rw [hself] at hl
  have hlen := congrArg List.length (hl.unique ha hl')
  simp at hlen

end Rtcr
