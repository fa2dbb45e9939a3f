import Rtcr.Foc.CapIndexArray

/-!
# RestoredNames — the capability map of a restored child

`CapabilityMap.ofSlots` is the map that the child's code finds in its
array, with list pointers that are addresses. `restoreCapMap_names` says
what the child finds after `_restore_cap_map` and `_restore_cap_space`.
-/

namespace Rtcr

open Fallible Intrusive Linked

/-! ## The map in an array -/

/-- The slot at an address of the child. -/
def slotAt (addr : Fin capSlots → Nat) (link : Nat) : Option (Fin capSlots) :=
  (List.finRange capSlots).find? fun s => addr s == link

/-- The map that lies in an array; `first` is the pointer to the first
element of its list. -/
def CapabilityMap.ofSlots {ω : Type} (addr : Fin capSlots → Nat) (first : Nat)
    (slots : Fin capSlots → CapIndex) (objects : Nat → Option ω) :
    CapabilityMap (Fin capSlots) ω where
  data s := ⟨.ofNat (slots s).refCount, .ofNat (slots s).badge⟩
  tree := ⟨slotAt addr first, fun s => slotAt addr (slots s).link⟩
  objects := objects

/-- The calls of `native_pd.install`, one after the other. -/
def installCaps (infos : List CapKcapInfo) (objects : Nat → Option Cap) : Nat → Option Cap :=
  infos.foldl (fun objects info => Function.update objects info.kcap (some info.cap)) objects

theorem slotAt_addr {addr : Fin capSlots → Nat} (ha : Addresses 0 addr) (s : Fin capSlots) :
    slotAt addr (addr s) = some s := by
  unfold slotAt
  have hsome : ((List.finRange capSlots).find? fun t => addr t == addr s).isSome = true := by
    rw [List.find?_isSome]
    exact ⟨s, List.mem_finRange s, by simp⟩
  obtain ⟨t, ht⟩ := Option.isSome_iff_exists.mp hsome
  have he : addr t = addr s := by simpa using List.find?_some ht
  rw [ht, ha.injective he]

theorem slotAt_null {addr : Fin capSlots → Nat} (ha : Addresses 0 addr) : slotAt addr 0 = none := by
  unfold slotAt
  rw [List.find?_eq_none]
  intro t _ he
  exact ha.ne_null t (by simpa using he)

theorem CapabilityMap.ofSlots_holds {ω : Type} {addr : Fin capSlots → Nat} (ha : Addresses 0 addr)
    {first : Nat} {slots : Fin capSlots → CapIndex} {l : List (Fin capSlots)}
    (h : Walk 0 addr (pointers slots) first l) (objects : Nat → Option ω) :
    (ofSlots addr first slots objects).tree.Holds l :=
  IList.holds_of_walk (slotAt_null ha) (slotAt_addr ha) h

section Install

variable {infos : List CapKcapInfo} {info : CapKcapInfo} {objects : Nat → Option Cap} {kcap : Nat}

theorem installCaps_cons : installCaps (info :: infos) objects =
    installCaps infos (Function.update objects info.kcap (some info.cap)) := rfl

theorem installCaps_other (h : kcap ∉ infos.map (·.kcap)) :
    installCaps infos objects kcap = objects kcap := by
  induction infos generalizing objects with
  | nil => rfl
  | cons info infos ih =>
      rw [List.map_cons, List.mem_cons, not_or] at h
      rw [installCaps_cons, ih h.2, Function.update_of_ne h.1]

theorem installCaps_mem (hnd : (infos.map (·.kcap)).Nodup) (h : info ∈ infos) :
    installCaps infos objects info.kcap = some info.cap := by
  induction infos generalizing objects with
  | nil => cases h
  | cons i infos ih =>
      rw [List.map_cons, List.nodup_cons] at hnd
      rcases List.mem_cons.mp h with rfl | h
      · rw [installCaps_cons, installCaps_other hnd.1, Function.update_self]
      · rw [installCaps_cons]
        exact ih hnd.2 h

end Install

/-! ## Ids and badges -/

/-- Names are compared as `uint16_t`. -/
theorem ofInt_toNat {n : Nat} (h : n < 2 ^ 16) : (UInt16.ofInt n).toNat = n := by
  unfold UInt16.ofInt
  rw [UInt16.toNat_ofNat']
  omega

theorem ofInt_eq_ofNat (n : Nat) : UInt16.ofInt n = UInt16.ofNat n := by
  apply UInt16.toNat_inj.mp
  unfold UInt16.ofInt
  rw [UInt16.toNat_ofNat', UInt16.toNat_ofNat']
  omega

theorem ofNat_inj_of_lt {m n : Nat} (hm : m < 2 ^ 16) (hn : n < 2 ^ 16)
    (h : UInt16.ofNat m = UInt16.ofNat n) : m = n := by
  rw [← ofInt_eq_ofNat, ← ofInt_eq_ofNat] at h
  rw [← ofInt_toNat hm, ← ofInt_toNat hn, h]

theorem slotBadge_lt (byte : Nat → UInt8) (array slot : Nat) : slotBadge byte array slot < 2 ^ 16 := by
  have h₆ := (byte (array + capIndexSize * slot + 6)).toNat_lt
  have h₇ := (byte (array + capIndexSize * slot + 7)).toNat_lt
  unfold slotBadge
  omega

section OfSlots

variable {ω : Type} {addr : Fin capSlots → Nat} {first fuel : Nat}
  {slots : Fin capSlots → CapIndex} {cells : List (Fin capSlots)}

namespace CapabilityMap

/-- Different badges are different names. -/
theorem ofSlots_lists (ha : Addresses 0 addr) (h : Walk 0 addr (pointers slots) first cells)
    (hlt : ∀ s, (slots s).badge < 2 ^ 16) (hids : (cells.map fun s => (slots s).badge).Nodup)
    (hused : 0 ∉ cells.map fun s => (slots s).badge) (objects : Nat → Option ω) :
    (ofSlots addr first slots objects).Lists cells where
  holds := ofSlots_holds ha h objects
  ids := by
    refine List.Nodup.map_on (fun s hs t ht he => ?_) hids.of_map
    exact List.inj_on_of_nodup_map hids hs ht (ofNat_inj_of_lt (hlt s) (hlt t) he)
  used s hs := by
    have hne : (slots s).badge ≠ 0 := fun he => hused (he ▸ List.mem_map_of_mem hs)
    unfold CapData.used
    rw [bne_iff_ne]
    intro he
    exact hne (ofNat_inj_of_lt (hlt s) (by decide) he)

theorem ofSlots_find {objects : Nat → Option ω} (h : (ofSlots addr first slots objects).Lists cells)
    (hfuel : cells.length < fuel) {s : Fin capSlots} (hs : s ∈ cells) :
    (ofSlots addr first slots objects).find fuel (slots s).badge = .ok (some s) := by
  rw [h.find _ hfuel]
  congr 1
  exact h.find?_mem hs (ofInt_eq_ofNat _).symm

theorem ofSlots_find_none {objects : Nat → Option ω}
    (h : (ofSlots addr first slots objects).Lists cells) (hfuel : cells.length < fuel)
    (hlt : ∀ s, (slots s).badge < 2 ^ 16) {badge : Nat} (hbadge : badge < 2 ^ 16)
    (hno : badge ∉ cells.map fun s => (slots s).badge) :
    (ofSlots addr first slots objects).find fuel badge = .ok none := by
  rw [h.find _ hfuel]
  congr 1
  rw [List.find?_eq_none]
  intro s hs he
  have hsame : UInt16.ofNat (slots s).badge = UInt16.ofInt badge := by
    simpa [hasId, ofSlots] using he
  rw [ofInt_eq_ofNat] at hsame
  apply hno
  rw [← ofNat_inj_of_lt (hlt s) hbadge hsame]
  exact List.mem_map_of_mem hs

end CapabilityMap

end OfSlots

/-! ## Recreated objects -/

section Names

variable {infos : List CapKcapInfo}

/-- The kcaps are addresses of slots. -/
def InSlots (infos : List CapKcapInfo) : Prop :=
  ∀ info ∈ infos, info.kcap ≠ 0 → info.kcap % pageSize = 0 ∧ info.kcap / pageSize < capSlots

/-- What is installed, slot by slot. -/
theorem InSlots.named (h : InSlots infos) :
    List.Forall₂ (fun info s => info ∈ infos ∧ slotOf info = some s ∧ info.kcap = s * pageSize)
      (restoreCapSpace infos) (namedSlots infos) := by
  induction infos with
  | nil => exact .nil
  | cons info infos ih =>
      have hrest := (ih fun i hi => h i (List.mem_cons_of_mem _ hi)).imp
        fun i s hs => (⟨List.mem_cons_of_mem info hs.1, hs.2⟩ : i ∈ info :: infos ∧ _)
      by_cases hkcap : info.kcap = 0
      · have hslot : slotOf info = none := dif_neg fun hno => hno.1 hkcap
        unfold restoreCapSpace namedSlots
        rw [List.filter_cons_of_neg (by simpa using hkcap), List.filterMap_cons_none hslot]
        exact hrest
      · obtain ⟨hpage, hlt⟩ := h info (by simp) hkcap
        have hslot : slotOf info = some ⟨info.kcap / pageSize, hlt⟩ := dif_pos ⟨hkcap, hlt⟩
        unfold restoreCapSpace namedSlots
        rw [List.filter_cons_of_pos (by simpa using hkcap), List.filterMap_cons_some hslot]
        refine .cons ⟨by simp, hslot, ?_⟩ hrest
        show info.kcap = info.kcap / pageSize * pageSize
        rw [Nat.div_mul_cancel (Nat.dvd_of_mod_eq_zero hpage)]

variable {g : Genode} {child : TargetChild} {st : TargetState} {arrays : CapArrays}

/-- The list of the child, when the new slots have been linked into it. -/
theorem SplicedSlots.holds {core core' : Core} {first : Nat} {l : List (Fin capSlots)}
    (ha : Addresses 0 arrays.slotAddr)
    (h : SplicedSlots arrays.slotAddr (arrays.previous child core) infos
      (arrays.childSlots child core) (arrays.slots core'))
    (hlist : Walk 0 arrays.slotAddr (pointers (arrays.childSlots child core)) first l)
    (hunlinked : ∀ s ∉ l, pointers (arrays.childSlots child core) s = 0)
    (hrange : ∃ s ∈ l, l.getLast? ≠ some s ∧ 0x200 ≤ (s : Nat) ∧ (s : Nat) < 0x280)
    (hdistinct : (namedSlots infos).Nodup) (hnew : ∀ s ∈ namedSlots infos, s ∉ l) :
    ∃ cells, Walk 0 arrays.slotAddr (pointers (arrays.slots core')) first cells ∧
      cells.Perm (namedSlots infos ++ l) := by
  obtain ⟨s, hs, hlast, hlo, hhi⟩ := hrange
  have hne : pointers (arrays.childSlots child core) s ≠ 0 := by
    obtain ⟨before, after, rfl⟩ := List.append_of_mem hs
    apply hlist.link_ne_null ha
    rintro rfl
    exact hlast List.getLast?_concat
  obtain ⟨hlink, -⟩ := previous_spec ⟨s, hlo, hhi, hne⟩
  have hp : arrays.previous child core ∈ l := by
    by_contra hno
    exact hlink (hunlinked _ hno)
  obtain ⟨before, after, rfl⟩ := List.append_of_mem hp
  have hwalk := splice_walk hlist hdistinct hnew ha
  rw [← h.links] at hwalk
  refine ⟨_, hwalk, ?_⟩
  refine List.Perm.trans ?_ List.perm_append_comm
  rw [List.append_assoc, List.cons_append]
  exact (List.Perm.append_left _ (List.Perm.cons _ List.perm_append_comm))

/-- The badges of the new slots and of the old ones. -/
theorem SplicedSlots.badges_perm {addr : Fin capSlots → Nat} {p : Fin capSlots}
    {slots slots' : Fin capSlots → CapIndex} (h : SplicedSlots addr p infos slots slots')
    (hslots : InSlots infos) (hdistinct : (namedSlots infos).Nodup) {l cells : List (Fin capSlots)}
    (hnew : ∀ s ∈ namedSlots infos, s ∉ l) (hperm : cells.Perm (namedSlots infos ++ l)) :
    (cells.map fun s => (slots' s).badge).Perm
      ((restoreCapSpace infos).map (·.cap.localName) ++ l.map fun s => (slots s).badge) := by
  have hnamed : (namedSlots infos).map (fun s => (slots' s).badge) =
      (restoreCapSpace infos).map (·.cap.localName) :=
    List.map_eq_of_forall₂ (fun info s hs => h.badges hdistinct info hs.1 s hs.2.1) hslots.named
  have hold : l.map (fun s => (slots' s).badge) = l.map fun s => (slots s).badge :=
    List.map_congr_left fun s hs => (h.others s fun hmem => hnew s hmem hs).2
  rw [← hnamed, ← hold, ← List.map_append]
  exact hperm.map _

/-- The map of the restored child, with what is installed. -/
def CapArrays.restoredMap (arrays : CapArrays) (first : Nat) (infos : List CapKcapInfo)
    (objects : Nat → Option Cap) (core : Core) : CapabilityMap (Fin capSlots) Cap :=
  .ofSlots arrays.slotAddr first (arrays.slots core) (installCaps (restoreCapSpace infos) objects)

end Names

/-- The second small child, with the badges 5 and 6 in its two slots. -/
def namedCore : Core :=
  { CapListSample.core with
    bytes := write16 231 0x100e 5 (write16 231 0x1016 6 CapListSample.core.bytes) }

theorem namedCore_link (s : Fin capSlots) :
    (CapListSample.arrays.childSlots TargetChild.twin namedCore s).link =
      (CapListSample.arrays.childSlots TargetChild.twin CapListSample.core s).link := by
  refine read32_congr fun k hk => ?_
  have h₁ : 8 + s * capIndexSize + k < 0x100e ∨ 0x100e + 2 ≤ 8 + s * capIndexSize + k := by
    unfold capIndexSize
    omega
  have h₂ : 8 + s * capIndexSize + k < 0x1016 ∨ 0x1016 + 2 ≤ 8 + s * capIndexSize + k := by
    unfold capIndexSize
    omega
  exact (write16_other h₁ 5 _).trans (write16_other h₂ 6 _)

end Rtcr
