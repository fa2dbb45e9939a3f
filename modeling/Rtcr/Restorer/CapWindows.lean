import Rtcr.Restorer.CapMapAgree

/-!
# Restorer.CapWindows — where the two sides look for the array

The checkpointer maps the window of the region that holds the
`cap_idx_alloc`, the restorer whole dataspaces; both add the distance of
the address from the beginning of a region. The byte a slot is at is the
one the child sees only if region, offset and base come from the same
record, and if the range test has found the region the address lies in.
-/

namespace Rtcr

open Fallible

/-! ## The right bytes -/

/-- The address lies in the region, and slot 0 of the array behind it is
byte `base` of the region's dataspace. -/
structure SlotsAt (relAddr size offset addr base : Nat) : Prop where
  lower : relAddr ≤ addr
  upper : addr < relAddr + size
  base : base = offset + (addr - relAddr) + 8

/-- The stored region that is found for the stored address. -/
def TargetState.capRegion (st : TargetState) : Option StoredAttachedRegionInfo :=
  (st.pdSessions.find? (·.bootstrapped)).bind fun pd =>
    pd.storedAddressSpace.storedAttachedRegionInfos.find? (·.covers st.capIdxAllocAddr)

/-- `_create_cap_map_infos` throws, or reads the array of the region its
address lies in, inside the window it has mapped. -/
def CreatesRight (child : TargetChild) : Prop :=
  (∃ message, ∀ core, (createCapMapInfos child core).1 = .error (.exception message)) ∨
    ∃ info base, child.capRegion = some info ∧
      (∀ core, (createCapMapInfos child core).1 =
        .ok (readCapMap (child.dataspaceByte core info.attachedDsCap) base)) ∧
      SlotsAt info.relAddr info.size info.offset child.capMapInfo base ∧
      base + capArraySize ≤ info.offset + info.size

/-- `_restore_cap_map` throws, or works on the arrays of the two regions
its addresses lie in, inside the two dataspaces it has mapped. -/
def RestoresRight (g : Genode) (child : TargetChild) (st : TargetState) : Prop :=
  (∃ message, findCapArrays g child st = .error (.exception message)) ∨
    ∃ info stored arrays, child.capRegion = some info ∧ st.capRegion = some stored ∧
      findCapArrays g child st = .ok arrays ∧
      arrays.childDs = info.attachedDsCap ∧
      SlotsAt info.relAddr info.size info.offset child.capMapInfo arrays.childArray ∧
      arrays.childArray + capArraySize ≤ g.dataspaceSize info.attachedDsCap ∧
      arrays.stateDs = stored.memoryContent ∧
      SlotsAt stored.relAddr stored.size stored.offset st.capIdxAllocAddr arrays.stateArray ∧
      arrays.stateArray + capArraySize ≤ g.dataspaceSize stored.memoryContent

/-! ## The checkpointer -/

theorem capRegion_covers {child : TargetChild} {info : AttachedRegionInfo}
    (h : child.capRegion = some info) :
    info.relAddr ≤ child.capMapInfo ∧ child.capMapInfo ≤ info.relAddr + info.size := by
  obtain ⟨pd, -, hfind⟩ := Option.bind_eq_some_iff.mp h
  unfold findAttachedByAddr at hfind
  simpa [AttachedRegionInfo.covers] using List.find?_some hfind

theorem createsRight_iff (child : TargetChild) :
    CreatesRight child ↔ ∀ info, child.capRegion = some info →
      attachable info.attachedDsCap = true →
        child.capMapInfo - info.relAddr + 8 + capArraySize ≤ info.size := by
  constructor
  · intro h info hregion hattach
    have hok : ∀ core, (createCapMapInfos child core).1 = .ok (child.capabilityMap core) := by
      intro core
      unfold createCapMapInfos
      rw [hregion]
      simp [hattach]
    rcases h with ⟨message, herr⟩ | ⟨info', base, hregion', -, hslots, hwindow⟩
    · have hclash := (herr Core.small).symm.trans (hok Core.small)
      cases hclash
    · obtain rfl : info = info' := Option.some.inj (hregion.symm.trans hregion')
      have hbase := hslots.base
      omega
  · intro h
    cases hregion : child.capRegion with
    | none =>
        refine .inl ⟨"No dataspace found for cap_idx_alloc's datastructure", fun core => ?_⟩
        unfold createCapMapInfos
        rw [hregion]
    | some info =>
        by_cases hattach : attachable info.attachedDsCap = true
        · have hwindow := h info hregion hattach
          have hcovers := capRegion_covers hregion
          refine .inr ⟨info, _, hregion, fun core => ?_, ⟨hcovers.1, ?_, rfl⟩, ?_⟩
          · unfold createCapMapInfos TargetChild.capabilityMap
            rw [hregion]
            simp only [hattach, if_true]
          · unfold capArraySize capIndexSize capSlots at hwindow
            omega
          · omega
        · refine .inl ⟨"Region_map::Invalid_dataspace", fun core => ?_⟩
          unfold createCapMapInfos
          rw [hregion]
          simp only [hattach]
          rfl

/-! ## The restorer -/

theorem storedCapRegion_covers {st : TargetState} {stored : StoredAttachedRegionInfo}
    (h : st.capRegion = some stored) :
    stored.relAddr ≤ st.capIdxAllocAddr ∧
      st.capIdxAllocAddr ≤ stored.relAddr + stored.size := by
  obtain ⟨pd, -, hfind⟩ := Option.bind_eq_some_iff.mp h
  have hcovers := List.find?_some hfind
  simpa [StoredAttachedRegionInfo.covers] using hcovers

/-- The arrays, once both regions have been found. -/
def capArraysOf (child : TargetChild) (st : TargetState) (info : AttachedRegionInfo)
    (stored : StoredAttachedRegionInfo) : CapArrays where
  childDs := info.attachedDsCap
  childArray := child.capMapInfo - info.relAddr + 8
  stateDs := stored.memoryContent
  stateArray := st.capIdxAllocAddr - info.relAddr + 8
  remoteChildArrayStart := child.capMapInfo + 8

section Restore

variable {g : Genode} {child : TargetChild} {st : TargetState} {info : AttachedRegionInfo}
  {stored : StoredAttachedRegionInfo}

theorem findCapArrays_of_found (hregion : child.capRegion = some info)
    (hstored : st.capRegion = some stored) :
    findCapArrays g child st =
      if attachable info.attachedDsCap = true ∧ attachable stored.memoryContent = true then
        if info.relAddr ≤ st.capIdxAllocAddr ∧
            child.capMapInfo - info.relAddr + 8 + capArraySize ≤
              g.dataspaceSize info.attachedDsCap ∧
            st.capIdxAllocAddr - info.relAddr + 8 + capArraySize ≤
              g.dataspaceSize stored.memoryContent then
          .ok (capArraysOf child st info stored)
        else .error .outOfBounds
      else .error (.exception "Region_map::Invalid_dataspace") := by
  obtain ⟨pd, hpd, hfind⟩ := Option.bind_eq_some_iff.mp hstored
  unfold findCapArrays
  simp only [hregion, hpd, hfind]
  by_cases hattach : attachable info.attachedDsCap = true ∧ attachable stored.memoryContent = true
  · rw [if_pos hattach, hattach.1, hattach.2]
    rfl
  · rw [if_neg hattach]
    have hneg : (!(attachable info.attachedDsCap && attachable stored.memoryContent)) = true := by
      rw [Bool.not_eq_true', ← Bool.not_eq_true, Bool.and_eq_true]
      exact hattach
    rw [hneg]
    rfl

theorem findCapArrays_throws (h : child.capRegion = none ∨ st.capRegion = none) :
    ∃ message, findCapArrays g child st = .error (.exception message) := by
  unfold findCapArrays
  cases hregion : child.capRegion with
  | none => exact ⟨_, rfl⟩
  | some info =>
      have hnone := h.resolve_left (by rw [hregion]; exact Option.some_ne_none _)
      unfold TargetState.capRegion at hnone
      dsimp only
      cases hpd : st.pdSessions.find? (·.bootstrapped) with
      | none => exact ⟨_, rfl⟩
      | some pd =>
          rw [hpd, Option.bind_some] at hnone
          simp only [hnone]
          exact ⟨_, rfl⟩

/-- The two regions fit together: the child's region shows its dataspace
from the beginning, and the stored one begins where that one does, plus
its own offset. -/
structure SameWindows (g : Genode) (child : TargetChild) (st : TargetState)
    (info : AttachedRegionInfo) (stored : StoredAttachedRegionInfo) : Prop where
  offset : info.offset = 0
  relAddr : stored.relAddr = info.relAddr + stored.offset
  upper : child.capMapInfo < info.relAddr + info.size
  storedUpper : st.capIdxAllocAddr < stored.relAddr + stored.size
  inside : child.capMapInfo - info.relAddr + 8 + capArraySize ≤ g.dataspaceSize info.attachedDsCap
  storedInside : st.capIdxAllocAddr - info.relAddr + 8 + capArraySize ≤
    g.dataspaceSize stored.memoryContent

theorem restoresRight_iff (g : Genode) (child : TargetChild) (st : TargetState) :
    RestoresRight g child st ↔ ∀ info stored, child.capRegion = some info →
      st.capRegion = some stored → attachable info.attachedDsCap = true →
        attachable stored.memoryContent = true → SameWindows g child st info stored := by
  constructor
  · intro h info stored hregion hstored hattach hattach'
    have hcovers := capRegion_covers hregion
    have hcovers' := storedCapRegion_covers hstored
    have hfound := findCapArrays_of_found (g := g) hregion hstored
    rw [if_pos ⟨hattach, hattach'⟩] at hfound
    rcases h with ⟨message, herr⟩ |
      ⟨info', stored', arrays, hregion', hstored', hok, -, hslots, hin, -, hslots', hin'⟩
    · rw [herr] at hfound
      split at hfound
      · cases hfound
      · cases hfound
    · obtain rfl : info = info' := Option.some.inj (hregion.symm.trans hregion')
      obtain rfl : stored = stored' := Option.some.inj (hstored.symm.trans hstored')
      rw [hok] at hfound
      split at hfound
      · rename_i hbounds
        obtain rfl := Except.ok.inj hfound
        have hbase := hslots.base
        have hbase' := hslots'.base
        simp only [capArraysOf] at hbase hbase'
        exact ⟨by omega, by omega, hslots.upper, hslots'.upper, hbounds.2.1, hbounds.2.2⟩
      · cases hfound
  · intro h
    cases hregion : child.capRegion with
    | none => exact .inl (findCapArrays_throws (.inl hregion))
    | some info =>
        cases hstored : st.capRegion with
        | none => exact .inl (findCapArrays_throws (.inr hstored))
        | some stored =>
            have hfound := findCapArrays_of_found (g := g) hregion hstored
            by_cases hattach : attachable info.attachedDsCap = true ∧
                attachable stored.memoryContent = true
            · have hsame := h info stored hregion hstored hattach.1 hattach.2
              have hcovers := capRegion_covers hregion
              have hcovers' := storedCapRegion_covers hstored
              have hoffset := hsame.offset
              have hrel := hsame.relAddr
              rw [if_pos hattach, if_pos ⟨by omega, hsame.inside, hsame.storedInside⟩] at hfound
              refine .inr ⟨info, stored, _, hregion, hstored, hfound, rfl,
                ⟨hcovers.1, hsame.upper, ?_⟩, hsame.inside, rfl,
                ⟨hcovers'.1, hsame.storedUpper, ?_⟩, hsame.storedInside⟩
              · simp only [capArraysOf]
                omega
              · simp only [capArraysOf]
                omega
            · rw [if_neg hattach] at hfound
              exact .inl ⟨_, hfound⟩

end Restore

/-- **Both sides address the same bytes** — those the child sees behind
its address — exactly where the array ends inside the checkpointed
region, and the two regions of the restorer fit together. -/
theorem capArrays_addressed_iff (g : Genode) (checkpointed child : TargetChild)
    (st : TargetState) :
    CreatesRight checkpointed ∧ RestoresRight g child st ↔
      (∀ info, checkpointed.capRegion = some info → attachable info.attachedDsCap = true →
        checkpointed.capMapInfo - info.relAddr + 8 + capArraySize ≤ info.size) ∧
      ∀ info stored, child.capRegion = some info → st.capRegion = some stored →
        attachable info.attachedDsCap = true → attachable stored.memoryContent = true →
          SameWindows g child st info stored :=
  and_congr (createsRight_iff checkpointed) (restoresRight_iff g child st)

/-! ## Windows that are mixed up -/

namespace CapWindowSample

/-- The second small child, with other attached regions. -/
def child (regions : List AttachedRegionInfo) (capMapInfo : Nat) : TargetChild :=
  { TargetChild.twin with
    services :=
      { TargetChild.twin.services with pdRoot := [.bare 210 true [⟨⟨240⟩, true⟩] regions] }
    capMapInfo := capMapInfo }

def region (size offset relAddr : Nat) : AttachedRegionInfo where
  attachedDsCap := ⟨231⟩
  size := size
  offset := offset
  relAddr := relAddr
  executable := false
  bootstrapped := true

end CapWindowSample

open CapWindowSample in
/-- A region that shows its dataspace from byte 0x1000 on: the array is
taken from byte 8 instead of 0x1008. -/
theorem wrong_bytes_behind_offset :
    findCapArrays Genode.small (child [region 0x9000 0x1000 0x1000] 0x1000)
        RoundTripSample.checkpoint.state = .ok ⟨⟨231⟩, 8, ⟨100⟩, 8, 0x1008⟩ ∧
      ¬RestoresRight Genode.small (child [region 0x9000 0x1000 0x1000] 0x1000)
        RoundTripSample.checkpoint.state := by
  have hfound : (findCapArrays Genode.small (child [region 0x9000 0x1000 0x1000] 0x1000)
      RoundTripSample.checkpoint.state).toOption.map id = some ⟨⟨231⟩, 8, ⟨100⟩, 8, 0x1008⟩ := by
    decide +kernel
  obtain ⟨arrays, harrays, rfl⟩ := exists_ok_of_map hfound
  refine ⟨harrays, fun h => ?_⟩
  rcases h with ⟨message, herr⟩ | ⟨info, stored, arrays, hregion, -, hok, -, hslots, -⟩
  · rw [harrays] at herr
    cases herr
  · obtain rfl := Except.ok.inj (harrays.symm.trans hok)
    obtain rfl : region 0x9000 0x1000 0x1000 = info := Option.some.inj hregion
    have hbase := hslots.base
    revert hbase
    decide

end Rtcr
