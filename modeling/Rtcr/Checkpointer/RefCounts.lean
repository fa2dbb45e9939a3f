import Rtcr.Checkpointer.Bookings
import Rtcr.Lib.RefCount

/-!
# Checkpointer.RefCounts — the ledger of the copy dataspaces

`_copy_dataspaces` is a reference-counted table whose references are the
stored RAM dataspaces and the stored attached regions. `Counted` is the
invariant of the prepare phase, a booking of these references.
-/

namespace Rtcr.Checkpointer

open Reconcile

def copyTable : RefCount.Table OrigCopyCountInfo Nat Cap where
  key := (·.badge)
  val := (·.copyDsCap)
  count := (·.refCount)
  setCount n info := { info with refCount := n }
  key_setCount _ _ := rfl
  val_setCount _ _ := rfl
  count_setCount _ _ := rfl

/-- The copy dataspaces are exact for `refs`, all of them references to
dataspaces the child owns (`own`). `plain` says which badges are not
those of region-map dataspaces; the list of known region-map dataspaces
has no plain ones and has all of `live`. -/
structure Counted (plain own : Nat → Prop) (live : List Nat) (refs : Multiset Ref)
    (ck : Checkpointer) : Prop where
  exact : RefCount.Exact copyTable plain refs ck.copyDataspaces
  own : ∀ r ∈ refs, own r.1
  known : ∀ b ∈ live, b ∈ ck.regionMapDataspaces
  only : ∀ b ∈ ck.regionMapDataspaces, ¬plain b

variable {plain own : Nat → Prop} {live : List Nat} {refs : Multiset Ref} {ck : Checkpointer}

theorem counted_recording : Recording (Counted plain own live refs) where
  newRecord _ h := ⟨h.exact, h.own, h.known, h.only⟩
  destroyRecord _ _ h := ⟨h.exact, h.own, h.known, h.only⟩

/-! ## One user more, one user less -/

theorem isBadge_eq (b : Nat) : isBadge b = fun info => copyTable.key info == b := rfl

theorem find_isBadge_some {b : Nat} {infos : List OrigCopyCountInfo} {info : OrigCopyCountInfo}
    (h : infos.find? (isBadge b) = some info) : info ∈ infos ∧ copyTable.key info = b :=
  ⟨List.mem_of_find?_eq_some h, beq_iff_eq.mp (List.find?_some (p := isBadge b) h)⟩

theorem find_isBadge_none {b : Nat} {infos : List OrigCopyCountInfo}
    (h : infos.find? (isBadge b) = none) : b ∉ infos.map copyTable.key := by
  intro hb
  obtain ⟨info, hinfo, rfl⟩ := List.mem_map.mp hb
  exact List.find?_eq_none.mp h info hinfo (beq_self_eq_true _)

/-- Dataspaces are excluded exactly if they are not plain. -/
theorem Counted.use {excluded : Bool} {cap : Cap} (size : Nat) (h : Counted plain own live refs ck)
    (hown : own cap.localName) (hex : excluded = true ↔ ¬plain cap.localName) :
    Counted plain own live (refs + {(cap.localName, (ck.useCopyDataspace excluded cap size).1)})
      (ck.useCopyDataspace excluded cap size).2 := by
  have hall : ∀ v : Cap, ∀ r ∈ refs + {(cap.localName, v)}, own r.1 := by
    intro v r hr
    rcases Multiset.mem_add.mp hr with hr | hr
    · exact h.own r hr
    · rw [Multiset.mem_singleton.mp hr]
      exact hown
  unfold useCopyDataspace
  split
  · rename_i known hfind
    obtain ⟨hmem, hkey⟩ := find_isBadge_some hfind
    refine ⟨?_, hall _, h.known, h.only⟩
    have hacq := h.exact.acquire hmem
    rw [hkey] at hacq
    rw [isBadge_eq, List.modifyFirst_key _ _ h.exact.nodup]
    exact hacq
  · rename_i hfind
    by_cases he : excluded = true
    · rw [if_pos he]
      exact ⟨(RefCount.Exact.untracked (hex.mp he)).mpr h.exact, hall _, h.known, h.only⟩
    · rw [if_neg he]
      have hplain : plain cap.localName := not_not.mp fun hp => he (hex.mpr hp)
      have hnew := h.exact.acquire_new (e := ⟨cap, ck.core.newDataspace.1, size, 1⟩) hplain
        (find_isBadge_none hfind) rfl
      exact ⟨hnew, hall _, h.known, h.only⟩

theorem Counted.drop {b : Nat} {v : Cap} (h : Counted plain own live (refs + {(b, v)}) ck) :
    Counted plain own live refs (ck.dropCopyDataspace b) := by
  have hrest : ∀ r ∈ refs, own r.1 := fun r hr => h.own r (Multiset.mem_add.mpr (.inl hr))
  unfold dropCopyDataspace
  split
  · rename_i known hfind
    obtain ⟨hmem, hkey⟩ := find_isBadge_some hfind
    by_cases hlast : known.refCount - 1 < 1
    · rw [if_pos hlast, isBadge_eq, List.eraseP_key _ h.exact.nodup]
      have hone : ¬1 < copyTable.count known := by change ¬1 < known.refCount; omega
      exact ⟨h.exact.release_last hmem hkey hone, hrest, h.known, h.only⟩
    · rw [if_neg hlast, isBadge_eq, List.modifyFirst_key _ _ h.exact.nodup]
      have hmany : 1 < copyTable.count known := by change 1 < known.refCount; omega
      exact ⟨h.exact.release hmem hkey hmany, hrest, h.known, h.only⟩
  · rename_i hfind
    -- a plain badge that is referenced has an entry
    have hnot : ¬plain b := fun htr => by
      obtain ⟨e, he, hk, -⟩ := h.exact.entry_of_mem htr
      exact find_isBadge_none hfind (hk ▸ List.mem_map_of_mem he)
    exact ⟨(RefCount.Exact.untracked hnot).mp h.exact, hrest, h.known, h.only⟩

/-! ## The booking -/

/-- What an attached dataspace must be like: one of the child's, and if
it is a region map's, then of one that is there. -/
def AttachedOk (plain own : Nat → Prop) (live : List Nat) (b : Nat) : Prop :=
  own b ∧ (¬plain b → b ∈ live)

theorem counted_booking : Booking (Counted plain own live) (fun b => plain b ∧ own b)
    (AttachedOk plain own live) (fun b => ¬plain b) where
  recording _ := counted_recording
  ram _ cap size _ hcap hck := hck.use size hcap.2 (by simp [hcap.1])
  attached m info ck hinfo hck :=
    have hex : ck.regionMapDataspaces.contains info.attachedDsCap.localName = true ↔
        ¬plain info.attachedDsCap.localName := by
      rw [List.contains_iff_mem]
      exact ⟨hck.only _, fun hp => hck.known _ (hinfo.2 hp)⟩
    hck.use info.size hinfo.1 hex
  drop _ _ _ _ hck := hck.drop
  regionMap m b ck hb hck := by
    refine ⟨hck.exact, hck.own, fun b' hb' => List.mem_cons_of_mem _ (hck.known b' hb'),
      fun b' hb' => ?_⟩
    rcases List.mem_cons.mp hb' with rfl | hb'
    · exact hb
    · exact hck.only b' hb'

variable (plain own live)

/-- What a region map must be like. -/
structure PlainRegionMap (c : RegionMapComponent) : Prop where
  dataspace : ¬plain c.parentState.dsCap.localName
  attached : ∀ r ∈ c.parentState.attachedRegions, own r.attachedDsCap.localName ∧
    (¬plain r.attachedDsCap.localName → r.attachedDsCap.localName ∈ live)

/-- What the PD sessions of a run must be like: one badge, one set of
region maps. -/
structure PlainPdSession (pds : PdSessionComponent → Prop) (c : PdSessionComponent) : Prop where
  listed : pds c
  areas : ∀ d, pds d → d.cap.localName = c.cap.localName →
    (areas d).map (·.cap.localName) = (areas c).map (·.cap.localName)
  regionMaps : ∀ a ∈ Checkpointer.areas c, PlainRegionMap plain own live a

variable {plain own live}

theorem PlainRegionMap.ok {c : RegionMapComponent} (h : PlainRegionMap plain own live c) :
    Booking.RegionMapOk (AttachedOk plain own live) (fun b => ¬plain b) c :=
  ⟨h.dataspace, h.attached⟩

theorem PlainPdSession.ok {pds : PdSessionComponent → Prop} {c : PdSessionComponent}
    (h : PlainPdSession plain own live pds c) :
    Booking.PdSessionOk (AttachedOk plain own live) (fun b => ¬plain b) pds c :=
  ⟨h.listed, h.areas, fun a ha => (h.regionMaps a ha).ok⟩

end Rtcr.Checkpointer
