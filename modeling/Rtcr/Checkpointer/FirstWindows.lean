import Rtcr.Checkpointer.AttachedRegions
import Rtcr.Checkpointer.CopySizes

/-!
# Checkpointer.FirstWindows — which window a copy is made for

An attached dataspace that no RAM session lists gets its copy when the
first window onto it has its turn, in the size of that window.
`SizedByFirst` says so for all windows that have had their turn, and
`prepare_sized` for a whole first prepare phase. `mem_storedWindows`: the
windows that had a turn are those the records stand for.
-/

namespace Rtcr

namespace Checkpointer

open Reconcile

/-! ## Sizes -/

/-- The size of the copy of a badge's dataspace. -/
def copySizeOf (infos : List OrigCopyCountInfo) (b : Nat) : Option Nat :=
  (infos.find? (isBadge b)).map (·.size)

/-- The first of the windows onto a badge's dataspace. -/
def firstWindow (ws : List Region) (b : Nat) : Option Region :=
  ws.find? fun w => w.dsCap.localName == b

/-- A copy that is there keeps its size. -/
theorem copySizeOf_use (excluded : Bool) (cap : Cap) (size b : Nat) (ck : Checkpointer) :
    copySizeOf (ck.useCopyDataspace excluded cap size).2.copyDataspaces b =
      (copySizeOf ck.copyDataspaces b).or
        (if cap.localName = b ∧ excluded = false then some size else none) := by
  unfold useCopyDataspace
  cases hfind : ck.copyDataspaces.find? (isBadge cap.localName) with
  | some known =>
      have hsame : copySizeOf (List.modifyFirst (isBadge cap.localName)
          (fun info => { info with refCount := info.refCount + 1 }) ck.copyDataspaces) b =
          copySizeOf ck.copyDataspaces b :=
        List.map_find?_modifyFirst (q := isBadge b)
          (f := fun info => { info with refCount := info.refCount + 1 })
          (g := fun info => info.size) (fun _ => rfl) (fun _ => rfl) ck.copyDataspaces
      show copySizeOf (List.modifyFirst _ _ ck.copyDataspaces) b = _
      rw [hsame]
      by_cases he : cap.localName = b
      · have hsome : copySizeOf ck.copyDataspaces b = some known.size := by
          rw [copySizeOf, ← he, hfind]
          rfl
        rw [hsome]
        rfl
      · rw [if_neg fun h => he h.1, Option.or_none]
  | none =>
      cases excluded with
      | true => simp
      | false =>
          show copySizeOf (⟨cap, ck.core.newDataspace.1, size, 1⟩ :: ck.copyDataspaces) b = _
          by_cases he : cap.localName = b
          · have hnew : isBadge b ⟨cap, ck.core.newDataspace.1, size, 1⟩ = true :=
              beq_iff_eq.mpr he
            have hnone : copySizeOf ck.copyDataspaces b = none := by
              rw [copySizeOf, ← he, hfind]
              rfl
            rw [hnone, copySizeOf, List.find?_cons_of_pos hnew, if_pos ⟨he, rfl⟩]
            rfl
          · have hold : ¬isBadge b ⟨cap, ck.core.newDataspace.1, size, 1⟩ = true := fun h =>
              he (beq_iff_eq.mp h)
            rw [copySizeOf, List.find?_cons_of_neg hold, if_neg fun h => he h.1, Option.or_none]
            rfl

theorem firstWindow_append (ws : List Region) (w : Region) (b : Nat) :
    firstWindow (ws ++ [w]) b =
      (firstWindow ws b).or (if w.dsCap.localName = b then some w else none) := by
  unfold firstWindow
  rw [List.find?_append]
  congr 1
  by_cases he : w.dsCap.localName = b
  · rw [if_pos he, List.find?_cons_of_pos (by simpa using he)]
  · rw [if_neg he, List.find?_cons_of_neg (by simpa using he)]
    rfl

/-- The copy of every dataspace of `unknown` origin is as large as the
first window onto it, of those in `seen`. -/
structure SizedByFirst (unknown : Nat → Prop) (seen : List Region) (ck : Checkpointer) :
    Prop where
  sizes : ∀ b, unknown b →
    copySizeOf ck.copyDataspaces b = (firstWindow seen b).map (·.size)
  regionMaps : ∀ b ∈ ck.regionMapDataspaces, ¬unknown b

variable {unknown : Nat → Prop} {seen : List Region} {ck : Checkpointer}

theorem sizedByFirst_recording (unknown : Nat → Prop) (seen : List Region) :
    Recording (SizedByFirst unknown seen) where
  newRecord _ h := ⟨h.sizes, h.regionMaps⟩
  destroyRecord _ _ h := ⟨h.sizes, h.regionMaps⟩

theorem SizedByFirst.useKnown {cap : Cap} (h : SizedByFirst unknown seen ck)
    (hcap : ¬unknown cap.localName) (excluded : Bool) (size : Nat) :
    SizedByFirst unknown seen (ck.useCopyDataspace excluded cap size).2 where
  sizes b hb := by
    have hne : cap.localName ≠ b := fun he => hcap (he ▸ hb)
    rw [copySizeOf_use, if_neg fun hc => hne hc.1, Option.or_none]
    exact h.sizes b hb
  regionMaps := by
    rw [useCopyDataspace_regionMapDataspaces]
    exact h.regionMaps

/-- A window has its turn. -/
theorem SizedByFirst.attach (h : SizedByFirst unknown seen ck) (info : AttachedRegionInfo) :
    SizedByFirst unknown (seen ++ [info.toRegion]) (attachedCopy info ck).2 where
  sizes b hb := by
    have hex : info.attachedDsCap.localName = b →
        ck.regionMapDataspaces.contains info.attachedDsCap.localName = false := by
      rintro rfl
      rw [Bool.eq_false_iff, ne_eq, List.contains_iff_mem]
      exact fun hmap => h.regionMaps _ hmap hb
    unfold attachedCopy
    rw [copySizeOf_use, firstWindow_append, h.sizes b hb]
    show _ = Option.map _ (Option.or _ (if info.attachedDsCap.localName = b then _ else _))
    by_cases he : info.attachedDsCap.localName = b
    · rw [if_pos ⟨he, hex he⟩, if_pos he]
      cases firstWindow seen b with
      | none => rfl
      | some w => rfl
    · rw [if_neg fun hc => he hc.1, if_neg he, Option.or_none, Option.or_none]
  regionMaps := by
    unfold attachedCopy
    rw [useCopyDataspace_regionMapDataspaces]
    exact h.regionMaps

/-! ## Region maps -/

/-- The windows of a region map that get a record, in the order of their
turns. -/
def recordedWindows (a : RegionMapComponent) : List Region :=
  (Region.track (childRegions a.parentState.attachedRegions) []).reverse

/-- Where nothing is stored yet, every record made is kept. -/
theorem prepareAttachedRegions_nil (child : List AttachedRegionInfo) (ck : Checkpointer) :
    prepareAttachedRegions [] child ck = addMissing attachedRegionKind child [] ck := by
  refine dropObsolete_of_present (fun t ht => ?_) _
  have hmem : t.toRegion ∈ storedRegions (addMissing attachedRegionKind child [] ck).1 :=
    List.mem_map_of_mem ht
  rw [addMissing_regions] at hmem
  obtain ⟨c, hc, he⟩ := List.mem_map.mp ((Region.mem_of_mem_track hmem).resolve_left (by simp [storedRegions]))
  have haddr : c.relAddr = t.relAddr := congrArg Region.addr he
  refine List.any_eq_true.mpr ⟨c, hc, ?_⟩
  show c.toRegion.covers t.relAddr = true
  rw [← haddr]
  exact c.toRegion.covers_self

theorem storedRegions_nil (child : List AttachedRegionInfo) (ck : Checkpointer) :
    storedRegions (prepareAttachedRegions [] child ck).1 = Region.track (childRegions child) [] := by
  rw [prepareAttachedRegions_nil, addMissing_regions]
  rfl

/-- The windows of a region map have their turns. -/
theorem SizedByFirst.attachedRegions {ts : List StoredAttachedRegionInfo}
    (h : SizedByFirst unknown (seen ++ (storedRegions ts).reverse) ck)
    (child : List AttachedRegionInfo) :
    SizedByFirst unknown
      (seen ++ (Region.track (childRegions child) (storedRegions ts)).reverse)
      (addMissing attachedRegionKind child ts ck).2 := by
  induction child generalizing ts ck with
  | nil => exact h
  | cons c child ih =>
      have hturn : SizedByFirst unknown
          (seen ++ (storedRegions (track attachedRegionKind c ts ck).1).reverse)
          (track attachedRegionKind c ts ck).2 := by
        by_cases hany : ts.any (attachedRegionKind.stored c) = true
        · -- a record covers the start of this window: nothing happens
          have hidle : ∀ ts : List StoredAttachedRegionInfo,
              updateFirst (attachedRegionKind.stored c) (attachedRegionKind.update c) ts ck =
                (ts, ck) := by
            intro ts
            induction ts with
            | nil => rfl
            | cons t ts ih =>
                unfold updateFirst
                split
                · rfl
                · rw [ih]
          rw [track, if_pos hany, hidle]
          exact h
        · rw [track, if_neg hany]
          have hnew := h.attach c
          show SizedByFirst unknown (seen ++ (c.toRegion :: storedRegions ts).reverse)
            (attachedCopy c ck).2.newRecord.2
          rw [List.reverse_cons, ← List.append_assoc]
          exact (sizedByFirst_recording unknown _).newRecord _ hnew
      have hrest := ih hturn
      rw [track_regions] at hrest
      exact hrest

/-- A region map whose record is new has its turn. -/
theorem SizedByFirst.regionMap {c : RegionMapComponent}
    (hmap : ¬unknown c.parentState.dsCap.localName) {t : StoredRegionMapInfo}
    (ht : t.storedAttachedRegionInfos = []) (h : SizedByFirst unknown seen ck) :
    SizedByFirst unknown (seen ++ recordedWindows c) (updateRegionMap c t ck).2 := by
  have hnil : SizedByFirst unknown (seen ++ (storedRegions []).reverse) ck := by
    simpa [storedRegions] using h
  have hregions := hnil.attachedRegions c.parentState.attachedRegions
  rw [← prepareAttachedRegions_nil] at hregions
  unfold updateRegionMap
  rw [ht]
  refine ⟨hregions.sizes, fun b hb => ?_⟩
  rcases List.mem_cons.mp hb with rfl | hb
  · exact hmap
  · exact hregions.regionMaps b hb

theorem SizedByFirst.regionMaps_turns {cs : List RegionMapComponent}
    (hcs : (cs.map (·.cap.localName)).Nodup)
    (hmaps : ∀ c ∈ cs, ¬unknown c.parentState.dsCap.localName) {ts : List StoredRegionMapInfo}
    (hkeys : ∀ t ∈ ts, t.badge ∈ cs.map (·.cap.localName))
    (hts : ∀ t ∈ ts, t.storedAttachedRegionInfos = []) (h : SizedByFirst unknown seen ck) :
    SizedByFirst unknown (seen ++ cs.flatMap recordedWindows) (prepareRegionMaps ts cs ck).2 :=
  regionMapKind_keyed.reconcile_trace (I := SizedByFirst unknown)
    (Q := fun _ t => t.storedAttachedRegionInfos = [])
    (fun _ _ seen s hs => ⟨(sizedByFirst_recording unknown seen).newRecord s hs, rfl⟩)
    (fun c hc _ _ _ ht hs => hs.regionMap (hmaps c hc) ht) hcs hkeys
    (fun t ht _ _ _ => hts t ht) seen h

/-! ## The prepare phase -/

theorem SizedByFirst.ramSessions {cs : List RamSessionComponent}
    (hcs : (cs.map (·.cap.localName)).Nodup)
    (hds : ∀ c ∈ cs, (c.parentState.ramDataspaces.map (·.cap.localName)).Nodup)
    (hknown : ∀ c ∈ cs, ∀ d ∈ c.parentState.ramDataspaces, ¬unknown d.cap.localName)
    (h : SizedByFirst unknown seen ck) :
    SizedByFirst unknown seen (prepareRamSessions [] cs ck).2 := by
  -- nothing is noted: the log is one of units
  have hsession : ∀ c ∈ cs, ∀ s, SizedByFirst unknown seen s →
      SizedByFirst unknown seen (prepareRamDataspaces [] c.parentState.ramDataspaces s).2 :=
    fun c hc s hs => ramDataspaceKind_keyed.reconcile_trace_nil
      (I := fun _ => SizedByFirst unknown seen) (Q := fun _ _ => True)
      (f := fun _ => ([] : List Unit))
      (fun d hd _ s hs => ⟨(sizedByFirst_recording unknown seen).newRecord _
        (hs.useKnown (hknown c hc d hd) false d.size), trivial⟩)
      (fun _ _ _ _ _ _ hs => hs) (hds c hc) [] hs
  exact ramSessionKind_keyed.reconcile_trace_nil
    (I := fun _ => SizedByFirst unknown seen) (Q := fun _ t => t.storedRamdsInfos = [])
    (f := fun _ => ([] : List Unit))
    (fun _ _ _ s hs => ⟨(sizedByFirst_recording unknown seen).newRecord s hs, rfl⟩)
    (fun c hc t _ s ht hs => by
      have hds := hsession c hc s hs
      rw [← ht] at hds
      exact hds)
    hcs [] h

theorem SizedByFirst.pdSessions {cs : List PdSessionComponent}
    (hcs : (cs.map (·.cap.localName)).Nodup)
    (hareas : ∀ c ∈ cs, ((areas c).map (·.cap.localName)).Nodup)
    (hmaps : ∀ c ∈ cs, ∀ a ∈ areas c, ¬unknown a.parentState.dsCap.localName)
    (h : SizedByFirst unknown seen ck) :
    SizedByFirst unknown (seen ++ cs.flatMap fun c => (areas c).flatMap recordedWindows)
      (preparePdSessions [] cs ck).2 :=
  pdSessionKind_keyed.reconcile_trace_nil (I := SizedByFirst unknown)
    (Q := fun c t => SameAreas t c ∧ ∀ u ∈ storedAreas t, u.storedAttachedRegionInfos = [])
    (fun c _ seen s hs => ⟨(sizedByFirst_recording unknown seen).newRecord s hs, rfl, by
      intro u hu
      rcases (by simpa [storedAreas] using hu : _ ∨ _ ∨ _) with rfl | rfl | rfl <;> rfl⟩)
    (fun c hc t seen s ht hs => by
      have hlists := (sizedByFirst_recording unknown seen).afterPdLists c t hs
      refine hlists.regionMaps_turns (hareas c hc) (hmaps c hc) (fun u hu => ?_) ht.2
      rw [← ht.1]
      exact List.mem_map_of_mem (f := fun v : StoredRegionMapInfo => v.badge) hu)
    hcs seen h

theorem SizedByFirst.rmRoot {root : Option (List RmSessionComponent)}
    (hcs : ((sessionInfos root).map (·.cap.localName)).Nodup)
    (hkeys : ∀ c ∈ sessionInfos root, (c.parentState.regionMaps.map (·.cap.localName)).Nodup)
    (hmaps : ∀ c ∈ sessionInfos root, ∀ a ∈ c.parentState.regionMaps,
      ¬unknown a.parentState.dsCap.localName) (h : SizedByFirst unknown seen ck) :
    SizedByFirst unknown
      (seen ++ (sessionInfos root).flatMap fun c => c.parentState.regionMaps.flatMap recordedWindows)
      (prepareRoot prepareRmSessions [] root ck).2 := by
  cases root with
  | none => simpa [sessionInfos, prepareRoot] using h
  | some cs =>
      exact rmSessionKind_keyed.reconcile_trace_nil (I := SizedByFirst unknown)
        (Q := fun _ t => t.storedRegionMapInfos = [])
        (fun _ _ seen s hs => ⟨(sizedByFirst_recording unknown seen).newRecord s hs, rfl⟩)
        (fun c hc t seen s ht hs => hs.regionMaps_turns (hkeys c hc) (hmaps c hc)
          (by rw [ht]; simp) (by rw [ht]; simp))
        hcs seen h

/-- All windows of the child that get a record. -/
def windowsOf (s : CustomServices) : List Region := (regionMapsOf s).flatMap recordedWindows

/-- **A first prepare phase** makes the copies in the sizes of the first
windows. -/
theorem SizedByFirst.prepare {s : CustomServices} (hs : DistinctObjects s)
    (hram : ∀ c ∈ s.ramRoot, ∀ d ∈ c.parentState.ramDataspaces, ¬unknown d.cap.localName)
    (hmaps : ∀ a ∈ regionMapsOf s, ¬unknown a.parentState.dsCap.localName) (capIdxAllocAddr : Nat)
    (h : SizedByFirst unknown [] ck) :
    SizedByFirst unknown (windowsOf s)
      (Checkpointer.prepare s { TargetState.empty with capIdxAllocAddr := capIdxAllocAddr } ck).2 := by
  have hrecording := sizedByFirst_recording unknown (windowsOf s)
  have hpd := (h.ramSessions hs.ram hs.ramDataspaces hram).pdSessions hs.pd
    (fun c hc => (hs.pdLists c hc).areas) fun c hc a ha =>
      hmaps a (List.mem_append_left _ (List.mem_flatMap.mpr ⟨c, hc, ha⟩))
  have hcpu := (sizedByFirst_recording unknown _).cpuSessions.reconcile [] s.cpuRoot hpd
  have hrm := hcpu.rmRoot hs.rm hs.regionMaps fun c hc a ha =>
    hmaps a (List.mem_append_right _ (List.mem_flatMap.mpr ⟨c, hc, ha⟩))
  have hwindows : windowsOf s = [] ++ s.pdRoot.flatMap (fun c => (areas c).flatMap recordedWindows) ++
      (sessionInfos s.rmRoot).flatMap fun c => c.parentState.regionMaps.flatMap recordedWindows := by
    rw [windowsOf, regionMapsOf, List.flatMap_append, List.flatMap_assoc, List.flatMap_assoc,
      List.nil_append]
  rw [← hwindows] at hrm
  exact prepareRoot_keeps hrecording.timerSessions _ s.timerRoot
    (prepareRoot_keeps hrecording.logSessions _ s.logRoot hrm)

/-! ## The records -/

/-- The regions that the record of a region map has. -/
def regionsOf (t : StoredRegionMapInfo) : List Region := storedRegions t.storedAttachedRegionInfos

theorem mem_regionMaps {cs : List RegionMapComponent} (hcs : (cs.map (·.cap.localName)).Nodup)
    (ts : List StoredRegionMapInfo) (hts : (ts.map (·.badge)).Nodup)
    (hempty : ∀ t ∈ ts, t.storedAttachedRegionInfos = []) (ck : Checkpointer) (x : Region) :
    x ∈ (prepareRegionMaps ts cs ck).1.flatMap regionsOf ↔ x ∈ cs.flatMap recordedWindows := by
  have hmirror : Mirror (·.badge) (·.cap.localName)
      (fun _ t c => regionsOf t = Region.track (childRegions c.parentState.attachedRegions) [])
      ts (prepareRegionMaps ts cs ck).1 cs :=
    regionMapKind_keyed.mirror (Kind.keeps_true _) trivial hts hcs
      (fun t ht c _ _ s _ => by
        show storedRegions (prepareAttachedRegions t.storedAttachedRegionInfos _ s).1 = _
        rw [hempty t ht, storedRegions_nil])
      (fun c _ _ s _ _ => storedRegions_nil c.parentState.attachedRegions s)
  refine hmirror.mem_flatMap hcs (fun t _ c _ h x => ?_) x
  rw [h, recordedWindows, List.mem_reverse]

theorem mem_pdSessions {cs : List PdSessionComponent} (hcs : (cs.map (·.cap.localName)).Nodup)
    (hareas : ∀ c ∈ cs, ((areas c).map (·.cap.localName)).Nodup) (ck : Checkpointer) (x : Region) :
    x ∈ (preparePdSessions [] cs ck).1.flatMap (fun t => (storedAreas t).flatMap regionsOf) ↔
      x ∈ cs.flatMap fun c => (areas c).flatMap recordedWindows := by
  have hmirror : Mirror (·.badge) (·.cap.localName)
      (fun _ t c => ∀ x, x ∈ (storedAreas t).flatMap regionsOf ↔
        x ∈ (areas c).flatMap recordedWindows) [] (preparePdSessions [] cs ck).1 cs :=
    pdSessionKind_keyed.mirror (Kind.keeps_true _) trivial List.nodup_nil hcs
      (List.forall_mem_nil _)
      (fun c hc s₀ s _ _ x => by
        have hsame : SameAreas (createStoredPdSession c s₀).1 c := rfl
        show x ∈ (storedAreas (updatePdSession c (createStoredPdSession c s₀).1 s).1).flatMap _ ↔ _
        rw [storedAreas_update hsame]
        refine mem_regionMaps (hareas c hc) _ (hsame ▸ hareas c hc) (fun u hu => ?_) _ x
        rcases (by simpa [storedAreas] using hu : _ ∨ _ ∨ _) with rfl | rfl | rfl <;> rfl)
  exact hmirror.mem_flatMap hcs (fun t _ c _ h x => h x) x

theorem mem_rmRoot {root : Option (List RmSessionComponent)}
    (hcs : ((sessionInfos root).map (·.cap.localName)).Nodup)
    (hkeys : ∀ c ∈ sessionInfos root, (c.parentState.regionMaps.map (·.cap.localName)).Nodup)
    (ck : Checkpointer) (x : Region) :
    x ∈ (prepareRoot prepareRmSessions [] root ck).1.flatMap
        (fun t => t.storedRegionMapInfos.flatMap regionsOf) ↔
      x ∈ (sessionInfos root).flatMap fun c => c.parentState.regionMaps.flatMap recordedWindows := by
  cases root with
  | none => simp [prepareRoot, sessionInfos]
  | some cs =>
      have hmirror : Mirror (·.badge) (·.cap.localName)
          (fun _ t c => ∀ x, x ∈ t.storedRegionMapInfos.flatMap regionsOf ↔
            x ∈ c.parentState.regionMaps.flatMap recordedWindows) []
          (prepareRmSessions [] cs ck).1 cs :=
        rmSessionKind_keyed.mirror (Kind.keeps_true _) trivial List.nodup_nil hcs
          (List.forall_mem_nil _)
          (fun c hc _ s _ _ x =>
            mem_regionMaps (hkeys c hc) [] List.nodup_nil (List.forall_mem_nil _) s x)
      exact hmirror.mem_flatMap hcs (fun t _ c _ h x => h x) x

/-- **The records of a first prepare phase** stand for the windows that
have had their turn. -/
theorem mem_storedWindows {s : CustomServices} (hs : DistinctObjects s) (capIdxAllocAddr : Nat)
    (ck : Checkpointer) (x : Region) :
    x ∈ storedRegions (attachedRegionInfos (Checkpointer.prepare s
        { TargetState.empty with capIdxAllocAddr := capIdxAllocAddr } ck).1) ↔
      x ∈ windowsOf s := by
  rw [windowsOf, regionMapsOf, List.flatMap_append, List.flatMap_assoc, List.flatMap_assoc,
    storedRegions, attachedRegionInfos, List.map_flatMap, regionMapInfos, List.flatMap_append,
    List.flatMap_assoc, List.flatMap_assoc, List.mem_append, List.mem_append]
  exact or_congr (mem_pdSessions hs.pd (fun c hc => (hs.pdLists c hc).areas) _ x)
    (mem_rmRoot hs.rm hs.regionMaps _ x)

end Checkpointer

end Rtcr
