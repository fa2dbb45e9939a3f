import Rtcr.Checkpointer.Counts
import Rtcr.Checkpointer.Exact
import Rtcr.Incremental.Sync

/-!
# Incremental.FullCopy — one incremental checkpoint

`checkpoint_fullCopy_iff`: from a state in sync a checkpoint leaves full
copies exactly if the designated dataspaces it does not look at, those
behind the first of each list, have not changed. Then the state
afterwards is in sync again.
-/

namespace Rtcr

open ByteStore Reconcile Checkpointer
open List (Forall₂)

variable {plain : Nat → Prop} {pds : PdSessionComponent → Prop} {w : World}

namespace World

/-- Records and checkpointer after the prepare phase. -/
def prepared (w : World) : TargetState × Checkpointer := w.checkpointer.prepared w.state w.child

/-- The RAM sessions when the records are prepared. -/
def prepareRam (w : World) : List RamSessionComponent :=
  (w.checkpointer.prepareChild w.child).services.ramRoot

/-- `e` is the copy of `d` after the prepare phase; it holds what was
stored. -/
structure CopyOf (w : World) (d : RamDataspaceInfo) (e : OrigCopyCountInfo) : Prop where
  mem : e ∈ w.prepared.2.copyDataspaces
  badge : e.badge = d.cap.localName
  stored : ∀ a, w.prepared.2.core.bytes e.copyDsCap.localName a =
    storedByte w.checkpointer d.cap.localName a

/-- What a checkpoint does to the world. -/
theorem checkpointed_eq (hret : w.result.thrown = none) :
    w.checkpointed.state = w.prepared.1 ∧
    w.checkpointed.ram = detachDesignatedDataspaces w.prepareRam ∧
    w.checkpointed.checkpointer.copyDataspaces = w.prepared.2.copyDataspaces ∧
    w.checkpointed.core = { w.prepared.2.core with
      bytes := CopySetup.after w.prepareRam w.prepared.2.copyDataspaces
        w.prepared.2.core.bytes } := by
  obtain ⟨hstate, hchild, hck⟩ := checkpoint_returns hret
  refine ⟨hstate, ?_, ?_, ?_⟩
  · exact congrArg (fun c : TargetChild => c.services.ramRoot) hchild
  · exact congrArg (·.copyDataspaces) hck
  · exact congrArg (·.core) hck

end World

theorem LaidOut.session_nodup {n : Nat} {r : List RamSessionComponent}
    (h : LaidOut n (dataspacesOf r)) {s : RamSessionComponent} (hs : s ∈ r) :
    (s.parentState.ramDataspaces.map (·.cap.localName)).Nodup := by
  obtain ⟨l₁, l₂, rfl⟩ := List.append_of_mem hs
  refine h.badges.sublist (List.Sublist.map _ ?_)
  simp [dataspacesOf]

theorem LaidOut.dds_nodup {n : Nat} {ds : List RamDataspaceInfo} (h : LaidOut n ds)
    {d : RamDataspaceInfo} (hd : d ∈ ds) : d.dds.Nodup := by
  obtain ⟨l₁, l₂, rfl⟩ := List.append_of_mem hd
  refine List.Nodup.of_map (·.cap.localName) (h.dds.sublist (List.Sublist.map _ ?_))
  simp

namespace Synced

theorem prepareRam_evolved (h : Synced plain pds w) : RamRel Evolved w.ram w.prepareRam :=
  createCapMapInfos_evolved w.child.pause h.laid.dataspaces

theorem prepareRam_laid (h : Synced plain pds w) : Laid w.core.nextBadge w.prepareRam :=
  h.laid.related (fun _ _ he => he.toSamePlace) h.prepareRam_evolved

theorem prepared_counted (h : Synced plain pds w) (hadm : Admissible plain pds w) :
    CountedState plain w.checkpointer.Owned pds w.prepared.2 w.prepared.1 :=
  h.counted.prepared hadm.maps hadm.services

theorem prepared_fresh (h : Synced plain pds w) : FreshCopies w.checkpointer w.prepared.2 :=
  prepared_freshCopies h.copiesBelow h.copies

/-! ## Records -/

theorem prepared_mirror (h : Synced plain pds w) :
    Mirror (·.badge) (·.cap.localName) ExactRamSession w.state.ramSessions
      w.prepared.1.ramSessions w.prepareRam := by
  have hmirror := ramSessions_mirror
    (w.checkpointer.setUp (w.checkpointer.prepareChild w.child) (w.child.capabilityMap w.core)) rfl h.records h.prepareRam_laid.sessions h.ramRecords
    fun s hs => h.prepareRam_laid.dataspaces.session_nodup hs
  exact hmirror.imp fun _ _ _ _ _ => exactRamSession_of_step

/-- A dataspace of the child has a record, which keeps its copy. -/
theorem record_of (h : Synced plain pds w) {s : RamSessionComponent} (hs : s ∈ w.ram)
    {d : RamDataspaceInfo} (hd : d ∈ s.parentState.ramDataspaces) :
    ∃ t ∈ w.prepared.1.ramSessions, t.badge = s.cap.localName ∧
      ∃ u ∈ t.storedRamdsInfos, u.badge = d.cap.localName ∧
        ∀ t₀ ∈ w.state.ramSessions, t₀.badge = s.cap.localName →
          ∀ u₀ ∈ t₀.storedRamdsInfos, u₀.badge = d.cap.localName →
            u.memoryContent = u₀.memoryContent := by
  have hmirror := h.prepared_mirror
  obtain ⟨s₁, hs₁, hss⟩ := List.exists_of_forall₂_left h.prepareRam_evolved hs
  obtain ⟨d₁, hd₁, hdd⟩ := List.exists_of_forall₂_left hss.dataspaces hd
  obtain ⟨t, ht, htb⟩ := List.mem_map.mp
    (hmirror.keys.mem_iff.mpr (List.mem_map_of_mem (f := fun c => c.cap.localName) hs₁))
  obtain ⟨c, hc, hct, hexact⟩ := hmirror.each t ht
  have hcs : c = s₁ :=
    List.inj_on_of_nodup_map h.prepareRam_laid.sessions hc hs₁ (hct.trans htb)
  subst hcs
  obtain ⟨u, hu, hub⟩ := List.mem_map.mp
    (hexact.dataspaces.keys.mem_iff.mpr (List.mem_map_of_mem (f := fun c => c.cap.localName) hd₁))
  obtain ⟨_, _, _, hkept⟩ := hexact.dataspaces.each u hu
  refine ⟨t, ht, by rw [htb, hss.cap], u, hu, by rw [hub, hdd.cap], fun t₀ ht₀ htb₀ u₀ hu₀ hub₀ => ?_⟩
  -- the old record of the same badge is the one the new record comes from
  have htt : t₀.badge = t.badge := by rw [htb₀, htb, hss.cap]
  have huu : u₀.badge = u.badge := by rw [hub₀, hub, hdd.cap]
  rw [← htt, find?_key_of_mem h.records ht₀] at hkept
  refine (hkept u₀ ?_).2
  rw [← huu]
  exact find?_key_of_mem (h.ramRecords t₀ ht₀) hu₀

/-- The copy of a dataspace after the prepare phase holds what was
stored. -/
theorem entry_of (h : Synced plain pds w) (hadm : Admissible plain pds w)
    {s : RamSessionComponent} (hs : s ∈ w.ram) {d : RamDataspaceInfo}
    (hd : d ∈ s.parentState.ramDataspaces) :
    ∃ t ∈ w.prepared.1.ramSessions, t.badge = s.cap.localName ∧
      ∃ u ∈ t.storedRamdsInfos, u.badge = d.cap.localName ∧
        ∃ e, w.CopyOf d e ∧ u.memoryContent = e.copyDsCap := by
  have hcounted := h.prepared_counted hadm
  have hfresh := h.prepared_fresh
  obtain ⟨t, ht, htb, u, hu, hub, hkept⟩ := h.record_of hs hd
  obtain ⟨e, he, heb, hec⟩ := hcounted.exact.entry _
    (mem_stateRefs_ram (List.mem_flatMap.mpr ⟨t, ht, hu⟩)) (hcounted.records.ram t ht u hu)
  have hed : e.badge = d.cap.localName := heb.trans hub
  refine ⟨t, ht, htb, u, hu, hub, e, ⟨he, hed, fun a => ?_⟩, hec.symm⟩
  cases hfind : w.checkpointer.copyDataspaces.find? (isBadge d.cap.localName) with
  | none =>
      -- the copy is new
      unfold storedByte
      rw [hfind]
      rcases hfresh.copies e he with ⟨e₀, he₀, hb₀, -⟩ | ⟨-, hzero⟩
      · refine absurd (List.mem_map_of_mem (f := copyTable.key) he₀) ?_
        rw [show copyTable.key e₀ = d.cap.localName from hb₀.trans hed]
        exact find_isBadge_none hfind
      · exact hzero a
  | some e₀ =>
      obtain ⟨he₀, hb₀⟩ := find_isBadge_some hfind
      obtain ⟨t₀, ht₀, htb₀, u₀, hu₀, hub₀⟩ := h.stored s hs d hd e₀ he₀ hb₀
      obtain ⟨e₁, he₁, hb₁, hc₁⟩ := h.counted.exact.entry _
        (mem_stateRefs_ram (List.mem_flatMap.mpr ⟨t₀, ht₀, hu₀⟩))
        (h.counted.records.ram t₀ ht₀ u₀ hu₀)
      have hsame : e₁ = e₀ := List.inj_on_of_nodup_map h.counted.exact.nodup he₁ he₀
        (hb₁.trans (hub₀.trans hb₀.symm))
      have hcopy : e.copyDsCap = e₀.copyDsCap := by
        rw [← hsame]
        exact hec.trans ((hkept t₀ ht₀ htb₀ u₀ hu₀ hub₀).trans hc₁.symm)
      rw [storedByte_of_mem h.counted.exact.nodup he₀ hb₀, hcopy]
      exact congrFun (hfresh.grown.bytes _ (h.copiesBelow e₀ he₀)) a

/-! ## The memory phase -/

theorem copySetup (h : Synced plain pds w) (hadm : Admissible plain pds w) :
    CopySetup w.core.nextBadge w.prepareRam w.prepared.2.copyDataspaces where
  laid := h.prepareRam_laid.dataspaces
  badges := (h.prepared_counted hadm).exact.nodup
  copies := h.prepared_fresh.nodup
  origs e he e' he' := by
    have hown := (h.prepared_counted hadm).owned he
    rcases h.prepared_fresh.copies e' he' with ⟨e₀, he₀, -, hc⟩ | ⟨hnew, -⟩
    · rw [← hc]
      exact hown.2 e₀ he₀
    · exact (hown.1.trans_le hnew).ne
  dds dd₁ hdd₁ e he := by
    obtain ⟨dd, hdd, hev⟩ := List.exists_of_forall₂_right h.prepareRam_evolved.ddsOf hdd₁
    rw [hev.cap]
    rcases h.prepared_fresh.copies e he with ⟨e₀, he₀, -, hc⟩ | ⟨hnew, -⟩
    · rw [← hc]
      exact h.apart dd hdd e₀ he₀
    · exact ((h.laid.dataspaces.ddsBelow dd hdd).trans_le hnew).ne

theorem checkpointed_ram (h : Synced plain pds w) (hret : w.result.thrown = none) :
    RamRel SwitchedOff w.ram w.checkpointed.ram := by
  rw [(World.checkpointed_eq hret).2.1]
  refine h.prepareRam_evolved.trans (fun x y z hxy hyz => ?_) (detach_switchedOff _)
  exact ⟨⟨hyz.cap.trans hxy.cap, hyz.relAddr.trans hxy.relAddr, hyz.size.trans hxy.size,
    hyz.marks ∘ hxy.marks⟩, hyz.off⟩

/-- The child's memory is not touched. -/
theorem bytes_child (h : Synced plain pds w) (hadm : Admissible plain pds w)
    (hret : w.result.thrown = none) {dd : DesignatedDataspaceInfo} (hdd : dd ∈ ddsOf w.ram)
    (i : Nat) :
    w.checkpointed.core.bytes dd.cap.localName i = w.core.bytes dd.cap.localName i := by
  obtain ⟨dd₁, hdd₁, hev⟩ := List.exists_of_forall₂_left h.prepareRam_evolved.ddsOf hdd
  rw [(World.checkpointed_eq hret).2.2.2]
  refine ((h.copySetup hadm).after_of_ne (fun e he => ?_) _ i).trans ?_
  · rw [← hev.cap]
    exact (h.copySetup hadm).dds dd₁ hdd₁ e he
  · exact congrFun (h.prepared_fresh.grown.bytes _ (h.laid.dataspaces.ddsBelow dd hdd)) i

/-- A designated dataspace when the memory is copied. -/
theorem prepareRam_dd (h : Synced plain pds w) {d : RamDataspaceInfo}
    (hd : d ∈ dataspacesOf w.ram) {dd : DesignatedDataspaceInfo} (hdd : dd ∈ d.dds) :
    ∃ d₁ ∈ dataspacesOf w.prepareRam, d₁.cap = d.cap ∧ ∃ dd₁ ∈ d₁.dds, Evolved dd dd₁ ∧
      (d₁.dds.head? = some dd₁ ↔ d.dds.head? = some dd) := by
  obtain ⟨d₁, hd₁, hrel⟩ := List.exists_of_forall₂_left h.prepareRam_evolved.dataspacesOf hd
  exact ⟨d₁, hd₁, hrel.cap, List.exists_of_forall₂_head hrel.dds (h.laid.dataspaces.dds_nodup hd)
    (h.prepareRam_laid.dataspaces.dds_nodup hd₁) hdd⟩

theorem bytes_copied (h : Synced plain pds w) (hadm : Admissible plain pds w)
    (hret : w.result.thrown = none) {d : RamDataspaceInfo} (hd : d ∈ dataspacesOf w.ram)
    {e : OrigCopyCountInfo} (he : w.CopyOf d e) {dd : DesignatedDataspaceInfo} (hdd : dd ∈ d.dds)
    {i : Nat} (hi : i < dd.size)
    (hright : (d.dds.head? = some dd ∧ dd.attached = true) ∨
      w.core.bytes dd.cap.localName i =
        storedByte w.checkpointer d.cap.localName (dd.relAddr + i)) :
    w.checkpointed.core.bytes e.copyDsCap.localName (dd.relAddr + i) =
      w.checkpointed.core.bytes dd.cap.localName i := by
  have hmem : dd ∈ ddsOf w.ram := mem_ddsOf.mpr ⟨d, hd, hdd⟩
  have hbytes : w.prepared.2.core.bytes dd.cap.localName i = w.core.bytes dd.cap.localName i :=
    congrFun (h.prepared_fresh.grown.bytes _ (h.laid.dataspaces.ddsBelow dd hmem)) i
  obtain ⟨d₁, hd₁, hcap, dd₁, hdd₁, hev, hhead⟩ := h.prepareRam_dd hd hdd
  have hcopied := (h.copySetup hadm).copied (m := w.prepared.2.core.bytes) hd₁
    (RamDataspaceInfo.managed_of_mem hdd₁) he.mem (he.badge.trans (by rw [hcap])) hdd₁
    (hev.size ▸ hi) ?_
  · rw [h.bytes_child hadm hret hmem, (World.checkpointed_eq hret).2.2.2, ← hbytes]
    rw [hev.relAddr, hev.cap] at hcopied
    exact hcopied
  · rw [hhead, hev.cap, hev.relAddr, he.stored, hbytes]
    exact hright.imp (fun hr => ⟨hr.1, hev.stays hr.2⟩) Eq.symm

theorem bytes_kept (h : Synced plain pds w) (hadm : Admissible plain pds w)
    (hret : w.result.thrown = none) {d : RamDataspaceInfo} (hd : d ∈ dataspacesOf w.ram)
    {e : OrigCopyCountInfo} (he : w.CopyOf d e) {dd : DesignatedDataspaceInfo} (hdd : dd ∈ d.dds)
    {i : Nat} (hi : i < dd.size) (hrest : d.dds.head? ≠ some dd) :
    w.checkpointed.core.bytes e.copyDsCap.localName (dd.relAddr + i) =
      storedByte w.checkpointer d.cap.localName (dd.relAddr + i) := by
  obtain ⟨d₁, hd₁, hcap, dd₁, hdd₁, hev, hhead⟩ := h.prepareRam_dd hd hdd
  have hkept := (h.copySetup hadm).kept hd₁ (RamDataspaceInfo.managed_of_mem hdd₁) he.mem
    (he.badge.trans (by rw [hcap])) hdd₁ (fun hh => hrest (hhead.mp hh)) w.prepared.2.core.bytes
    (hev.size ▸ hi)
  rw [(World.checkpointed_eq hret).2.2.2, ← he.stored, ← hev.relAddr]
  exact hkept

/-- Where the rest has not changed, all of a dataspace is in its copy. -/
theorem bytes_all (h : Synced plain pds w) (hadm : Admissible plain pds w)
    (hret : w.result.thrown = none) (hrest : RestUnchanged w) {d : RamDataspaceInfo}
    (hd : d ∈ dataspacesOf w.ram) {e : OrigCopyCountInfo} (he : w.CopyOf d e)
    {dd : DesignatedDataspaceInfo} (hdd : dd ∈ d.dds) {i : Nat} (hi : i < dd.size)
    (hsize : dd.relAddr + i < d.size) :
    w.checkpointed.core.bytes e.copyDsCap.localName (dd.relAddr + i) =
      w.checkpointed.core.bytes dd.cap.localName i := by
  refine h.bytes_copied hadm hret hd he hdd hi ?_
  by_cases hatt : dd.attached = true
  · rcases hdds : d.dds with _ | ⟨first, rest⟩
    · rw [hdds] at hdd
      cases hdd
    · rw [hdds] at hdd
      rcases List.mem_cons.mp hdd with rfl | hdd
      · exact .inl ⟨rfl, hatt⟩
      · exact .inr (hrest d hd dd (by rw [hdds]; exact hdd) hatt i hi hsize)
  · exact .inr (h.clean d hd dd hdd (by simpa using hatt) i hi hsize)

end Synced

end Rtcr
