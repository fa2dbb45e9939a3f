import Rtcr.Incremental.World

/-!
# Incremental.Sync — the copies between two checkpoints

`Synced` is the invariant of a run: the layout of the child's
dataspaces, exact copy dataspaces, and what a checkpoint relies on, that
a detached designated dataspace holds what its range of the copy holds.
This module has the steps of the child.
-/

namespace Rtcr

open ByteStore Reconcile Checkpointer
open List (Forall₂)

variable {plain : Nat → Prop} {pds : PdSessionComponent → Prop}

/-- The originals of the copies are dataspaces the child owns. -/
theorem Checkpointer.CountedState.owned {own : Nat → Prop} {ck : Checkpointer} {st : TargetState}
    (h : CountedState plain own pds ck st) {e : OrigCopyCountInfo} (he : e ∈ ck.copyDataspaces) :
    own e.badge := by
  obtain ⟨-, hcount, hone⟩ := h.exact.each e he
  have huses : RefCount.uses (stateRefs st) e.badge ≠ 0 := fun h0 => by
    rw [hcount] at hone
    exact absurd hone (by rw [show copyTable.key e = e.badge from rfl, h0]; omega)
  rw [Ne, RefCount.uses_eq_zero] at huses
  push Not at huses
  obtain ⟨r, hr, hre⟩ := huses
  exact hre ▸ h.own r hr

variable (plain pds) in
structure Synced (w : World) : Prop where
  laid : Laid w.core.nextBadge w.ram
  counted : CountedState plain w.checkpointer.Owned pds w.checkpointer w.state
  copiesBelow : ∀ e ∈ w.checkpointer.copyDataspaces, e.copyDsCap.localName < w.core.nextBadge
  copies : (w.checkpointer.copyDataspaces.map (·.copyDsCap.localName)).Nodup
  apart : ∀ dd ∈ ddsOf w.ram, ∀ e ∈ w.checkpointer.copyDataspaces,
    dd.cap.localName ≠ e.copyDsCap.localName
  records : (w.state.ramSessions.map (·.badge)).Nodup
  ramRecords : ∀ t ∈ w.state.ramSessions, (t.storedRamdsInfos.map (·.badge)).Nodup
  /-- what has a copy has a record, in its own session -/
  stored : ∀ s ∈ w.ram, ∀ d ∈ s.parentState.ramDataspaces, ∀ e ∈ w.checkpointer.copyDataspaces,
    e.badge = d.cap.localName → ∃ t ∈ w.state.ramSessions, t.badge = s.cap.localName ∧
      ∃ u ∈ t.storedRamdsInfos, u.badge = d.cap.localName
  clean : ∀ d ∈ dataspacesOf w.ram, ∀ dd ∈ d.dds, dd.attached = false → SameAsCopy w d dd

theorem World.Initial.synced {w : World} (h : w.Initial) : Synced plain pds w := by
  have hempty : dataspacesOf w.ram = [] := List.flatMap_eq_nil_iff.mpr h.empty
  obtain ⟨core, hck⟩ := h.checkpointer
  have hnone : w.checkpointer.copyDataspaces = [] := by rw [hck]; rfl
  refine
    { laid := ⟨h.sessions, ?_⟩, counted := ?_, copiesBelow := ?_, copies := ?_, apart := ?_,
      records := ?_, ramRecords := ?_, stored := ?_, clean := ?_ }
  · rw [hempty]
    exact ⟨by simp, by simp, by simp, by simp, by simp, by simp, by simp⟩
  · rw [h.state, hck]
    exact countedState_empty core
  · simp [hnone]
  · simp [hnone]
  · simp [ddsOf, hempty]
  · simp [h.state, TargetState.empty]
  · simp [h.state, TargetState.empty]
  · simp [hnone]
  · simp [hempty]

/-! ## The memory of dataspaces -/

theorem mem_dataspacesOf {r : List RamSessionComponent} {d : RamDataspaceInfo} :
    d ∈ dataspacesOf r ↔ ∃ s ∈ r, d ∈ s.parentState.ramDataspaces := List.mem_flatMap

theorem mem_ddsOf {r : List RamSessionComponent} {dd : DesignatedDataspaceInfo} :
    dd ∈ ddsOf r ↔ ∃ d ∈ dataspacesOf r, dd ∈ d.dds := List.mem_flatMap

theorem storedByte_congr {ck ck' : Checkpointer} (hcopies : ck'.copyDataspaces = ck.copyDataspaces)
    (hbytes : ∀ e ∈ ck.copyDataspaces,
      ck'.core.bytes e.copyDsCap.localName = ck.core.bytes e.copyDsCap.localName)
    (badge a : Nat) : storedByte ck' badge a = storedByte ck badge a := by
  unfold storedByte
  rw [hcopies]
  cases hfind : ck.copyDataspaces.find? (isBadge badge) with
  | none => rfl
  | some e => exact congrFun (hbytes e (List.mem_of_find?_eq_some hfind)) a

/-- The byte that is stored, by the entry of the dataspace. -/
theorem storedByte_of_mem {ck : Checkpointer} (h : (ck.copyDataspaces.map (·.badge)).Nodup)
    {e : OrigCopyCountInfo} (he : e ∈ ck.copyDataspaces) {badge : Nat} (hb : e.badge = badge)
    (a : Nat) : storedByte ck badge a = ck.core.bytes e.copyDsCap.localName a := by
  unfold storedByte
  rw [show isBadge badge = fun u => u.badge == e.badge by rw [hb]; rfl, find?_key_of_mem h he]

/-! ## Steps of the child -/

namespace Synced

variable {w w' : World}

theorem owned_grown (hck : w'.checkpointer.copyDataspaces = w.checkpointer.copyDataspaces)
    (hle : w.core.nextBadge ≤ w'.core.nextBadge) (b : Nat) (h : w.checkpointer.Owned b) :
    w'.checkpointer.Owned b :=
  ⟨h.1.trans_le hle, fun e he => h.2 e (hck ▸ he)⟩

/-- A step that keeps records and copies. Every session holds what it
held before, or new dataspaces; what is detached keeps its bytes. -/
theorem extended (h : Synced plain pds w)
    (hck : w'.checkpointer.copyDataspaces = w.checkpointer.copyDataspaces)
    (hst : w'.state = w.state) (hle : w.core.nextBadge ≤ w'.core.nextBadge)
    (hlaid : Laid w'.core.nextBadge w'.ram)
    (heach : ∀ s' ∈ w'.ram, ∃ s ∈ w.ram, s'.cap = s.cap ∧ ∀ d ∈ s'.parentState.ramDataspaces,
      d ∈ s.parentState.ramDataspaces ∨ NewDataspace w.core.nextBadge w'.core.nextBadge d)
    (hdds : ∀ dd ∈ ddsOf w.ram, dd.attached = false →
      w'.core.bytes dd.cap.localName = w.core.bytes dd.cap.localName)
    (hcopies : ∀ e ∈ w.checkpointer.copyDataspaces,
      w'.core.bytes e.copyDsCap.localName = w.core.bytes e.copyDsCap.localName) :
    Synced plain pds w' := by
  have hown := owned_grown hck hle
  have hold : ∀ d ∈ dataspacesOf w'.ram,
      d ∈ dataspacesOf w.ram ∨ NewDataspace w.core.nextBadge w'.core.nextBadge d := by
    intro d hd
    obtain ⟨s', hs', hd⟩ := mem_dataspacesOf.mp hd
    obtain ⟨s, hs, -, hds⟩ := heach s' hs'
    exact (hds d hd).imp_left fun hd => mem_dataspacesOf.mpr ⟨s, hs, hd⟩
  refine
    { laid := hlaid, counted := ?_, copiesBelow := ?_, copies := ?_, apart := ?_, records := ?_,
      ramRecords := ?_, stored := ?_, clean := ?_ }
  · rw [hst]
    exact ⟨by rw [hck]; exact h.counted.exact, fun r hr => hown _ (h.counted.own r hr),
      h.counted.records⟩
  · rw [hck]
    exact fun e he => (h.copiesBelow e he).trans_le hle
  · rw [hck]
    exact h.copies
  · rw [hck]
    intro dd hdd e he
    obtain ⟨d, hd, hdd⟩ := mem_ddsOf.mp hdd
    rcases hold d hd with hd | hnew
    · exact h.apart dd (mem_ddsOf.mpr ⟨d, hd, hdd⟩) e he
    · have := (hnew.caps dd hdd).1
      have := h.copiesBelow e he
      omega
  · rw [hst]
    exact h.records
  · rw [hst]
    exact h.ramRecords
  · rw [hck, hst]
    intro s' hs' d hd e he hed
    obtain ⟨s, hs, hcap, hds⟩ := heach s' hs'
    rw [hcap]
    rcases hds d hd with hd | hnew
    · exact h.stored s hs d hd e he hed
    · -- a copy is of something older
      have hlt := (h.counted.owned he).1
      have hbadge := hnew.badge.1
      rw [hed] at hlt
      change w.core.nextBadge ≤ d.cap.localName at hbadge
      exact absurd hlt (not_lt.mpr hbadge)
  · intro d hd dd hdd hoff i hi hsize
    rcases hold d hd with hd | hnew
    · rw [hdds dd (mem_ddsOf.mpr ⟨d, hd, hdd⟩) hoff, storedByte_congr hck hcopies]
      exact h.clean d hd dd hdd hoff i hi hsize
    · rw [(hnew.attached dd hdd).1] at hoff
      cases hoff

/-- A step that only attaches. -/
theorem evolved (h : Synced plain pds w) (hck : w'.checkpointer = w.checkpointer)
    (hst : w'.state = w.state) (hram : RamRel Evolved w.ram w'.ram) : Synced plain pds w' := by
  have hcore : w'.core = w.core := congrArg (·.core) hck
  refine
    { laid := ?_, counted := ?_, copiesBelow := ?_, copies := ?_, apart := ?_, records := ?_,
      ramRecords := ?_, stored := ?_, clean := ?_ }
  · rw [hcore]
    exact h.laid.related (fun _ _ he => he.toSamePlace) hram
  · rw [hck, hst]
    exact h.counted
  · rw [hck, hcore]
    exact h.copiesBelow
  · rw [hck]
    exact h.copies
  · rw [hck]
    intro dd' hdd' e he
    obtain ⟨dd, hdd, hev⟩ := List.exists_of_forall₂_right hram.ddsOf hdd'
    rw [hev.cap]
    exact h.apart dd hdd e he
  · rw [hst]
    exact h.records
  · rw [hst]
    exact h.ramRecords
  · rw [hck, hst]
    intro s' hs' d' hd' e he hed
    obtain ⟨s, hs, hss⟩ := List.exists_of_forall₂_right hram hs'
    obtain ⟨d, hd, hdd⟩ := List.exists_of_forall₂_right hss.dataspaces hd'
    rw [hss.cap, hdd.cap]
    exact h.stored s hs d hd e he (hed.trans (by rw [hdd.cap]))
  · intro d' hd' dd' hdd' hoff i hi hsize
    obtain ⟨d, hd, hrel⟩ := List.exists_of_forall₂_right hram.dataspacesOf hd'
    obtain ⟨dd, hdd, hev⟩ := List.exists_of_forall₂_right hrel.dds hdd'
    have hoff' : dd.attached = false := by
      by_contra hon
      rw [hev.stays (by simpa using hon)] at hoff
      cases hoff
    rw [hev.size] at hi
    rw [hev.relAddr, hrel.size] at hsize
    rw [hcore, hck, hev.cap, hev.relAddr, hrel.cap]
    exact h.clean d hd dd hdd hoff' i hi hsize

/-- One session has changed its dataspaces. -/
theorem mem_setSession {s s' x : RamSessionComponent} (hcap : s'.cap = s.cap)
    (hx : x ∈ (w.setSession s.cap s').ram) (hs : s ∈ w.ram) :
    ∃ y ∈ w.ram, x.cap = y.cap ∧ (x = y ∨ y = s ∧ x = s') := by
  obtain ⟨y, hy, rfl⟩ := List.mem_map.mp hx
  by_cases hyc : y.cap = s.cap
  · rw [if_pos hyc]
    exact ⟨s, hs, hcap, .inr ⟨rfl, rfl⟩⟩
  · rw [if_neg hyc]
    exact ⟨y, hy, rfl, .inl rfl⟩

theorem setSession_sessions {s s' : RamSessionComponent} (hcap : s'.cap = s.cap) :
    (w.setSession s.cap s').ram.map (·.cap.localName) = w.ram.map (·.cap.localName) := by
  simp only [World.ram, World.setSession, TargetChild.mapRamSessions, modifyCap, List.map_map]
  refine List.map_congr_left fun y _ => ?_
  simp only [Function.comp_apply]
  split
  · rename_i hy
    rw [hcap, hy]
  · rfl

/-- The dataspaces after `s` has become `s'`. -/
theorem setSession_dataspaces (h : Synced plain pds w) {s : RamSessionComponent}
    (s' : RamSessionComponent) (hs : s ∈ w.ram) : ∃ before after,
      dataspacesOf w.ram = before ++ s.parentState.ramDataspaces ++ after ∧
      dataspacesOf (w.setSession s.cap s').ram =
        before ++ s'.parentState.ramDataspaces ++ after := by
  obtain ⟨l₁, l₂, hsplit, hmod⟩ := modifyCap_split h.laid.sessions hs fun _ => s'
  refine ⟨dataspacesOf l₁, dataspacesOf l₂, ?_, ?_⟩
  · rw [hsplit]
    simp [dataspacesOf]
  · rw [show (w.setSession s.cap s').ram = _ from hmod]
    simp [dataspacesOf]

theorem alloc (h : Synced plain pds w) {s s' : RamSessionComponent} {core' : Core} {cap : Cap}
    {size : Nat} {cacheAttr : CacheAttribute} (hs : s ∈ w.ram)
    (halloc : s.alloc size cacheAttr w.child.inBootstrap w.core = some (cap, s', core')) :
    Synced plain pds ((w.setSession s.cap s').setCore core') := by
  obtain ⟨hcap, hgrown, hds⟩ := alloc_spec halloc
  obtain ⟨before, after, hold, hnew⟩ := h.setSession_dataspaces s' hs
  refine h.extended rfl rfl hgrown.le ⟨?_, ?_⟩ (fun x hx => ?_) (fun dd hdd _ => ?_)
    (fun e he => hgrown.bytes _ (h.copiesBelow e he))
  · change ((w.setSession s.cap s').ram.map (·.cap.localName)).Nodup
    rw [setSession_sessions hcap]
    exact h.laid.sessions
  · change LaidOut core'.nextBadge (dataspacesOf (w.setSession s.cap s').ram)
    rw [hnew]
    have hlaid := h.laid.dataspaces
    rw [hold] at hlaid
    rcases hds with hsame | ⟨d, hcons, hd⟩
    · rw [hsame]
      exact hlaid.mono hgrown.le
    · rw [hcons]
      refine (hlaid.cons hd hgrown.le).perm ?_
      rw [List.append_assoc, List.append_assoc, List.cons_append]
      exact List.perm_middle.symm
  · obtain ⟨y, hy, hxy, hcases⟩ := mem_setSession hcap hx hs
    refine ⟨y, hy, hxy, fun d hd => ?_⟩
    rcases hcases with rfl | ⟨rfl, rfl⟩
    · exact .inl hd
    · rcases hds with hsame | ⟨d', hcons, hd'⟩
      · exact .inl (hsame ▸ hd)
      · rw [hcons] at hd
        rcases List.mem_cons.mp hd with rfl | hd
        · exact .inr hd'
        · exact .inl hd
  · exact hgrown.bytes _ (h.laid.dataspaces.ddsBelow dd hdd)

theorem free (h : Synced plain pds w) {s : RamSessionComponent} (ds : Cap) (hs : s ∈ w.ram) :
    Synced plain pds (w.setSession s.cap (s.free ds)) := by
  obtain ⟨hcap, hsub⟩ := free_spec ds s
  obtain ⟨before, after, hold, hnew⟩ := h.setSession_dataspaces (s.free ds) hs
  refine h.extended rfl rfl le_rfl ⟨?_, ?_⟩ (fun x hx => ?_) (fun _ _ _ => rfl) (fun _ _ => rfl)
  · rw [setSession_sessions hcap]
    exact h.laid.sessions
  · rw [hnew]
    have hlaid := h.laid.dataspaces
    rw [hold] at hlaid
    exact hlaid.sublist ((hsub.append_left before).append_right after)
  · obtain ⟨y, hy, hxy, hcases⟩ := mem_setSession hcap hx hs
    refine ⟨y, hy, hxy, fun d hd => .inl ?_⟩
    rcases hcases with rfl | ⟨rfl, rfl⟩
    · exact hd
    · exact hsub.subset hd

theorem fault (h : Synced plain pds w) (cap : Cap) (badge addr : Nat) :
    Synced plain pds (w.modifyManaged cap badge fun mrm =>
      if mrm.present addr then mrm else { mrm with faults := addr :: mrm.faults }) := by
  refine h.evolved rfl rfl (.modifyManaged Evolved.refl cap badge _ fun d _ mrm _ => ?_)
  have hsame : (if mrm.present addr then mrm
      else { mrm with faults := addr :: mrm.faults }).ddInfos = mrm.ddInfos := by
    split <;> rfl
  rw [hsame]
  exact List.forall₂_same.mpr fun dd _ => .refl dd

theorem handleFault (h : Synced plain pds w) {s : RamSessionComponent}
    {infos : List RamDataspaceInfo} (hs : s ∈ w.ram)
    (hrun : Rtcr.handleFault s.parentState.ramDataspaces = .ok infos) :
    Synced plain pds (w.setSession s.cap (s.setRamDataspaces infos)) := by
  refine h.evolved rfl rfl ?_
  obtain ⟨l₁, l₂, hsplit, hmod⟩ := modifyCap_split h.laid.sessions hs
    fun _ => s.setRamDataspaces infos
  have hrefl := fun l : List RamSessionComponent => RamRel.refl Evolved.refl l
  rw [show (w.setSession s.cap (s.setRamDataspaces infos)).ram = _ from hmod, hsplit]
  exact List.rel_append (hrefl l₁) (.cons ⟨rfl, handleFault_evolved hrun⟩ (hrefl l₂))

theorem write (h : Synced plain pds w) {d : RamDataspaceInfo} {dd : DesignatedDataspaceInfo}
    (addr : Nat) (byte : UInt8) (hd : d ∈ dataspacesOf w.ram) (hdd : dd ∈ d.dds)
    (hmapped : dd.mapped = true) :
    Synced plain pds (w.setCore { w.core with
      bytes := poke dd.cap.localName (addr - dd.relAddr) byte w.core.bytes }) := by
  have hmem : dd ∈ ddsOf w.ram := mem_ddsOf.mpr ⟨d, hd, hdd⟩
  refine h.extended rfl rfl le_rfl h.laid (fun s hs => ⟨s, hs, rfl, fun _ => .inl⟩)
    (fun dd' hdd' hoff => ?_) (fun e he => ?_)
  · -- what is written to is attached
    refine funext fun i => poke_ne (fun he => ?_) _ _ _ i
    have hsame : dd' = dd := List.inj_on_of_nodup_map h.laid.dataspaces.dds hdd' hmem he
    rw [hsame, ← h.laid.dataspaces.marks dd hmem, hmapped] at hoff
    cases hoff
  · exact funext fun i => poke_ne (h.apart dd hmem e he).symm _ _ _ i

end Synced

end Rtcr
