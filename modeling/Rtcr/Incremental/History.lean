import Rtcr.Incremental.FullCopy
import Rtcr.Lib.Run

/-!
# Incremental.History — incremental checkpoints in a run

`fullCopy_iff_of_run`: after a run whose checkpoints all found the rest
unchanged, the next checkpoint leaves full copies exactly if it does so
too. `second_page_lost` is a run whose only checkpoint does not.
-/

namespace Rtcr

open ByteStore Reconcile Checkpointer
open List (Forall₂)

variable {plain : Nat → Prop} {pds : PdSessionComponent → Prop}

/-! ## One checkpoint -/

namespace Synced

variable {w : World}

/-- The stored copy of a dataspace is the one its record names. -/
theorem memoryContent_eq (h : Synced plain pds w) (hadm : Admissible plain pds w)
    {t : StoredRamSessionInfo} (ht : t ∈ w.prepared.1.ramSessions) {u : StoredRamDataspaceInfo}
    (hu : u ∈ t.storedRamdsInfos) {d : RamDataspaceInfo} (hub : u.badge = d.cap.localName)
    {e : OrigCopyCountInfo} (he : w.CopyOf d e) : u.memoryContent = e.copyDsCap := by
  have hcounted := h.prepared_counted hadm
  obtain ⟨e', he', hb, hc⟩ := hcounted.exact.entry _
    (mem_stateRefs_ram (List.mem_flatMap.mpr ⟨t, ht, hu⟩)) (hcounted.records.ram t ht u hu)
  have hsame : e' = e := List.inj_on_of_nodup_map hcounted.exact.nodup he' he.mem
    (hb.trans (hub.trans he.badge.symm))
  rw [← hsame]
  exact hc.symm

theorem fullCopy_of_rest (h : Synced plain pds w) (hadm : Admissible plain pds w)
    (hret : w.result.thrown = none) (hrest : RestUnchanged w) : FullCopy w.checkpointed := by
  intro s' hs' d' hd' hman
  have hram := h.checkpointed_ram hret
  obtain ⟨s, hs, hss⟩ := List.exists_of_forall₂_right hram hs'
  obtain ⟨d, hd, hdd⟩ := List.exists_of_forall₂_right hss.dataspaces hd'
  have hmem : d ∈ dataspacesOf w.ram := mem_dataspacesOf.mpr ⟨s, hs, hd⟩
  obtain ⟨t, ht, htb, u, hu, hub, e, he, hue⟩ := h.entry_of hadm hs hd
  refine ⟨t, (World.checkpointed_eq hret).1 ▸ ht, by rw [htb, hss.cap], u, hu,
    by rw [hub, hdd.cap], fun a ha => ?_⟩
  rw [hdd.size] at ha
  rw [hdd.managed] at hman
  obtain ⟨p, hp, hlo, hhi⟩ := (h.laid.dataspaces.tiles d hmem hman).cover a ha
  obtain ⟨dd, hin, rfl⟩ := List.mem_map.mp hp
  obtain ⟨dd', hin', hoff⟩ := List.exists_of_forall₂_left hdd.dds hin
  change dd.relAddr ≤ a at hlo
  change a < dd.relAddr + dd.size at hhi
  obtain ⟨i, rfl⟩ := Nat.exists_eq_add_of_le hlo
  refine ⟨dd', hin', ?_, ?_⟩
  · unfold DesignatedDataspaceInfo.range
    rw [hoff.relAddr, hoff.size]
    exact ⟨hlo, hhi⟩
  · rw [hue, hoff.cap, hoff.relAddr, Nat.add_sub_cancel_left]
    exact h.bytes_all hadm hret hrest hmem he hin (by omega) ha

theorem rest_of_fullCopy (h : Synced plain pds w) (hadm : Admissible plain pds w)
    (hret : w.result.thrown = none) (hfull : FullCopy w.checkpointed) : RestUnchanged w := by
  intro d hmem dd htail _ i hi hsize
  have hin : dd ∈ d.dds := List.mem_of_mem_tail htail
  have hman := RamDataspaceInfo.managed_of_mem hin
  have hnodup := h.laid.dataspaces.dds_nodup hmem
  have hfirst : d.dds.head? ≠ some dd := by
    intro hhead
    obtain ⟨rest, hdds⟩ := List.head?_eq_some_iff.mp hhead
    rw [hdds] at htail hnodup
    exact (List.nodup_cons.mp hnodup).1 htail
  obtain ⟨s, hs, hd⟩ := mem_dataspacesOf.mp hmem
  obtain ⟨s', hs', hss⟩ := List.exists_of_forall₂_left (h.checkpointed_ram hret) hs
  obtain ⟨d', hd', hdd⟩ := List.exists_of_forall₂_left hss.dataspaces hd
  obtain ⟨t, ht, -, u, hu, hub, hbytes⟩ := hfull s' hs' d' hd' (hdd.managed.trans hman)
  obtain ⟨dd', hin', hrange, heq⟩ := hbytes (dd.relAddr + i) (by rwa [hdd.size])
  -- the range it is in is that of `dd`
  obtain ⟨dd₂, hin₂, hoff⟩ := List.exists_of_forall₂_right hdd.dds hin'
  have hsame : dd₂ = dd := by
    refine (h.laid.dataspaces.tiles d hmem hman).inRange_unique hin₂ hin
      (a := dd.relAddr + i) ?_ ⟨Nat.le_add_right .., Nat.add_lt_add_left hi _⟩
    unfold DesignatedDataspaceInfo.range at hrange ⊢
    rwa [hoff.relAddr, hoff.size] at hrange
  subst hsame
  obtain ⟨-, -, -, -, -, -, e, he, -⟩ := h.entry_of hadm hs hd
  rw [(World.checkpointed_eq hret).1] at ht
  rw [h.memoryContent_eq hadm ht hu (hub.trans (by rw [hdd.cap])) he, hoff.cap, hoff.relAddr,
    Nat.add_sub_cancel_left, h.bytes_kept hadm hret hmem he hin hi hfirst,
    h.bytes_child hadm hret (mem_ddsOf.mpr ⟨d, hmem, hin⟩)] at heq
  exact heq.symm

/-- **One incremental checkpoint** is a full copy exactly if the rest
has not changed. -/
theorem checkpoint_fullCopy_iff (h : Synced plain pds w) (hadm : Admissible plain pds w)
    (hret : w.result.thrown = none) : FullCopy w.checkpointed ↔ RestUnchanged w :=
  ⟨h.rest_of_fullCopy hadm hret, h.fullCopy_of_rest hadm hret⟩

theorem checkpoint (h : Synced plain pds w) (hadm : Admissible plain pds w)
    (hret : w.result.thrown = none) (hrest : RestUnchanged w) : Synced plain pds w.checkpointed := by
  obtain ⟨hstate, -, hcopies, hcore⟩ := World.checkpointed_eq hret
  have hram := h.checkpointed_ram hret
  have hfresh := h.prepared_fresh
  have hcounted := h.prepared_counted hadm
  have hmirror := h.prepared_mirror
  have hnext : w.checkpointed.core.nextBadge = w.prepared.2.core.nextBadge := by rw [hcore]
  have hlaid := h.laid.related (fun _ _ (ho : SwitchedOff _ _) => ho.toSamePlace) hram
  have hle : w.core.nextBadge ≤ w.checkpointed.core.nextBadge := by
    rw [hnext]
    exact hfresh.grown.le
  refine
    { laid := ⟨hlaid.sessions, hlaid.dataspaces.mono hle⟩, counted := ?_, copiesBelow := ?_,
      copies := ?_, apart := ?_, records := ?_, ramRecords := ?_, stored := ?_, clean := ?_ }
  · -- new copies are newer than what the child owned before
    have hown : ∀ b, w.checkpointer.Owned b → w.checkpointed.checkpointer.Owned b := by
      intro b hb
      refine ⟨hb.1.trans_le hle, fun e he => ?_⟩
      rw [hcopies] at he
      rcases hfresh.copies e he with ⟨e₀, he₀, -, hc⟩ | ⟨hnew, -⟩
      · rw [← hc]
        exact hb.2 e₀ he₀
      · exact (hb.1.trans_le hnew).ne
    rw [hstate]
    exact ⟨by rw [hcopies]; exact hcounted.exact, fun r hr => hown _ (hcounted.own r hr),
      hcounted.records⟩
  · rw [hcopies, hnext]
    exact hfresh.below
  · rw [hcopies]
    exact hfresh.nodup
  · rw [hcopies]
    intro dd' hdd' e he
    obtain ⟨dd, hdd, hoff⟩ := List.exists_of_forall₂_right hram.ddsOf hdd'
    obtain ⟨dd₁, hdd₁, hev⟩ := List.exists_of_forall₂_left h.prepareRam_evolved.ddsOf hdd
    rw [hoff.cap, ← hev.cap]
    exact (h.copySetup hadm).dds dd₁ hdd₁ e he
  · rw [hstate]
    exact hmirror.nodup
  · rw [hstate]
    intro t ht
    obtain ⟨_, _, _, hexact⟩ := hmirror.each t ht
    exact hexact.dataspaces.nodup
  · rw [hstate]
    intro s' hs' d' hd' _ _ _
    obtain ⟨s, hs, hss⟩ := List.exists_of_forall₂_right hram hs'
    obtain ⟨d, hd, hdd⟩ := List.exists_of_forall₂_right hss.dataspaces hd'
    obtain ⟨t, ht, htb, u, hu, hub, -⟩ := h.record_of hs hd
    exact ⟨t, ht, by rw [htb, hss.cap], u, hu, by rw [hub, hdd.cap]⟩
  · intro d' hd' dd' hin' _ i hi hsize
    obtain ⟨d, hd, hdd⟩ := List.exists_of_forall₂_right hram.dataspacesOf hd'
    obtain ⟨dd, hin, hoff⟩ := List.exists_of_forall₂_right hdd.dds hin'
    obtain ⟨s, hs, hds⟩ := mem_dataspacesOf.mp hd
    obtain ⟨-, -, -, -, -, -, e, he, -⟩ := h.entry_of hadm hs hds
    have hentries : (w.checkpointed.checkpointer.copyDataspaces.map (·.badge)).Nodup := by
      rw [hcopies]
      exact hcounted.exact.nodup
    rw [hoff.size] at hi
    rw [hoff.relAddr, hdd.size] at hsize
    rw [hdd.cap, hoff.cap, hoff.relAddr, storedByte_of_mem hentries (hcopies ▸ he.mem) he.badge]
    exact (h.bytes_all hadm hret hrest hd he hin hi hsize).symm

/-- **Every step** keeps the copies in sync, if checkpoints find the rest
unchanged. -/
theorem step {w' : World} {ev : Event} (h : Synced plain pds w)
    (hok : ev = .checkpoint → RestUnchanged w) (hstep : WorldStep plain pds w ev w') :
    Synced plain pds w' := by
  cases hstep with
  | alloc hs halloc => exact h.alloc hs halloc
  | free ds hs => exact h.free ds hs
  | fault addr _ _ => exact h.fault _ _ addr
  | handleFault hs hrun => exact h.handleFault hs hrun
  | write byte hd hdd hmapped _ => exact h.write _ byte hd hdd hmapped
  | checkpoint hadm hret => exact h.checkpoint hadm hret (hok rfl)
  | @other child core' hram hle hdds hcopies =>
      have hsame : World.ram ({ w with child := child }.setCore core') = w.ram := hram
      refine h.extended rfl rfl hle ⟨?_, ?_⟩ (fun s hs => ?_) (fun dd hdd _ => hdds dd hdd) hcopies
      · rw [hsame]
        exact h.laid.sessions
      · rw [hsame]
        exact h.laid.dataspaces.mono hle
      · exact ⟨s, hsame ▸ hs, rfl, fun _ => .inl⟩

end Synced

/-! ## Runs -/

/-- **Full copies in a run**: if every checkpoint so far found the rest
unchanged, the next one leaves full copies exactly if it finds the rest
unchanged too. -/
theorem fullCopy_iff_of_run {w₀ w w' : World} (h₀ : w₀.Initial)
    (hrun : Run (WorldStep plain pds) (fun w ev => ev = .checkpoint → RestUnchanged w) w₀ w)
    (hstep : WorldStep plain pds w .checkpoint w') : FullCopy w' ↔ RestUnchanged w := by
  have hsync : Synced plain pds w :=
    hrun.invariant (fun _ _ _ h hok hs => h.step hok hs) h₀.synced
  cases hstep with
  | checkpoint hadm hret => exact hsync.checkpoint_fullCopy_iff hadm hret

/-! ## Two pages

A child with one page to a designated dataspace allocates two. The
second page is the first of the list. -/

namespace TwoPages

def session : RamSessionComponent := .bare 30 true 1 []

def start : World where
  child :=
    { TargetChild.small with
      services := { TargetChild.small.services with ramRoot := [session] }
      granularity := 1 }
  checkpointer := .new .small
  state := .empty

def allocation : Cap × RamSessionComponent × Core :=
  session.allocManaged 0x2000 .cached false .small

def allocated : World := (start.setSession session.cap allocation.2.1).setCore allocation.2.2

def dataspace : RamDataspaceInfo where
  cap := ⟨101⟩
  size := 0x2000
  cached := .cached
  bootstrapped := false
  timestamp := 1
  mrmInfo := some ⟨⟨100⟩, [.new ⟨103⟩ 0x1000 0x1000, .new ⟨102⟩ 0 0x1000], []⟩

/-- The child has written to the first byte of page `dd`. -/
def written (dd : DesignatedDataspaceInfo) : World :=
  allocated.setCore { allocated.core with
    bytes := poke dd.cap.localName (dd.relAddr - dd.relAddr) 7 allocated.core.bytes }

def Plain (b : Nat) : Prop := b ∉ start.child.regionMapDataspaces

instance (b : Nat) : Decidable (Plain b) := inferInstanceAs (Decidable (b ∉ _))

def Known (c : PdSessionComponent) : Prop := start.child.services.pdRoot = [c]

theorem start_initial : start.Initial :=
  ⟨by decide, by decide, ⟨.small, rfl⟩, rfl⟩

theorem alloc_step : WorldStep Plain Known start (.alloc session.cap 0x2000) allocated :=
  .alloc (List.mem_singleton.mpr rfl) (if_pos (by decide))

theorem dataspaces_allocated : dataspacesOf allocated.ram = [dataspace] := by decide +kernel

theorem write_step {dd : DesignatedDataspaceInfo} (hdd : dd ∈ dataspace.dds) :
    WorldStep Plain Known allocated (.write dataspace.cap dd.relAddr 7) (written dd) := by
  have hpages : ∀ x ∈ dataspace.dds, x.mapped = true ∧ x.contains x.relAddr = true := by decide
  exact .write 7 (by rw [dataspaces_allocated]; exact List.mem_singleton.mpr rfl) hdd
    (hpages dd hdd).1 (hpages dd hdd).2

theorem allocated_admissible : Admissible Plain Known allocated where
  maps b hb := not_not.mpr hb
  services :=
    { ram := by decide +kernel
      pd := by
        intro c hc
        obtain rfl := List.mem_singleton.mp hc
        refine ⟨rfl, fun d hd _ => ?_, fun a ha => ⟨?_, ?_⟩⟩
        · rw [← List.singleton_inj.mp (hd.symm.trans rfl)]
        · revert a
          decide +kernel
        · revert a
          decide +kernel
      rm := List.forall_mem_nil _ }

/-- An access changes bytes only. -/
theorem written_admissible (dd : DesignatedDataspaceInfo) :
    Admissible Plain Known (written dd) :=
  ⟨allocated_admissible.maps, allocated_admissible.services⟩

theorem checkpoint_step {dd : DesignatedDataspaceInfo} (hdd : dd ∈ dataspace.dds) :
    WorldStep Plain Known (written dd) .checkpoint (written dd).checkpointed := by
  have hreturns : ∀ x ∈ dataspace.dds, (written x).result.thrown = none := by decide +kernel
  exact .checkpoint (written_admissible dd) (hreturns dd hdd)

/-- An access to the first designated dataspace of the list is seen. -/
theorem first_page_copied : FullCopy (written (.new ⟨103⟩ 0x1000 0x1000)).checkpointed := by
  have hrun : Run (WorldStep Plain Known) (fun w ev => ev = .checkpoint → RestUnchanged w) start
      (written (.new ⟨103⟩ 0x1000 0x1000)) :=
    ((Run.refl _).tail (by simp) alloc_step).tail (by simp) (write_step (by simp [dataspace, RamDataspaceInfo.dds]))
  refine (fullCopy_iff_of_run start_initial hrun (checkpoint_step (by decide))).mpr ?_
  intro d hd dd hdd _ i _ _
  have hpages : dataspacesOf (written (.new ⟨103⟩ 0x1000 0x1000)).ram = [dataspace] :=
    dataspaces_allocated
  rw [hpages] at hd
  obtain rfl := List.mem_singleton.mp hd
  obtain rfl := List.mem_singleton.mp hdd
  rfl

/-- The child has written to the other one. -/
def lost : World := written (.new ⟨102⟩ 0 0x1000)

/-- The first byte of a managed dataspace is in its copy. -/
def FirstByteCopied (w : World) : Prop :=
  ∀ s ∈ w.ram, ∀ d ∈ s.parentState.ramDataspaces,
    ∃ t ∈ w.state.ramSessions, ∃ u ∈ t.storedRamdsInfos, u.badge = d.cap.localName ∧
      ∃ dd ∈ d.dds, InRange dd.range 0 ∧
        w.core.bytes u.memoryContent.localName 0 = w.core.bytes dd.cap.localName (0 - dd.relAddr)

instance (w : World) : Decidable (FirstByteCopied w) := inferInstanceAs (Decidable (∀ s ∈ w.ram, _))

/-- **An access to another one is lost**: the copy does not have the
byte the child wrote to the first page. -/
theorem second_page_lost :
    ¬ ∀ plain pds (w₀ w w' : World), w₀.Initial → Run (WorldStep plain pds) (fun _ _ => True) w₀ w →
      WorldStep plain pds w .checkpoint w' → FullCopy w' := by
  intro h
  have hmem : DesignatedDataspaceInfo.new ⟨102⟩ 0 0x1000 ∈ dataspace.dds := by decide
  have hrun : Run (WorldStep Plain Known) (fun _ _ => True) start lost :=
    ((Run.refl _).tail trivial alloc_step).tail trivial (write_step hmem)
  have hfull := h _ _ _ _ _ start_initial hrun (checkpoint_step hmem)
  have hpages : ∀ s ∈ lost.checkpointed.ram, ∀ d ∈ s.parentState.ramDataspaces,
      d.mrmInfo.isSome = true ∧ 0 < d.size := by decide +kernel
  have hbyte : FirstByteCopied lost.checkpointed := by
    intro s hs d hd
    obtain ⟨hman, hsize⟩ := hpages s hs d hd
    obtain ⟨t, ht, -, u, hu, hub, hbytes⟩ := hfull s hs d hd hman
    exact ⟨t, ht, u, hu, hub, hbytes 0 hsize⟩
  have hnot : ¬FirstByteCopied lost.checkpointed := by decide +kernel
  exact hnot hbyte

end TwoPages

end Rtcr
