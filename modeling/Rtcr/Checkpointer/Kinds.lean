import Rtcr.Checkpointer.Prepare

/-!
# Checkpointer.Kinds — what all kinds of records have in common

Every kind but the attached regions is keyed by badge. And whatever
property of the checkpointer survives its few primitive operations
(`Stable`) survives every action of every kind.
-/

namespace Rtcr.Checkpointer

open Reconcile

/-! ## Keys -/

/-- A new record of an attached region covers its place. -/
theorem attachedRegionKind_stored_create (c : AttachedRegionInfo) (s : Checkpointer) :
    attachedRegionKind.stored c (attachedRegionKind.create c s).1 = true := by
  show StoredAttachedRegionInfo.covers _ c.relAddr = true
  simp [StoredAttachedRegionInfo.covers, attachedRegionKind, createStoredAttachedRegion,
    createStored, StoredAttachedRegionInfo.new]

theorem ramDataspaceKind_keyed : Keyed ramDataspaceKind (·.badge) (·.cap.localName) :=
  badgeKind_keyed (fun _ _ => rfl) (fun _ _ _ => rfl)

theorem ramSessionKind_keyed : Keyed ramSessionKind (·.badge) (·.cap.localName) :=
  badgeKind_keyed (fun _ _ => rfl) (fun _ _ _ => rfl)

theorem regionMapKind_keyed : Keyed regionMapKind (·.badge) (·.cap.localName) :=
  badgeKind_keyed (fun _ _ => rfl) (fun _ _ _ => rfl)

theorem pdSessionKind_keyed : Keyed pdSessionKind (·.badge) (·.cap.localName) :=
  badgeKind_keyed (fun _ _ => rfl) (fun _ _ _ => rfl)

theorem cpuSessionKind_keyed : Keyed cpuSessionKind (·.badge) (·.cap.localName) :=
  badgeKind_keyed (fun _ _ => rfl) (fun _ _ _ => rfl)

theorem rmSessionKind_keyed : Keyed rmSessionKind (·.badge) (·.cap.localName) :=
  badgeKind_keyed (fun _ _ => rfl) (fun _ _ _ => rfl)

/-! ## Stable properties -/

/-- The property survives what records without memory do. -/
structure Recording (P : Checkpointer → Prop) : Prop where
  newRecord : ∀ ck, P ck → P ck.newRecord.2
  destroyRecord : ∀ p ck, P ck → P (ck.destroyRecord p)

/-- The property survives the primitive operations all kinds are made
of. -/
structure Stable (P : Checkpointer → Prop) : Prop extends Recording P where
  useCopyDataspace : ∀ excluded cap size ck, P ck → P (ck.useCopyDataspace excluded cap size).2
  dropCopyDataspace : ∀ badge ck, P ck → P (ck.dropCopyDataspace badge)
  regionMap : ∀ badge ck, P ck → P { ck with
    regionMapDataspaces := badge :: ck.regionMapDataspaces }

variable {P : Checkpointer → Prop}

namespace Recording

variable (h : Recording P)

include h

/-- Records that are only created, refreshed in place and destroyed. -/
theorem leaf {χ τ : Type} {badge : τ → Nat} {childBadge : χ → Nat} {addr : τ → RecordAddr}
    {mk : χ → RecordAddr → Nat → τ} {update : χ → τ → Checkpointer → τ × Checkpointer}
    (hu : ∀ c t ck, (update c t ck).2 = ck) :
    (badgeKind badge childBadge (fun c => createStored (mk c) (childBadge c)) update
      (fun stored ck => ck.destroyRecord (addr stored))).Keeps P where
  create _ ck hck := h.newRecord ck hck
  update c t ck hck := by
    change P (update c t ck).2
    rwa [hu]
  destroy _ ck hck := h.destroyRecord _ ck hck

theorem nativeCaps : nativeCapKind.Keeps P := h.leaf fun _ _ _ => rfl

theorem signalSources : signalSourceKind.Keeps P := h.leaf fun _ _ _ => rfl

theorem signalContexts : signalContextKind.Keeps P := h.leaf fun _ _ _ => rfl

theorem cpuThreads : cpuThreadKind.Keeps P := h.leaf fun _ _ _ => rfl

theorem cpuSessions : cpuSessionKind.Keeps P where
  create _ ck hck := h.newRecord ck hck
  update _ _ _ hck := h.cpuThreads.reconcile _ _ hck
  destroy _ _ hck := h.destroyRecord _ _ (destroyAll_keeps h.cpuThreads.destroy _ hck)

theorem logSessions : logSessionKind.Keeps P := h.leaf fun _ _ _ => rfl

theorem timerSessions : timerSessionKind.Keeps P := h.leaf fun _ _ _ => rfl

end Recording

namespace Stable

variable (h : Stable P)

include h

theorem ramDataspaces : ramDataspaceKind.Keeps P where
  create _ ck hck := h.newRecord _ (h.useCopyDataspace _ _ _ ck hck)
  update _ _ _ hck := hck
  destroy _ ck hck := h.destroyRecord _ _ (h.dropCopyDataspace _ ck hck)

theorem ramSessions : ramSessionKind.Keeps P where
  create _ ck hck := h.newRecord ck hck
  update _ _ _ hck := h.ramDataspaces.reconcile _ _ hck
  destroy _ _ hck := h.destroyRecord _ _ (destroyAll_keeps h.ramDataspaces.destroy _ hck)

theorem attachedRegions : attachedRegionKind.Keeps P where
  create _ ck hck := h.newRecord _ (h.useCopyDataspace _ _ _ ck hck)
  update _ _ _ hck := hck
  destroy _ ck hck := h.destroyRecord _ _ (h.dropCopyDataspace _ ck hck)

theorem regionMaps : regionMapKind.Keeps P where
  create _ ck hck := h.newRecord ck hck
  update _ _ _ hck := h.regionMap _ _ (h.attachedRegions.reconcile _ _ hck)
  destroy _ _ hck := h.destroyRecord _ _ (destroyAll_keeps h.attachedRegions.destroy _ hck)

theorem pdSessions : pdSessionKind.Keeps P where
  create _ ck hck := h.newRecord ck hck
  update _ _ _ hck :=
    h.regionMaps.reconcile _ _ (h.signalContexts.reconcile _ _
      (h.signalSources.reconcile _ _ (h.nativeCaps.reconcile _ _ hck)))
  destroy _ _ hck :=
    h.destroyRecord _ _ <| h.regionMaps.destroy _ _ <| h.regionMaps.destroy _ _ <|
      h.regionMaps.destroy _ _ <| destroyAll_keeps h.nativeCaps.destroy _ <|
      destroyAll_keeps h.signalSources.destroy _ <|
      destroyAll_keeps h.signalContexts.destroy _ hck

theorem rmSessions : rmSessionKind.Keeps P where
  create _ ck hck := h.newRecord ck hck
  update _ _ _ hck := h.regionMaps.reconcile _ _ hck
  destroy _ _ hck := h.destroyRecord _ _ (destroyAll_keeps h.regionMaps.destroy _ hck)

end Stable

/-- The capability map is only read. -/
theorem stable_capabilityMapInfos (capMap : List BadgeKcapInfo) :
    Stable fun ck => ck.capabilityMapInfos = capMap where
  newRecord _ h := h
  destroyRecord _ _ h := h
  useCopyDataspace excluded cap size ck h := by
    unfold useCopyDataspace
    split
    · exact h
    · split
      · exact h
      · exact h
  dropCopyDataspace badge ck h := by
    unfold dropCopyDataspace
    split
    · split
      · exact h
      · exact h
    · exact h
  regionMap _ _ h := h

end Rtcr.Checkpointer
