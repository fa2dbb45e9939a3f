import Rtcr.Checkpointer.Calls

/-!
# Incremental.Managed — managed dataspaces and their marks

The incremental checkpoint tells by `attached` which designated
dataspaces the child has had access to. `RamRel R` relates the RAM
sessions before and after an operation that only touches designated
dataspaces, each as `R` says; `Laid` is what the sessions look like at
any time.
-/

namespace Rtcr

open List (Forall₂)

/-! ## Related RAM sessions -/

/-- The designated dataspaces; an ordinary dataspace has none. -/
def RamDataspaceInfo.dds (info : RamDataspaceInfo) : List DesignatedDataspaceInfo :=
  match info.mrmInfo with
  | some mrm => mrm.ddInfos
  | none => []

/-- Only managed dataspaces have designated ones. -/
theorem RamDataspaceInfo.managed_of_mem {d : RamDataspaceInfo} {dd : DesignatedDataspaceInfo}
    (h : dd ∈ d.dds) : d.mrmInfo.isSome = true := by
  unfold dds at h
  split at h
  · rename_i hm
    rw [hm]
    rfl
  · cases h

/-- All RAM dataspaces of the sessions. -/
def dataspacesOf (r : List RamSessionComponent) : List RamDataspaceInfo :=
  r.flatMap (·.parentState.ramDataspaces)

/-- All designated dataspaces of the sessions. -/
def ddsOf (r : List RamSessionComponent) : List DesignatedDataspaceInfo :=
  (dataspacesOf r).flatMap (·.dds)

section Related

variable (R : DesignatedDataspaceInfo → DesignatedDataspaceInfo → Prop)

structure DataspaceRel (d d' : RamDataspaceInfo) : Prop where
  cap : d'.cap = d.cap
  size : d'.size = d.size
  managed : d'.mrmInfo.isSome = d.mrmInfo.isSome
  dds : Forall₂ R d.dds d'.dds

structure SessionRel (s s' : RamSessionComponent) : Prop where
  cap : s'.cap = s.cap
  dataspaces : Forall₂ (DataspaceRel R) s.parentState.ramDataspaces s'.parentState.ramDataspaces

/-- Session by session, dataspace by dataspace. -/
def RamRel (r r' : List RamSessionComponent) : Prop := Forall₂ (SessionRel R) r r'

variable {R} {r r' r'' : List RamSessionComponent}

theorem RamRel.dataspacesOf (h : RamRel R r r') :
    Forall₂ (DataspaceRel R) (dataspacesOf r) (Rtcr.dataspacesOf r') :=
  List.forall₂_flatMap (fun _ _ hs => hs.dataspaces) h

theorem RamRel.ddsOf (h : RamRel R r r') : Forall₂ R (ddsOf r) (Rtcr.ddsOf r') :=
  List.forall₂_flatMap (fun _ _ hd => hd.dds) h.dataspacesOf

theorem RamRel.trans {S T : DesignatedDataspaceInfo → DesignatedDataspaceInfo → Prop}
    (hR : ∀ x y z, R x y → S y z → T x z) (h : RamRel R r r') (h' : RamRel S r' r'') :
    RamRel T r r'' := by
  refine List.forall₂_trans (fun s s' s'' hs hs' => ⟨hs'.cap.trans hs.cap, ?_⟩) h h'
  refine List.forall₂_trans (fun d d' d'' hd hd' => ?_) hs.dataspaces hs'.dataspaces
  exact ⟨hd'.cap.trans hd.cap, hd'.size.trans hd.size, hd'.managed.trans hd.managed,
    List.forall₂_trans hR hd.dds hd'.dds⟩

theorem RamRel.mono {S : DesignatedDataspaceInfo → DesignatedDataspaceInfo → Prop}
    (hRS : ∀ x y, R x y → S x y) (h : RamRel R r r') : RamRel S r r' :=
  h.imp fun _ _ hs => ⟨hs.cap, hs.dataspaces.imp fun _ _ hd =>
    ⟨hd.cap, hd.size, hd.managed, hd.dds.imp hRS⟩⟩

theorem DataspaceRel.refl (hR : ∀ x, R x x) (d : RamDataspaceInfo) : DataspaceRel R d d :=
  ⟨rfl, rfl, rfl, List.forall₂_same.mpr fun x _ => hR x⟩

theorem SessionRel.refl (hR : ∀ x, R x x) (s : RamSessionComponent) : SessionRel R s s :=
  ⟨rfl, List.forall₂_same.mpr fun d _ => .refl hR d⟩

theorem RamRel.refl (hR : ∀ x, R x x) (r : List RamSessionComponent) : RamRel R r r :=
  List.forall₂_same.mpr fun s _ => .refl hR s

/-- What an operation on managed dataspaces does to one dataspace. -/
theorem DataspaceRel.mapManaged (f : ManagedRegionMapInfo → ManagedRegionMapInfo)
    {d : RamDataspaceInfo} (h : ∀ mrm, d.mrmInfo = some mrm → Forall₂ R mrm.ddInfos (f mrm).ddInfos) :
    DataspaceRel R d { d with mrmInfo := d.mrmInfo.map f } where
  cap := rfl
  size := rfl
  managed := Option.isSome_map
  dds := by
    cases hm : d.mrmInfo with
    | none => simp [RamDataspaceInfo.dds, hm]
    | some mrm => simpa [RamDataspaceInfo.dds, hm] using h mrm hm

theorem SessionRel.mapManaged (f : ManagedRegionMapInfo → ManagedRegionMapInfo)
    {s : RamSessionComponent} (h : ∀ d ∈ s.parentState.ramDataspaces, ∀ mrm, d.mrmInfo = some mrm →
      Forall₂ R mrm.ddInfos (f mrm).ddInfos) : SessionRel R s (s.mapManaged f) :=
  ⟨rfl, List.forall₂_map_self fun d hd => .mapManaged f (h d hd)⟩

theorem RamRel.mapManaged (f : ManagedRegionMapInfo → ManagedRegionMapInfo)
    (h : ∀ d ∈ Rtcr.dataspacesOf r, ∀ mrm, d.mrmInfo = some mrm →
      Forall₂ R mrm.ddInfos (f mrm).ddInfos) :
    RamRel R r (r.map (RamSessionComponent.mapManaged f)) :=
  List.forall₂_map_self fun _ hs => .mapManaged f fun d hd =>
    h d (List.mem_flatMap.mpr ⟨_, hs, hd⟩)

theorem RamRel.modifyManaged (hR : ∀ x, R x x) {child : TargetChild} (ram : Cap) (badge : Nat)
    (f : ManagedRegionMapInfo → ManagedRegionMapInfo)
    (h : ∀ d ∈ Rtcr.dataspacesOf child.services.ramRoot, ∀ mrm, d.mrmInfo = some mrm →
      Forall₂ R mrm.ddInfos (f mrm).ddInfos) :
    RamRel R child.services.ramRoot (child.modifyManaged ram badge f).services.ramRoot := by
  refine List.forall₂_map_self fun s hs => ?_
  split
  · refine ⟨rfl, List.forall₂_modifyFirst (fun d _ => .refl hR d) fun d hd => ?_⟩
    exact .mapManaged f (h d (List.mem_flatMap.mpr ⟨s, hs, hd⟩))
  · exact .refl hR s

end Related

end Rtcr
