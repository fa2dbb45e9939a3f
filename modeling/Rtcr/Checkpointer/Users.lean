import Rtcr.Checkpointer.CopyRam
import Rtcr.Checkpointer.CopySizes
import Rtcr.Checkpointer.Exact
import Rtcr.Checkpointer.Threads
import Rtcr.Lib.Turns
import Rtcr.Region

/-!
# Checkpointer.Users — the last user of a copy dataspace

Stored RAM dataspaces and stored attached regions use the copy of the
dataspace they name. `phaseTurns` reads off the records and the child,
list by list in the order of the prepare phase, which users come and
which go; `prepare_plays` says that the phase gives up a copy exactly if
a dataspace runs out of users on the way.
-/

namespace Rtcr

namespace Checkpointer

open Reconcile

/-! ## The turns of the phase -/

/-- The RAM dataspaces of a session: records are made of those that are
not stored, and those go that the child does not have any more. -/
def ramTurn (stored : List StoredRamDataspaceInfo) (child : List RamDataspaceInfo) : Turn Nat where
  made := (newcomers (fun d b => b == d.cap.localName) (·.cap.localName) child
    (stored.map (·.badge))).map (·.cap.localName)
  barred := []
  gone := (stored.filter fun t => !child.any fun d => d.cap.localName == t.badge).map (·.badge)

/-- The attached regions of a region map: records are made of those whose
start lies in no stored region, and those go whose start lies in no
region of the child. Dataspaces of region maps (`maps`) get no copy. -/
def regionTurn (maps : List Nat) (stored : List StoredAttachedRegionInfo)
    (child : List AttachedRegionInfo) : Turn Nat where
  made := (newcomers (fun r s => Region.covers s r.relAddr) (·.toRegion) child
    (stored.map (·.toRegion))).map (·.attachedDsCap.localName)
  barred := maps
  gone := (stored.filter fun t => !child.any fun r => r.covers t.relAddr).map (·.attachedDsBadge)

/-- The lists in the records of a kind that is looked up by badge. -/
def badgeTurns {χ τ : Type} (badge : τ → Nat) (cap : χ → Cap)
    (turn : χ → Option τ → List (Turn Nat)) (endTurn : τ → List (Turn Nat)) (stored : List τ)
    (child : List χ) : List (Turn Nat) :=
  passTurns (fun c t => badge t == (cap c).localName) (fun t c => (cap c).localName == badge t)
    turn endTurn stored child

def ramSessionTurns : List StoredRamSessionInfo → List RamSessionComponent → List (Turn Nat) :=
  badgeTurns (·.badge) (·.cap)
    (fun c o => [ramTurn (before (·.storedRamdsInfos) o) c.parentState.ramDataspaces])
    fun t => [ramTurn t.storedRamdsInfos []]

/-- A region map that is gone. -/
def regionMapEnd (maps : List Nat) (t : StoredRegionMapInfo) : List (Turn Nat) :=
  [regionTurn maps t.storedAttachedRegionInfos []]

def regionMapTurns (maps : List Nat) :
    List StoredRegionMapInfo → List RegionMapComponent → List (Turn Nat) :=
  badgeTurns (·.badge) (·.cap)
    (fun c o => [regionTurn maps (before (·.storedAttachedRegionInfos) o)
      c.parentState.attachedRegions])
    (regionMapEnd maps)

/-- The region maps of a PD session that is gone are destroyed last to
first. -/
def pdSessionTurns (maps : List Nat) :
    List StoredPdSessionInfo → List PdSessionComponent → List (Turn Nat) :=
  badgeTurns (·.badge) (·.cap) (fun c o => regionMapTurns maps (before storedAreas o) (areas c))
    fun t => (storedAreas t).reverse.flatMap (regionMapEnd maps)

def rmSessionTurns (maps : List Nat) :
    List StoredRmSessionInfo → List RmSessionComponent → List (Turn Nat) :=
  badgeTurns (·.badge) (·.cap)
    (fun c o => regionMapTurns maps (before (·.storedRegionMapInfos) o) c.parentState.regionMaps)
    fun t => t.storedRegionMapInfos.flatMap (regionMapEnd maps)

/-- Without an RM root the stored RM sessions are left alone. -/
def rmRootTurns (maps : List Nat) (stored : List StoredRmSessionInfo) :
    Option (List RmSessionComponent) → List (Turn Nat)
  | some child => rmSessionTurns maps stored child
  | none => []

/-- The prepare phase: RAM sessions, PD sessions, RM sessions. -/
def phaseTurns (maps : List Nat) (st : TargetState) (s : CustomServices) : List (Turn Nat) :=
  ramSessionTurns st.ramSessions s.ramRoot ++ pdSessionTurns maps st.pdSessions s.pdRoot ++
    rmRootTurns maps st.rmSessions s.rmRoot

/-! ## The table of users -/

/-- The users the copy dataspaces have at present. -/
def users (ck : Checkpointer) : Nat → Nat := usersOf ck.copyDataspaces

/-- One entry for every badge, none of them without users; the region-map
dataspaces that are known are `maps`. -/
structure Tallied (maps : List Nat) (ck : Checkpointer) : Prop where
  nodup : (ck.copyDataspaces.map (·.badge)).Nodup
  used : ∀ info ∈ ck.copyDataspaces, 1 ≤ info.refCount
  maps : ∀ b, b ∈ ck.regionMapDataspaces ↔ b ∈ maps

variable {maps : List Nat} {ck : Checkpointer}

theorem map_badge_modifyFirst (p : OrigCopyCountInfo → Bool) (n : Nat → Nat)
    (infos : List OrigCopyCountInfo) :
    (List.modifyFirst p (fun info => { info with refCount := n info.refCount }) infos).map (·.badge) =
      infos.map (·.badge) :=
  List.map_modifyFirst (f := fun info => { info with refCount := n info.refCount }) (g := (·.badge))
    (fun _ _ => rfl) infos

theorem usersOf_cons (info : OrigCopyCountInfo) (infos : List OrigCopyCountInfo) (b : Nat) :
    usersOf (info :: infos) b = if b = info.badge then info.refCount else usersOf infos b := by
  unfold usersOf
  by_cases hb : info.badge = b
  · have hself : isBadge b info = true := beq_iff_eq.mpr hb
    rw [List.find?_cons_of_pos hself, if_pos hb.symm]
  · have hne : ¬isBadge b info = true := fun h => hb (beq_iff_eq.mp h)
    rw [List.find?_cons_of_neg hne, if_neg (Ne.symm hb)]

theorem Tallied.use (h : Tallied maps ck) {barred : List Nat} {excluded : Bool} {cap : Cap}
    (hex : excluded = true ↔ cap.localName ∈ barred) (size : Nat) :
    Tallied maps (ck.useCopyDataspace excluded cap size).2 ∧
      (ck.useCopyDataspace excluded cap size).2.users =
        addUser barred cap.localName ck.users := by
  unfold useCopyDataspace
  cases hfind : ck.copyDataspaces.find? (isBadge cap.localName) with
  | some known =>
      have hused : usersOf ck.copyDataspaces cap.localName = known.refCount := by
        rw [usersOf, hfind]
      have hpos := h.used known (List.mem_of_find?_eq_some hfind)
      refine ⟨⟨?_, fun info hinfo => ?_, h.maps⟩, ?_⟩
      · rw [map_badge_modifyFirst _ (· + 1)]
        exact h.nodup
      · obtain ⟨x, hx, rfl | rfl⟩ := List.mem_modifyFirst hinfo
        · exact h.used _ hx
        · exact Nat.le_add_left ..
      · ext b
        show usersOf (List.modifyFirst _ _ ck.copyDataspaces) b = addUser _ _ (usersOf _) b
        rw [usersOf_modifyFirst _ _ (· + 1) _ hfind, addUser, hused,
          if_neg (c := _ ∧ _) (by omega)]
  | none =>
      have hused : usersOf ck.copyDataspaces cap.localName = 0 := by
        rw [usersOf, hfind]
      dsimp only
      split
      · -- excluded: it has no user, and gets none
        rename_i he
        refine ⟨h, ?_⟩
        ext b
        show usersOf _ b = addUser _ _ (usersOf _) b
        rw [addUser, if_pos (c := _ ∧ _) ⟨hex.mp he, hused⟩]
        split
        · rename_i hb
          rw [hb, hused]
        · rfl
      · -- a new dataspace starts with this user
        rename_i he
        refine ⟨⟨?_, fun info hinfo => ?_, h.maps⟩, ?_⟩
        · refine List.nodup_cons.mpr ⟨fun hmem => ?_, h.nodup⟩
          exact find_isBadge_none hfind hmem
        · rcases List.mem_cons.mp hinfo with rfl | hinfo
          · exact le_rfl
          · exact h.used info hinfo
        · ext b
          show usersOf (_ :: ck.copyDataspaces) b = addUser _ _ (usersOf _) b
          rw [usersOf_cons, addUser, hused, if_neg (c := _ ∧ _) fun hb => he (hex.mpr hb.1)]
          rfl

theorem Tallied.drop (h : Tallied maps ck) (b : Nat) :
    Tallied maps (ck.dropCopyDataspace b) ∧
      (ck.dropCopyDataspace b).users = dropUser b ck.users := by
  unfold dropCopyDataspace
  cases hfind : ck.copyDataspaces.find? (isBadge b) with
  | none =>
      refine ⟨h, ?_⟩
      ext b'
      show usersOf ck.copyDataspaces b' = dropUser b (usersOf ck.copyDataspaces) b'
      unfold dropUser
      by_cases hb : b' = b
      · have hnone : usersOf ck.copyDataspaces b = 0 := by rw [usersOf, hfind]
        rw [if_pos hb, hb, hnone]
      · rw [if_neg hb]
  | some known =>
      have hused : usersOf ck.copyDataspaces b = known.refCount := by
        rw [usersOf, hfind]
      have hpos := h.used known (List.mem_of_find?_eq_some hfind)
      dsimp only
      split
      · -- the last user: the pair goes, and no other has the badge
        rename_i hlast
        have hsub : (ck.copyDataspaces.eraseP (isBadge b)).Sublist ck.copyDataspaces :=
          List.eraseP_sublist
        refine ⟨⟨h.nodup.sublist (hsub.map _), fun info hinfo => h.used info (hsub.mem hinfo),
          h.maps⟩, ?_⟩
        ext b'
        show usersOf (ck.copyDataspaces.eraseP (isBadge b)) b' = dropUser b (usersOf _) b'
        unfold dropUser
        by_cases hb : b' = b
        · have hnone : (ck.copyDataspaces.eraseP (isBadge b)).find? (isBadge b) = none := by
            have herase : ck.copyDataspaces.eraseP (fun info => info.badge == b) =
                ck.copyDataspaces.filter fun info => info.badge ≠ b := List.eraseP_key b h.nodup
            refine List.find?_eq_none.mpr fun info hinfo hbadge => ?_
            rw [show isBadge b = fun info => info.badge == b from rfl, herase] at hinfo
            exact absurd (beq_iff_eq.mp hbadge) (by simpa using (List.mem_filter.mp hinfo).2)
          rw [if_pos hb, hb, hused, usersOf, hnone]
          show 0 = known.refCount - 1
          omega
        · rw [if_neg hb]
          unfold usersOf
          rw [List.find?_eraseP_of_disjoint (isBadge_disjoint hb)]
      · -- others are left, so the counter stays positive
        rename_i hmany
        refine ⟨⟨?_, fun info hinfo => ?_, h.maps⟩, ?_⟩
        · rw [map_badge_modifyFirst _ (· - 1)]
          exact h.nodup
        · obtain ⟨before, after, hsplit, -, hmod⟩ := List.modifyFirst_split
            (f := fun info => { info with refCount := info.refCount - 1 }) hfind
          have hmem : info ∈ List.modifyFirst (isBadge b) _ ck.copyDataspaces := hinfo
          rw [hmod] at hmem
          rcases List.mem_replace (a := known) hmem with rfl | hmem
          · show 1 ≤ known.refCount - 1
            omega
          · exact h.used info (hsplit ▸ hmem)
        · ext b'
          show usersOf (List.modifyFirst _ _ ck.copyDataspaces) b' = dropUser b (usersOf _) b'
          rw [usersOf_modifyFirst _ _ (· - 1) _ hfind, dropUser, hused]

/-- A copy is given up with its last user. -/
theorem Tallied.givenUp_iff (h : Tallied maps ck) (b : Nat) :
    ck.givenUp b = 0 ↔ ck.users b ≠ 1 := by
  unfold givenUp users usersOf
  cases hfind : ck.copyDataspaces.find? (isBadge b) with
  | none => simp
  | some known =>
      have hpos := h.used known (List.mem_of_find?_eq_some hfind)
      by_cases hlast : known.refCount - 1 < 1
      · simp only [hlast, if_true, Multiset.singleton_ne_zero, false_iff, not_not]
        omega
      · simp only [hlast, if_false, true_iff]
        omega

theorem tallied_recording (maps : List Nat) (known : Nat → Nat) :
    Recording fun ck => Tallied maps ck ∧ ck.users = known where
  newRecord _ h := ⟨⟨h.1.nodup, h.1.used, h.1.maps⟩, h.2⟩
  destroyRecord _ _ h := ⟨⟨h.1.nodup, h.1.used, h.1.maps⟩, h.2⟩

/-! ## One list -/

theorem ramDataspaces_shared : SharedKind ramDataspaceKind ramDataspaceCharge (·.badge)
    (fun d b => b == d.cap.localName) (·.cap.localName) (·.badge) (·.cap.localName) []
    (Tallied maps) users where
  stored _ _ := rfl
  view_create _ _ := rfl
  update _ _ _ := rfl
  free _ _ _ := rfl
  present_create _ _ := beq_self_eq_true _
  create c ck h := (tallied_recording ..).newRecord _ (h.use (by simp) c.size)
  destroy t ck h := (tallied_recording ..).destroyRecord _ _ (h.drop t.badge)
  last t ck h := h.givenUp_iff t.badge

theorem attachedRegions_shared : SharedKind attachedRegionKind attachedRegionCharge (·.toRegion)
    (fun r s => Region.covers s r.relAddr) (·.toRegion) (·.attachedDsBadge)
    (·.attachedDsCap.localName) maps (Tallied maps) users where
  stored _ _ := rfl
  view_create _ _ := rfl
  update _ _ _ := rfl
  free _ _ _ := rfl
  present_create c ck := AttachedRegionInfo.covers_self c
  create c ck h := by
    have hex : ck.regionMapDataspaces.contains c.attachedDsCap.localName = true ↔
        c.attachedDsCap.localName ∈ maps := by
      rw [List.contains_iff_mem, h.maps]
    exact (tallied_recording ..).newRecord _ (h.use hex c.size)
  destroy t ck h := (tallied_recording ..).destroyRecord _ _ (h.drop t.attachedDsBadge)
  last t ck h := h.givenUp_iff t.attachedDsBadge

theorem ramDataspaces_play (l : List StoredRamDataspaceInfo) (cs : List RamDataspaceInfo) :
    Plays (Tallied maps) users [ramTurn l cs] (fun s => (prepareRamDataspaces l cs s).2)
      (reconcileCost ramDataspaceKind ramDataspaceCharge l cs) :=
  .list ramDataspaces_shared l cs

theorem attachedRegions_play (l : List StoredAttachedRegionInfo) (cs : List AttachedRegionInfo) :
    Plays (Tallied maps) users [regionTurn maps l cs]
      (fun s => (prepareAttachedRegions l cs s).2)
      (reconcileCost attachedRegionKind attachedRegionCharge l cs) :=
  .list attachedRegions_shared l cs

theorem destroyRamDataspaces_play (l : List StoredRamDataspaceInfo) :
    Plays (Tallied maps) users [ramTurn l []] (destroyAll destroyStoredRamDataspace l)
      (destroyAllCost destroyStoredRamDataspace ramDataspaceCharge.destroy l) := by
  have hturn : ramTurn l [] = ⟨[], [], l.map (·.badge)⟩ := by simp [ramTurn, newcomers]
  rw [hturn]
  exact .listEnd ramDataspaces_shared l

theorem destroyAttachedRegions_play (l : List StoredAttachedRegionInfo) :
    Plays (Tallied maps) users [regionTurn maps l []] (destroyAll destroyStoredAttachedRegion l)
      (destroyAllCost destroyStoredAttachedRegion attachedRegionCharge.destroy l) := by
  have hturn : regionTurn maps l [] = ⟨[], maps, l.map (·.attachedDsBadge)⟩ := by
    simp [regionTurn, newcomers]
  rw [hturn]
  exact .listEnd attachedRegions_shared l

/-! ## Records with lists in them -/

/-- What is done before and after a list. -/
theorem Recording.idle {run : Checkpointer → Checkpointer}
    (hrun : ∀ P : Checkpointer → Prop, Recording P → ∀ ck, P ck → P (run ck)) :
    Plays (Tallied maps) users [] run (fun _ => (0 : Multiset Cap)) :=
  .idle fun ck h => hrun _ (tallied_recording maps ck.users) ck ⟨h, rfl⟩

theorem newRecord_idle :
    Plays (Tallied maps) users [] (fun s => s.newRecord.2) fun _ => (0 : Multiset Cap) :=
  Recording.idle fun _ hP => hP.newRecord

theorem destroyRecord_idle (p : RecordAddr) :
    Plays (Tallied maps) users [] (fun s => s.destroyRecord p) fun _ => (0 : Multiset Cap) :=
  Recording.idle fun _ hP => hP.destroyRecord p

theorem ramSessions_play (cs : List RamSessionComponent) :
    PlaysKind ramSessionKind ramSessionCharge (Tallied maps) users (fun _ => True) cs
      (fun c o => [ramTurn (before (·.storedRamdsInfos) o) c.parentState.ramDataspaces])
      (fun t => [ramTurn t.storedRamdsInfos []]) where
  found c _ t _ := ramDataspaces_play t.storedRamdsInfos c.parentState.ramDataspaces
  fresh c _ := newRecord_idle.afterIdle (ramDataspaces_play [] c.parentState.ramDataspaces)
  destroyed t := (destroyRamDataspaces_play t.storedRamdsInfos).thenIdle (destroyRecord_idle t.addr)

theorem destroyRegionMap_play (t : StoredRegionMapInfo) :
    Plays (Tallied maps) users (regionMapEnd maps t) (destroyStoredRegionMap t)
      (regionMapCharge.destroy t) :=
  (destroyAttachedRegions_play t.storedAttachedRegionInfos).thenIdle (destroyRecord_idle t.addr)

/-- The regions of a region map, then its dataspace. -/
theorem updateRegionMap_play {c : RegionMapComponent} (hc : c.parentState.dsCap.localName ∈ maps)
    (t : StoredRegionMapInfo) :
    Plays (Tallied maps) users
      [regionTurn maps t.storedAttachedRegionInfos c.parentState.attachedRegions]
      (fun s => (updateRegionMap c t s).2) (regionMapCharge.update c t) := by
  have hmap : Plays (Tallied maps) users [] (fun s : Checkpointer => { s with
      regionMapDataspaces := c.parentState.dsCap.localName :: s.regionMapDataspaces })
      fun _ => (0 : Multiset Cap) := by
    apply Plays.idle
    intro ck h
    refine ⟨⟨h.nodup, h.used, fun b => ?_⟩, rfl⟩
    rw [List.mem_cons, h.maps]
    constructor
    · rintro (rfl | hb)
      · exact hc
      · exact hb
    · exact .inr
  exact (attachedRegions_play t.storedAttachedRegionInfos c.parentState.attachedRegions).thenIdle
    hmap

theorem regionMaps_play {cs : List RegionMapComponent}
    (hcs : ∀ c ∈ cs, c.parentState.dsCap.localName ∈ maps) :
    PlaysKind regionMapKind regionMapCharge (Tallied maps) users (fun _ => True) cs
      (fun c o => [regionTurn maps (before (·.storedAttachedRegionInfos) o)
        c.parentState.attachedRegions]) (regionMapEnd maps) where
  found _ hc t _ := updateRegionMap_play (hcs _ hc) t
  fresh c hc := .fresh newRecord_idle fun s₀ =>
    updateRegionMap_play (hcs c hc) (regionMapKind.create c s₀).1
  destroyed := destroyRegionMap_play

theorem prepareRegionMaps_play {cs : List RegionMapComponent}
    (hcs : ∀ c ∈ cs, c.parentState.dsCap.localName ∈ maps)
    (hdistinct : (cs.map (·.cap.localName)).Nodup) {l : List StoredRegionMapInfo}
    (hl : (l.map (·.badge)).Nodup) :
    Plays (Tallied maps) users (regionMapTurns maps l cs) (fun s => (prepareRegionMaps l cs s).2)
      (reconcileCost regionMapKind regionMapCharge l cs) :=
  (regionMaps_play hcs).reconcile regionMapKind_keyed hdistinct hl fun _ _ => trivial

theorem rmSessions_play {cs : List RmSessionComponent}
    (hcs : ∀ c ∈ cs, ∀ d ∈ c.parentState.regionMaps, d.parentState.dsCap.localName ∈ maps)
    (hdistinct : ∀ c ∈ cs, (c.parentState.regionMaps.map (·.cap.localName)).Nodup) :
    PlaysKind rmSessionKind rmSessionCharge (Tallied maps) users
      (fun t => (t.storedRegionMapInfos.map (·.badge)).Nodup) cs
      (fun c o => regionMapTurns maps (before (·.storedRegionMapInfos) o) c.parentState.regionMaps)
      (fun t => t.storedRegionMapInfos.flatMap (regionMapEnd maps)) where
  found c hc _ ht := prepareRegionMaps_play (hcs c hc) (hdistinct c hc) ht
  fresh c hc := newRecord_idle.afterIdle
    (prepareRegionMaps_play (hcs c hc) (hdistinct c hc) (l := []) List.nodup_nil)
  destroyed t := (Plays.destroyAll destroyRegionMap_play t.storedRegionMapInfos).thenIdle
    (destroyRecord_idle t.addr)

/-- The record of a new PD session has the region maps of the session,
without regions. -/
theorem regionMapTurns_new (c : PdSessionComponent) (ck : Checkpointer) :
    regionMapTurns maps (storedAreas (createStoredPdSession c ck).1) (areas c) =
      regionMapTurns maps [] (areas c) := by
  have hempty : ∀ t ∈ storedAreas (createStoredPdSession c ck).1,
      t.storedAttachedRegionInfos = [] := by
    simp [storedAreas, createStoredPdSession, StoredPdSessionInfo.new, StoredRegionMapInfo.new]
  have hnone : (storedAreas (createStoredPdSession c ck).1).filter
      (fun t => !(areas c).any fun a => a.cap.localName == t.badge) = [] := by
    simp [storedAreas, areas, createStoredPdSession, StoredPdSessionInfo.new,
      StoredRegionMapInfo.new]
  unfold regionMapTurns badgeTurns passTurns
  rw [hnone]
  refine congrArg (· ++ []) (List.flatMap_congr fun a _ => ?_)
  cases hfind : (storedAreas (createStoredPdSession c ck).1).find?
      fun t => t.badge == a.cap.localName with
  | none => rfl
  | some t =>
      show [regionTurn maps t.storedAttachedRegionInfos _] = _
      rw [hempty t (List.mem_of_find?_eq_some hfind)]
      rfl

theorem updatePdSession_play {c : PdSessionComponent}
    (hc : ∀ a ∈ areas c, a.parentState.dsCap.localName ∈ maps)
    (hdistinct : ((areas c).map (·.cap.localName)).Nodup) {t : StoredPdSessionInfo}
    (ht : ((storedAreas t).map (·.badge)).Nodup) :
    Plays (Tallied maps) users (regionMapTurns maps (storedAreas t) (areas c))
      (fun s => (updatePdSession c t s).2) (pdSessionCharge.update c t) := by
  have hlists : Plays (Tallied maps) users [] (afterPdLists c t) fun _ => (0 : Multiset Cap) :=
    Recording.idle fun _ hP _ => hP.afterPdLists c t
  exact hlists.afterIdle (prepareRegionMaps_play hc hdistinct ht)

theorem pdSessions_play {cs : List PdSessionComponent}
    (hcs : ∀ c ∈ cs, ∀ a ∈ areas c, a.parentState.dsCap.localName ∈ maps)
    (hdistinct : ∀ c ∈ cs, ((areas c).map (·.cap.localName)).Nodup) :
    PlaysKind pdSessionKind pdSessionCharge (Tallied maps) users
      (fun t => ((storedAreas t).map (·.badge)).Nodup) cs
      (fun c o => regionMapTurns maps (before storedAreas o) (areas c))
      (fun t => (storedAreas t).reverse.flatMap (regionMapEnd maps)) where
  found c hc _ ht := updatePdSession_play (hcs c hc) (hdistinct c hc) ht
  fresh c hc := by
    apply Plays.fresh newRecord_idle
    intro s₀
    have hupdate := updatePdSession_play (hcs c hc) (hdistinct c hc)
      (t := (createStoredPdSession c s₀).1) (hdistinct c hc)
    rwa [regionMapTurns_new] at hupdate
  destroyed t := by
    have hlists : Plays (Tallied maps) users [] (afterPdListsDestroyed t)
        fun _ => (0 : Multiset Cap) := Recording.idle fun _ hP _ => hP.afterPdListsDestroyed t
    exact (hlists.afterIdle (.destroyAll destroyRegionMap_play _)).thenIdle
      (destroyRecord_idle t.addr)

/-! ## The phase -/

/-- Sessions and region maps have distinct badges. -/
@[mk_iff] structure DistinctSessions (s : CustomServices) : Prop where
  ram : (s.ramRoot.map (·.cap.localName)).Nodup
  pd : (s.pdRoot.map (·.cap.localName)).Nodup
  areas : ∀ c ∈ s.pdRoot, ((areas c).map (·.cap.localName)).Nodup
  rm : ((sessionInfos s.rmRoot).map (·.cap.localName)).Nodup
  regionMaps : ∀ c ∈ sessionInfos s.rmRoot, (c.parentState.regionMaps.map (·.cap.localName)).Nodup

instance (s : CustomServices) : Decidable (DistinctSessions s) :=
  decidable_of_iff _ (distinctSessions_iff s).symm

theorem SameObjects.distinctSessions {s s' : CustomServices} (h : SameObjects s s')
    (hs : DistinctSessions s) : DistinctSessions s' where
  ram := h.ram.badges ▸ hs.ram
  pd := h.pd ▸ hs.pd
  areas := h.pd ▸ hs.areas
  rm := h.rm ▸ hs.rm
  regionMaps := h.rm ▸ hs.regionMaps

/-- So have those in the records. -/
@[mk_iff] structure DistinctHolders (st : TargetState) : Prop where
  ram : (st.ramSessions.map (·.badge)).Nodup
  pd : (st.pdSessions.map (·.badge)).Nodup
  areas : ∀ t ∈ st.pdSessions, ((storedAreas t).map (·.badge)).Nodup
  rm : (st.rmSessions.map (·.badge)).Nodup
  regionMaps : ∀ t ∈ st.rmSessions, (t.storedRegionMapInfos.map (·.badge)).Nodup

instance (st : TargetState) : Decidable (DistinctHolders st) :=
  decidable_of_iff _ (distinctHolders_iff st).symm

theorem rmRoot_play {root : Option (List RmSessionComponent)}
    (hmaps : ∀ c ∈ sessionInfos root, ∀ d ∈ c.parentState.regionMaps,
      d.parentState.dsCap.localName ∈ maps)
    (hsessions : ((sessionInfos root).map (·.cap.localName)).Nodup)
    (hdistinct : ∀ c ∈ sessionInfos root, (c.parentState.regionMaps.map (·.cap.localName)).Nodup)
    {st : TargetState} (hst : DistinctHolders st) :
    Plays (Tallied maps) users (rmRootTurns maps st.rmSessions root)
      (fun s => (prepareRoot prepareRmSessions st.rmSessions root s).2)
      (fun s => match root with
        | some infos => reconcileCost rmSessionKind rmSessionCharge st.rmSessions infos s
        | none => 0) := by
  cases root with
  | none => exact .idle fun _ h => ⟨h, rfl⟩
  | some infos =>
      exact (rmSessions_play hmaps hdistinct).reconcile rmSessionKind_keyed hsessions hst.rm
        hst.regionMaps

/-- **The phase** gives up a copy exactly if a dataspace runs out of
users. -/
theorem prepare_plays {s : CustomServices} (hs : DistinctSessions s)
    (hpd : ∀ c ∈ s.pdRoot, ∀ a ∈ areas c, a.parentState.dsCap.localName ∈ maps)
    (hrm : ∀ c ∈ sessionInfos s.rmRoot, ∀ a ∈ c.parentState.regionMaps,
      a.parentState.dsCap.localName ∈ maps) {st : TargetState} (hst : DistinctHolders st) :
    Plays (Tallied maps) users (phaseTurns maps st s) (fun ck => (prepare s st ck).2)
      (prepareGivesUp s st) := by
  have hram : Plays (Tallied maps) users (ramSessionTurns st.ramSessions s.ramRoot) _ _ :=
    (ramSessions_play s.ramRoot).reconcile ramSessionKind_keyed hs.ram hst.ram fun _ _ => trivial
  have hpds := (pdSessions_play hpd hs.areas).reconcile
    pdSessionKind_keyed hs.pd hst.pd hst.areas
  have hcpu : Plays (Tallied maps) users []
      (fun ck => (prepareCpuSessions st.cpuSessions s.cpuRoot ck).2)
      fun _ => (0 : Multiset Cap) :=
    Recording.idle fun _ hP _ => hP.cpuSessions.reconcile st.cpuSessions s.cpuRoot
  have hrms := rmRoot_play hrm hs.rm hs.regionMaps hst
  have hlog : Plays (Tallied maps) users []
      (fun ck => (prepareRoot prepareLogSessions st.logSessions s.logRoot ck).2)
      fun _ => (0 : Multiset Cap) :=
    Recording.idle fun _ hP _ => prepareRoot_keeps hP.logSessions st.logSessions s.logRoot
  have htimer : Plays (Tallied maps) users []
      (fun ck => (prepareRoot prepareTimerSessions st.timerSessions s.timerRoot ck).2)
      fun _ => (0 : Multiset Cap) :=
    Recording.idle fun _ hP _ => prepareRoot_keeps hP.timerSessions st.timerSessions s.timerRoot
  exact (((hram.append hpds).append (hcpu.afterIdle hrms)).thenIdle hlog).thenIdle htimer

/-! ## The badges of the records -/

/-- An embedded region map keeps its badge. -/
theorem areaAfter_badge {t : StoredPdSessionInfo} (ht : ((storedAreas t).map (·.badge)).Nodup)
    {cs : List RegionMapComponent} (hcs : (cs.map (·.cap.localName)).Nodup) (ck : Checkpointer)
    {u : StoredRegionMapInfo} (hu : u ∈ storedAreas t) :
    (areaAfter u (prepareRegionMaps (storedAreas t) cs ck).1).badge = u.badge := by
  unfold areaAfter
  split
  · rename_i v hfind
    have haddr : v.addr = u.addr := by simpa using List.find?_some hfind
    obtain ⟨c, -, -, w, s, -, rfl, horig⟩ := regionMapKind_keyed.reconcile_origin
      regionMapKind.keeps_true (s := ck) trivial ht hcs (List.mem_of_find?_eq_some hfind)
    rcases horig with ⟨hw, -⟩ | ⟨-, s₀, -, rfl⟩
    · obtain rfl : w = u := List.inj_on_of_nodup_map (storedAreas_nodup t) hw hu haddr
      rfl
    · -- a new region map is a block of its own
      obtain ⟨n, hn⟩ : ∃ n, RecordAddr.block n = u.addr := ⟨_, haddr⟩
      obtain ⟨ha, hs, hl⟩ := t.embedded
      have hmember : ∀ a : Area, t.addr.area a ≠ .block n := by
        intro a
        unfold RecordAddr.area
        cases t.addr <;> simp
      simp only [storedAreas, List.mem_cons, List.not_mem_nil, or_false] at hu
      rcases hu with rfl | rfl | rfl
      · exact absurd (hn ▸ ha).symm (hmember _)
      · exact absurd (hn ▸ hs).symm (hmember _)
      · exact absurd (hn ▸ hl).symm (hmember _)
  · rfl

theorem updatePdSession_areas {c : PdSessionComponent}
    (hc : ((areas c).map (·.cap.localName)).Nodup) {t : StoredPdSessionInfo}
    (ht : ((storedAreas t).map (·.badge)).Nodup) (ck : Checkpointer) :
    (storedAreas (updatePdSession c t ck).1).map (·.badge) = (storedAreas t).map (·.badge) := by
  have hbadge := fun u hu => areaAfter_badge (u := u) ht hc (afterPdLists c t ck) hu
  have h : (storedAreas t).map (fun u =>
      (areaAfter u (prepareRegionMaps (storedAreas t) (areas c) (afterPdLists c t ck)).1).badge) =
        (storedAreas t).map (·.badge) := List.map_congr_left hbadge
  exact h

theorem DistinctHolders.prepare {st : TargetState} (h : DistinctHolders st) {s : CustomServices}
    (hs : DistinctSessions s) (ck : Checkpointer) : DistinctHolders (prepare s st ck).1 where
  ram := (ramSessionKind_keyed.reconcile_keys ck h.ram hs.ram).nodup_iff.mpr hs.ram
  pd := (pdSessionKind_keyed.reconcile_keys _ h.pd hs.pd).nodup_iff.mpr hs.pd
  areas t ht := by
    obtain ⟨c, hc, -, u, s', -, rfl, horig⟩ := pdSessionKind_keyed.reconcile_origin
      pdSessionKind.keeps_true trivial h.pd hs.pd ht
    have hc := hs.areas c hc
    have hu : ((storedAreas u).map (·.badge)).Nodup := by
      rcases horig with ⟨hu, -⟩ | ⟨-, s₀, -, rfl⟩
      · exact h.areas u hu
      · exact hc
    have hbadges := updatePdSession_areas hc hu s'
    exact hbadges ▸ hu
  rm := by
    show ((prepareRoot prepareRmSessions st.rmSessions s.rmRoot _).1.map (·.badge)).Nodup
    have hrm := hs.rm
    cases hroot : s.rmRoot with
    | none => exact h.rm
    | some cs =>
        rw [hroot] at hrm
        exact (rmSessionKind_keyed.reconcile_keys _ h.rm hrm).nodup_iff.mpr hrm
  regionMaps t ht := by
    change t ∈ (prepareRoot prepareRmSessions st.rmSessions s.rmRoot _).1 at ht
    have hrm := hs.rm
    have hmaps := hs.regionMaps
    cases hroot : s.rmRoot with
    | none =>
        rw [hroot] at ht
        exact h.regionMaps t ht
    | some cs =>
        rw [hroot] at ht hrm hmaps
        obtain ⟨c, hc, -, u, s', -, rfl, horig⟩ := rmSessionKind_keyed.reconcile_origin
          rmSessionKind.keeps_true trivial h.rm hrm ht
        have hu : (u.storedRegionMapInfos.map (·.badge)).Nodup := by
          rcases horig with ⟨hu, -⟩ | ⟨-, s₀, -, rfl⟩
          · exact h.regionMaps u hu
          · exact List.nodup_nil
        have hc := hmaps c hc
        exact (regionMapKind_keyed.reconcile_keys _ hu hc).nodup_iff.mpr hc

/-! ## Calls -/

theorem ramTurn_outline (l : List StoredRamDataspaceInfo) (cs : List RamDataspaceInfo) :
    ramTurn l (cs.map RamDataspaceInfo.outline) = ramTurn l cs := by
  unfold ramTurn
  rw [newcomers_map, List.map_map]
  simp only [List.any_map]
  rfl

theorem ramSessionTurns_outline (l : List StoredRamSessionInfo) (cs : List RamSessionComponent) :
    ramSessionTurns l (cs.map RamSessionComponent.outline) = ramSessionTurns l cs := by
  have hturn : ∀ (c : RamSessionComponent) stored,
      ramTurn stored c.outline.parentState.ramDataspaces =
        ramTurn stored c.parentState.ramDataspaces := fun c stored =>
    ramTurn_outline stored c.parentState.ramDataspaces
  unfold ramSessionTurns badgeTurns passTurns
  simp only [List.flatMap_map, List.any_map, hturn]
  rfl

/-- What the turns read of the child does not change before the phase. -/
theorem SameObjects.phaseTurns {s s' : CustomServices} (h : SameObjects s s') (maps : List Nat)
    (st : TargetState) : phaseTurns maps st s' = phaseTurns maps st s := by
  unfold Checkpointer.phaseTurns
  rw [h.pd, h.rm, ← ramSessionTurns_outline _ s'.ramRoot, h.ram, ramSessionTurns_outline]

theorem mem_regionMapDataspaces_pd {child : TargetChild} :
    ∀ c ∈ child.services.pdRoot, ∀ a ∈ areas c,
      a.parentState.dsCap.localName ∈ child.regionMapDataspaces := by
  intro c hc a ha
  exact List.mem_map.mpr ⟨a, List.mem_append_left _ (List.mem_flatMap.mpr ⟨c, hc, ha⟩), rfl⟩

theorem mem_regionMapDataspaces_rm {child : TargetChild} :
    ∀ c ∈ sessionInfos child.services.rmRoot, ∀ a ∈ c.parentState.regionMaps,
      a.parentState.dsCap.localName ∈ child.regionMapDataspaces := by
  intro c hc a ha
  exact List.mem_map.mpr ⟨a, List.mem_append_right _ (List.mem_flatMap.mpr ⟨c, hc, ha⟩), rfl⟩

/-- The phase of a call. -/
theorem prepared_plays (ck : Checkpointer) (child : TargetChild)
    (hs : DistinctSessions child.services) {st : TargetState} (hst : DistinctHolders st) :
    Plays (Tallied child.regionMapDataspaces) users
      (phaseTurns child.regionMapDataspaces st child.services)
      (fun s => (prepare (ck.prepareChild child).services
        { st with capIdxAllocAddr := child.capMapInfo } s).2)
      (prepareGivesUp (ck.prepareChild child).services
        { st with capIdxAllocAddr := child.capMapInfo }) := by
  have hsame := ck.prepareChild_sameObjects child
  have hturns : phaseTurns child.regionMapDataspaces _ _ =
      phaseTurns child.regionMapDataspaces st child.services :=
    hsame.phaseTurns child.regionMapDataspaces { st with capIdxAllocAddr := child.capMapInfo }
  have hst' : DistinctHolders { st with capIdxAllocAddr := child.capMapInfo } :=
    ⟨hst.ram, hst.pd, hst.areas, hst.rm, hst.regionMaps⟩
  rw [← hturns]
  apply prepare_plays (hsame.distinctSessions hs) ?_ ?_ hst'
  · rw [hsame.pd]
    exact mem_regionMapDataspaces_pd
  · rw [hsame.rm]
    exact mem_regionMapDataspaces_rm

/-- At the beginning of the phase the region-map dataspaces are known. -/
theorem Tallied.setUp (h : Tallied maps ck) (child : TargetChild) (capMap : List BadgeKcapInfo) :
    Tallied child.regionMapDataspaces (ck.setUp (ck.prepareChild child) capMap) := by
  have hsame := ck.prepareChild_sameObjects child
  refine ⟨h.nodup, h.used, fun b => ?_⟩
  show b ∈ createRegionMapDataspaces (ck.prepareChild child).services.pdRoot
    (ck.prepareChild child).services.rmRoot ↔ _
  rw [hsame.pd, hsame.rm, mem_createRegionMapDataspaces]

/-- No dataspace runs out of users: whenever stored RAM dataspaces or
attached regions that name it go, it has users left, counting from what
the checkpointer and the records say before the call. -/
def KeepsUsers (s : History) (call : Call) : Prop :=
  call.child.CapMapReadable →
    Lasts s.checkpointer.users
      (phaseTurns call.child.regionMapDataspaces s.state call.child.services)

/-- What holds between two calls. -/
structure HistoryOk (s : History) : Prop where
  table : ∃ maps, Tallied maps s.checkpointer
  records : DistinctHolders s.state

theorem HistoryOk.next {s : History} (h : HistoryOk s) {call : Call}
    (hs : DistinctSessions call.child.services) : HistoryOk (s.next call) := by
  obtain ⟨⟨maps, htable⟩, hst⟩ := h
  let ck : Checkpointer := { s.checkpointer with core := call.core }
  have hck : Tallied maps ck := ⟨htable.nodup, htable.used, htable.maps⟩
  have hkeeps := (prepared_plays ck call.child hs hst).keeps _
    (hck.setUp call.child (call.child.capabilityMap ck.core))
  have hst' : DistinctHolders { s.state with capIdxAllocAddr := call.child.capMapInfo } :=
    ⟨hst.ram, hst.pd, hst.areas, hst.rm, hst.regionMaps⟩
  have hprep := hst'.prepare ((ck.prepareChild_sameObjects call.child).distinctSessions hs)
    (ck.setUp (ck.prepareChild call.child) (call.child.capabilityMap ck.core))
  rcases checkpoint_cases ck s.state call.child with ⟨hstate, hcheck⟩ |
    ⟨hstate, core, capMap, maps', hcheck⟩
  · refine ⟨⟨maps, ?_⟩, ?_⟩
    · show Tallied maps (ck.checkpoint s.state call.child).checkpointer
      rw [hcheck]
      exact hck
    · show DistinctHolders (ck.checkpoint s.state call.child).state
      rw [hstate]
      exact hst'
  · refine ⟨⟨maps', ?_⟩, ?_⟩
    · show Tallied maps' (ck.checkpoint s.state call.child).checkpointer
      rw [hcheck]
      exact ⟨hkeeps.nodup, hkeeps.used, fun _ => Iff.rfl⟩
    · show DistinctHolders (ck.checkpoint s.state call.child).state
      rw [hstate]
      exact hprep

/-- **One call** gives up nothing exactly if no dataspace runs out of
users. -/
theorem HistoryOk.givesUp_iff {s : History} (h : HistoryOk s) {call : Call}
    (hs : DistinctSessions call.child.services) : s.givesUp call = 0 ↔ KeepsUsers s call := by
  obtain ⟨⟨maps, htable⟩, hst⟩ := h
  let ck : Checkpointer := { s.checkpointer with core := call.core }
  have hck : Tallied maps ck := ⟨htable.nodup, htable.used, htable.maps⟩
  have hread := createCapMapInfos_ok_iff call.child.pause ck.core
  show ck.callGivesUp s.state call.child = 0 ↔ _
  unfold callGivesUp
  rcases hmap : createCapMapInfos call.child.pause ck.core with ⟨e | capMap, child'⟩
  · have hnot : ¬call.child.CapMapReadable := by
      intro hr
      obtain ⟨capMap, hok⟩ := hread.mpr hr
      simp [hmap] at hok
    exact ⟨fun _ hr => absurd hr hnot, fun _ => rfl⟩
  · have hr : call.child.CapMapReadable := hread.mp ⟨capMap, by rw [hmap]⟩
    have hchild : child' = ck.prepareChild call.child := by
      rw [prepareChild, hmap]
    have hlasts := (prepared_plays ck call.child hs hst).lasts _ (hck.setUp call.child capMap)
    show prepareGivesUp child'.services _ (ck.setUp child' capMap) = 0 ↔ _
    rw [hchild, hlasts]
    exact ⟨fun h _ => h, fun h => h hr⟩

theorem historyOk_startFrom (core : Core) {state : TargetState} (h : DistinctHolders state) :
    HistoryOk (.startFrom core state) :=
  ⟨⟨[], List.nodup_nil, List.forall_mem_nil _, fun _ => Iff.rfl⟩, h⟩

theorem HistoryOk.calls {s : History} (h : HistoryOk s) {calls : List Call}
    (hcalls : ∀ call ∈ calls, DistinctSessions call.child.services) :
    HistoryOk (calls.foldl History.next s) := by
  induction calls generalizing s with
  | nil => exact h
  | cons call calls ih =>
      exact ih (h.next (hcalls call (by simp))) fun c hc => hcalls c (by simp [hc])

/-- **Copy dataspaces are conserved** after calls of one checkpointer if
and only if no dataspace has run out of users in any of them. -/
theorem copies_conserved_iff (core : Core) (state : TargetState) (hstate : DistinctHolders state)
    {calls : List Call} (hcalls : ∀ call ∈ calls, DistinctSessions call.child.services) :
    (History.afterCalls core state calls).checkpointer.CopiesConserved ↔
      ∀ before call after, calls = before ++ call :: after →
        KeepsUsers (History.afterCalls core state before) call := by
  have hnew : Account 0 (History.startFrom core state).checkpointer := rfl
  have haccount := copyRam_of_calls calls hnew
  rw [zero_add] at haccount
  refine (haccount.conserved_iff.trans (callsGiveUp_eq_zero calls _)).trans ?_
  refine forall₄_congr fun before call after hsplit => ?_
  have hok : HistoryOk (History.afterCalls core state before) :=
    (historyOk_startFrom core hstate).calls fun c hc => hcalls c (by simp [hsplit, hc])
  exact hok.givesUp_iff (hcalls call (by simp [hsplit]))

/-! ### A dataspace that is freed -/

/-- The child attaches its second dataspace. -/
def attachSecond (child : TargetChild) : TargetChild :=
  { child with
    services :=
      { child.services with
        pdRoot := child.services.pdRoot.map fun c =>
          { c with
            addressSpace := c.addressSpace.setRegions
              ({ attachedDsCap := ⟨32⟩, size := 0x1000, offset := 0, relAddr := 0xb000
                 executable := false, bootstrapped := false } ::
                c.addressSpace.parentState.attachedRegions) } } }

/-- The small child with a second dataspace. -/
def secondDataspaceCall : Call :=
  ⟨{ TargetChild.small with
      services :=
        { TargetChild.small.services with
          ramRoot := TargetChild.small.services.ramRoot.map fun s =>
            s.setRamDataspaces
              ({ cap := ⟨32⟩, size := 0x1000, cached := .cached, bootstrapped := false
                 timestamp := 1, mrmInfo := none } :: s.parentState.ramDataspaces) } },
    .small⟩

/-- The same, attached; later it is freed and its region is still
listed. -/
def secondAttachedCall : Call := ⟨attachSecond secondDataspaceCall.child, .small⟩

def freedAttachedCall : Call := ⟨attachSecond .small, .small⟩

/-- The region of a freed dataspace is a user of its copy. -/
theorem copies_conserved_iff_attached :
    (History.afterCalls .small .empty
        [secondAttachedCall, freedAttachedCall]).checkpointer.CopiesConserved ∧
      KeepsUsers (History.afterCalls .small .empty [secondAttachedCall]) freedAttachedCall := by
  have hconserved : (History.afterCalls .small .empty
      [secondAttachedCall, freedAttachedCall]).checkpointer.CopiesConserved := by
    decide +kernel
  have hcalls : ∀ call ∈ [secondAttachedCall, freedAttachedCall],
      DistinctSessions call.child.services := by
    decide +kernel
  exact ⟨hconserved, (copies_conserved_iff .small .empty (by decide) hcalls).mp
    hconserved [secondAttachedCall] freedAttachedCall [] rfl⟩

/-- **The copy of a freed dataspace stays allocated.** The second
dataspace is gone at the next call: its entry is removed, its copy is
not given back. -/
theorem freed_copy_not_given_back :
    (History.afterCalls .small .empty [secondDataspaceCall]).checkpointer.CopiesConserved ∧
      ¬ (History.afterCalls .small .empty
        [secondDataspaceCall, firstCall]).checkpointer.CopiesConserved := by
  constructor
  · decide +kernel
  · decide +kernel

end Checkpointer

end Rtcr
