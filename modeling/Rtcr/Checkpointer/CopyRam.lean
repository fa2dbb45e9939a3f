import Rtcr.Lib.Charge
import Rtcr.Checkpointer.Counts

/-!
# Checkpointer.CopyRam — what becomes of the copy dataspaces

A copy dataspace is allocated with its entry in `_copy_dataspaces`. The
entry goes with its last user, and the dataspace stays allocated: the
branch that removes the entry does not free it. `copyRam_of_calls` keeps
the account: what is allocated is what the entries name and what that
branch has given up.
-/

namespace Rtcr

namespace Checkpointer

open Reconcile

/-! ## What is given up -/

/-- What `dropCopyDataspace` gives up: the copy dataspace of the entry,
if this was its last user. -/
def givenUp (badge : Nat) (ck : Checkpointer) : Multiset Cap :=
  match ck.copyDataspaces.find? (isBadge badge) with
  | some known => if known.refCount - 1 < 1 then {known.copyDsCap} else 0
  | none => 0

/-- Destroying a record is what gives up, whatever the kind. -/
def ramDataspaceCharge : Charge Checkpointer RamDataspaceInfo StoredRamDataspaceInfo
    (Multiset Cap) where
  update _ _ _ := 0
  destroy stored ck := ck.givenUp stored.badge

def attachedRegionCharge : Charge Checkpointer AttachedRegionInfo StoredAttachedRegionInfo
    (Multiset Cap) where
  update _ _ _ := 0
  destroy stored ck := ck.givenUp stored.attachedDsBadge

/-- Records with a list of records in them. -/
def ramSessionCharge : Charge Checkpointer RamSessionComponent StoredRamSessionInfo
    (Multiset Cap) where
  update c stored ck := reconcileCost ramDataspaceKind ramDataspaceCharge stored.storedRamdsInfos
    c.parentState.ramDataspaces ck
  destroy stored ck := destroyAllCost destroyStoredRamDataspace ramDataspaceCharge.destroy
    stored.storedRamdsInfos ck

def regionMapCharge : Charge Checkpointer RegionMapComponent StoredRegionMapInfo
    (Multiset Cap) where
  update c stored ck := reconcileCost attachedRegionKind attachedRegionCharge
    stored.storedAttachedRegionInfos c.parentState.attachedRegions ck
  destroy stored ck := destroyAllCost destroyStoredAttachedRegion attachedRegionCharge.destroy
    stored.storedAttachedRegionInfos ck

def rmSessionCharge : Charge Checkpointer RmSessionComponent StoredRmSessionInfo
    (Multiset Cap) where
  update c stored ck := reconcileCost regionMapKind regionMapCharge stored.storedRegionMapInfos
    c.parentState.regionMaps ck
  destroy stored ck := destroyAllCost destroyStoredRegionMap regionMapCharge.destroy
    stored.storedRegionMapInfos ck

def pdSessionCharge : Charge Checkpointer PdSessionComponent StoredPdSessionInfo
    (Multiset Cap) where
  update c stored ck := reconcileCost regionMapKind regionMapCharge (storedAreas stored) (areas c)
    (afterPdLists c stored ck)
  destroy stored ck := destroyAllCost destroyStoredRegionMap regionMapCharge.destroy
    (storedAreas stored).reverse (afterPdListsDestroyed stored ck)

/-- What the prepare phase gives up: RAM sessions, PD sessions, RM
sessions. -/
def prepareGivesUp (services : CustomServices) (state : TargetState) (ck : Checkpointer) :
    Multiset Cap :=
  let ram := prepareRamSessions state.ramSessions services.ramRoot ck
  let pd := preparePdSessions state.pdSessions services.pdRoot ram.2
  let cpu := prepareCpuSessions state.cpuSessions services.cpuRoot pd.2
  reconcileCost ramSessionKind ramSessionCharge state.ramSessions services.ramRoot ck +
    reconcileCost pdSessionKind pdSessionCharge state.pdSessions services.pdRoot ram.2 +
    match services.rmRoot with
    | some infos => reconcileCost rmSessionKind rmSessionCharge state.rmSessions infos cpu.2
    | none => 0

/-- What a call gives up. -/
def callGivesUp (ck : Checkpointer) (state : TargetState) (child : TargetChild) : Multiset Cap :=
  match createCapMapInfos child.pause ck.core with
  | (.error _, _) => 0
  | (.ok capMap, child') =>
      prepareGivesUp child'.services { state with capIdxAllocAddr := child.capMapInfo }
        (ck.setUp child' capMap)

/-! ## The account -/

/-- What is allocated is what the entries name, and `lost`. -/
def Account (lost : Multiset Cap) (ck : Checkpointer) : Prop :=
  (ck.copyRam : Multiset Cap) = (ck.copyDataspaces.map (·.copyDsCap) : List Cap) + lost

variable {lost : Multiset Cap} {ck : Checkpointer}

theorem account_recording (lost : Multiset Cap) : Recording (Account lost) where
  newRecord _ h := h
  destroyRecord _ _ h := h

theorem map_copyDsCap_modifyFirst (p : OrigCopyCountInfo → Bool) (n : Nat → Nat)
    (infos : List OrigCopyCountInfo) :
    (List.modifyFirst p (fun info => { info with refCount := n info.refCount }) infos).map
      (·.copyDsCap) = infos.map (·.copyDsCap) :=
  List.map_modifyFirst (f := fun info => { info with refCount := n info.refCount })
    (g := (·.copyDsCap)) (fun _ _ => rfl) infos

theorem Account.use (h : Account lost ck) (excluded : Bool) (cap : Cap) (size : Nat) :
    Account lost (ck.useCopyDataspace excluded cap size).2 := by
  unfold useCopyDataspace
  split
  · show (ck.copyRam : Multiset Cap) = _
    rw [map_copyDsCap_modifyFirst _ (· + 1)]
    exact h
  · split
    · exact h
    · show ((ck.core.newDataspace.1 :: ck.copyRam : List Cap) : Multiset Cap) =
        ((ck.core.newDataspace.1 :: ck.copyDataspaces.map (·.copyDsCap) : List Cap) :
          Multiset Cap) + lost
      rw [← Multiset.cons_coe, ← Multiset.cons_coe, Multiset.cons_add]
      exact congrArg _ h

/-- **The last user**: the entry goes, its copy dataspace is lost. -/
theorem Account.drop (h : Account lost ck) (badge : Nat) :
    Account (lost + ck.givenUp badge) (ck.dropCopyDataspace badge) := by
  unfold dropCopyDataspace givenUp
  cases hfind : ck.copyDataspaces.find? (isBadge badge) with
  | none =>
      show Account (lost + 0) ck
      rwa [add_zero]
  | some known =>
      by_cases hlast : known.refCount - 1 < 1
      · simp only [hlast, if_true]
        have hperm := (List.perm_cons_eraseP_of_find? hfind).map (·.copyDsCap)
        show (ck.copyRam : Multiset Cap) =
          ((ck.copyDataspaces.eraseP (isBadge badge)).map (·.copyDsCap) : List Cap) +
            (lost + {known.copyDsCap})
        rw [h, Multiset.coe_eq_coe.mpr hperm, List.map_cons, ← Multiset.cons_coe,
          Multiset.cons_add, ← add_assoc, ← Multiset.singleton_add, add_comm]
      · simp only [hlast, if_false]
        show (ck.copyRam : Multiset Cap) = _
        rw [map_copyDsCap_modifyFirst _ (· - 1), add_zero]
        exact h

theorem ramDataspaces_settle : Settles ramDataspaceKind ramDataspaceCharge Account where
  create c _ _ h := h.use _ _ _
  update _ _ m s h := by
    show Account (m + 0) s
    rwa [add_zero]
  destroy _ _ _ h := h.drop _

theorem attachedRegions_settle : Settles attachedRegionKind attachedRegionCharge Account where
  create c _ _ h := h.use _ _ _
  update _ _ m s h := by
    show Account (m + 0) s
    rwa [add_zero]
  destroy _ _ _ h := h.drop _

theorem ramSessions_settle : Settles ramSessionKind ramSessionCharge Account where
  create _ _ _ h := h
  update _ _ _ _ h := ramDataspaces_settle.reconcile _ _ h
  destroy _ _ _ h := destroyAll_settles ramDataspaces_settle.destroy _ h

theorem regionMaps_settle : Settles regionMapKind regionMapCharge Account where
  create _ _ _ h := h
  update _ _ _ _ h := attachedRegions_settle.reconcile _ _ h
  destroy _ _ _ h := destroyAll_settles attachedRegions_settle.destroy _ h

theorem rmSessions_settle : Settles rmSessionKind rmSessionCharge Account where
  create _ _ _ h := h
  update _ _ _ _ h := regionMaps_settle.reconcile _ _ h
  destroy _ _ _ h := destroyAll_settles regionMaps_settle.destroy _ h

theorem pdSessions_settle : Settles pdSessionKind pdSessionCharge Account where
  create _ _ _ h := h
  update c t m s h := by
    have hlists := (account_recording m).afterPdLists c t h
    exact regionMaps_settle.reconcile _ _ hlists
  destroy t m s h := by
    have hlists := (account_recording m).afterPdListsDestroyed t h
    exact destroyAll_settles regionMaps_settle.destroy (storedAreas t).reverse hlists

/-! ## Calls -/

theorem prepare_account (h : Account lost ck) (services : CustomServices) (state : TargetState) :
    Account (lost + prepareGivesUp services state ck) (prepare services state ck).2 := by
  let ram := prepareRamSessions state.ramSessions services.ramRoot ck
  let pd := preparePdSessions state.pdSessions services.pdRoot ram.2
  let cpu := prepareCpuSessions state.cpuSessions services.cpuRoot pd.2
  have h1 := ramSessions_settle.reconcile state.ramSessions services.ramRoot h
  have h2 := pdSessions_settle.reconcile state.pdSessions services.pdRoot h1
  have h3 := (account_recording _).cpuSessions.reconcile state.cpuSessions services.cpuRoot h2
  have h4 : Account (lost + prepareGivesUp services state ck)
      (prepareRoot prepareRmSessions state.rmSessions services.rmRoot cpu.2).2 := by
    simp only [prepareGivesUp, ← add_assoc]
    cases hroot : services.rmRoot with
    | none =>
        simp only [add_zero]
        exact h3
    | some infos => exact rmSessions_settle.reconcile state.rmSessions infos h3
  exact prepareRoot_keeps (account_recording _).timerSessions _ _ <|
    prepareRoot_keeps (account_recording _).logSessions _ _ h4

/-- **One call**, whether it returns or not. -/
theorem checkpoint_account (h : Account lost ck) (state : TargetState) (child : TargetChild) :
    Account (lost + ck.callGivesUp state child) (ck.checkpoint state child).checkpointer := by
  unfold callGivesUp checkpoint
  dsimp only
  rcases hmap : createCapMapInfos child.pause ck.core with ⟨e | capMap, child'⟩
  · show Account (lost + 0) ck
    rwa [add_zero]
  · have hset : Account lost (ck.setUp child' capMap) := h
    have hprep := prepare_account hset child'.services
      { state with capIdxAllocAddr := child.capMapInfo }
    simp only [takeSnapshot]
    split
    · exact hprep
    · exact hprep

/-- A new checkpointer, with these records in the target state. -/
def History.startFrom (core : Core) (state : TargetState) : History :=
  { History.start core with state := state }

def History.afterCalls (core : Core) (state : TargetState) (calls : List Call) : History :=
  calls.foldl History.next (.startFrom core state)

/-- What is allocated for copies is what the entries name. -/
def CopiesConserved (ck : Checkpointer) : Prop :=
  ck.copyRam.Perm (ck.copyDataspaces.map (·.copyDsCap))

instance (ck : Checkpointer) : Decidable ck.CopiesConserved :=
  inferInstanceAs (Decidable (List.Perm _ _))

theorem Account.conserved_iff (h : Account lost ck) : ck.CopiesConserved ↔ lost = 0 := by
  rw [CopiesConserved, ← Multiset.coe_eq_coe, h]
  exact add_eq_left

/-- What the next call gives up. -/
def History.givesUp (s : History) (call : Call) : Multiset Cap :=
  { s.checkpointer with core := call.core }.callGivesUp s.state call.child

/-- What the calls give up, one after the other. -/
def callsGiveUp : History → List Call → Multiset Cap
  | _, [] => 0
  | s, call :: calls => s.givesUp call + callsGiveUp (s.next call) calls

/-- **The account after any calls.** -/
theorem copyRam_of_calls (calls : List Call) {s : History} (h : Account lost s.checkpointer) :
    Account (lost + callsGiveUp s calls) (calls.foldl History.next s).checkpointer := by
  induction calls generalizing s lost with
  | nil =>
      show Account (lost + 0) s.checkpointer
      rwa [add_zero]
  | cons call calls ih =>
      have hcore : Account lost { s.checkpointer with core := call.core } := h
      have hrest := ih (s := s.next call) (checkpoint_account hcore s.state call.child)
      rw [add_assoc] at hrest
      exact hrest

theorem callsGiveUp_eq_zero (calls : List Call) (s : History) :
    callsGiveUp s calls = 0 ↔ ∀ before call after, calls = before ++ call :: after →
      (before.foldl History.next s).givesUp call = 0 := by
  induction calls generalizing s with
  | nil => simp [callsGiveUp]
  | cons c calls ih =>
      rw [callsGiveUp, add_eq_zero, ih]
      constructor
      · intro ⟨hfirst, hrest⟩ before call after hsplit
        cases before with
        | nil =>
            obtain ⟨rfl, -⟩ := List.cons.inj hsplit
            exact hfirst
        | cons b before =>
            obtain ⟨rfl, htail⟩ := List.cons.inj hsplit
            exact hrest before call after htail
      · intro h
        refine ⟨h [] c calls rfl, fun before call after hsplit => ?_⟩
        exact h (c :: before) call after (by rw [hsplit, List.cons_append])

end Checkpointer

end Rtcr
