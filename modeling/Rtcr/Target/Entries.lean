import Rtcr.Lib.Fresh
import Rtcr.Restorer.Kinds
import Rtcr.Target.Requests

/-!
# Target.Entries — what is set once about everything that a child has

An entry for every object and every record of one, attached regions
apart: its badge, whether it has come into being during bootstrap, and
whatever else is set when it is made and never again (`Profile`). The
record of an attached region carries a mark of bootstrap too, but no badge
of its own, and has no entry. What a function of the RTCR does to the
entries is one `Gains`: some go, and new ones get badges that core has
just handed out and the mark of the phase.
-/

namespace Rtcr

open Fallible Fresh Reconcile

/-- What never changes about an object, with badges for capabilities.
`areas` are the region maps of a PD session. -/
inductive Profile
  | session (service : CustomService) (creationArgs : String) (areas : List Nat)
  | regionMap (size dsBadge : Nat)
  | cpuThread (pdSessionBadge : Nat) (name : String) (weight utcb : Nat)
  | ramDataspace (size : Nat) (cacheAttr : CacheAttribute) (managed : Bool) (timestamp : Nat)
  | nativeCapability (epBadge : Nat)
  | signalSource
  | signalContext (ssBadge imprint : Nat)
deriving DecidableEq, Repr

/-- What is set once about an object or a record. -/
structure Entry where
  badge : Nat
  bootstrapped : Bool
  profile : Profile
deriving DecidableEq, Repr

/-! ## The entries of a child -/

/-- A region map: its size and its dataspace. -/
def RegionMapComponent.entry (rm : RegionMapComponent) : Entry where
  badge := rm.cap.localName
  bootstrapped := rm.parentState.bootstrapped
  profile := .regionMap rm.parentState.size rm.parentState.dsCap.localName

/-- A thread: its PD session and what it was created with. -/
def CpuThreadComponent.entry (t : CpuThreadComponent) : Entry where
  badge := t.cap.localName
  bootstrapped := t.parentState.bootstrapped
  profile := .cpuThread t.parentState.pdSessionCap.localName t.parentState.name
    t.parentState.weight t.parentState.utcb

/-- A RAM dataspace: how it was allocated, and when. -/
def RamDataspaceInfo.entry (d : RamDataspaceInfo) : Entry where
  badge := d.cap.localName
  bootstrapped := d.bootstrapped
  profile := .ramDataspace d.size d.cached d.mrmInfo.isSome d.timestamp

/-- A native capability: its entrypoint. -/
def NativeCapabilityInfo.entry (info : NativeCapabilityInfo) : Entry where
  badge := info.cap.localName
  bootstrapped := info.bootstrapped
  profile := .nativeCapability info.epCap.localName

/-- A signal source has nothing but the mark. -/
def SignalSourceInfo.entry (info : SignalSourceInfo) : Entry where
  badge := info.cap.localName
  bootstrapped := info.bootstrapped
  profile := .signalSource

/-- A signal context: its signal source and its imprint. -/
def SignalContextInfo.entry (info : SignalContextInfo) : Entry where
  badge := info.cap.localName
  bootstrapped := info.bootstrapped
  profile := .signalContext info.ssCap.localName info.imprint

/-- A PD session: its arguments and its three region maps. -/
def PdSessionComponent.entry (pd : PdSessionComponent) : Entry where
  badge := pd.cap.localName
  bootstrapped := pd.parentState.bootstrapped
  profile := .session .pd pd.parentState.creationArgs (pd.areas.map (·.cap.localName))

/-- A CPU session: its arguments. -/
def CpuSessionComponent.entry (s : CpuSessionComponent) : Entry where
  badge := s.cap.localName
  bootstrapped := s.parentState.bootstrapped
  profile := .session .cpu s.parentState.creationArgs []

/-- A RAM session: its arguments. -/
def RamSessionComponent.entry (s : RamSessionComponent) : Entry where
  badge := s.cap.localName
  bootstrapped := s.parentState.bootstrapped
  profile := .session .ram s.parentState.creationArgs []

/-- An RM session: its arguments. -/
def RmSessionComponent.entry (s : RmSessionComponent) : Entry where
  badge := s.cap.localName
  bootstrapped := s.parentState.bootstrapped
  profile := .session .rm s.parentState.creationArgs []

/-- A LOG session: its arguments. -/
def LogSessionComponent.entry (s : LogSessionComponent) : Entry where
  badge := s.cap.localName
  bootstrapped := s.parentState.bootstrapped
  profile := .session .log s.parentState.creationArgs []

/-- A Timer session: its arguments. -/
def TimerSessionComponent.entry (s : TimerSessionComponent) : Entry where
  badge := s.cap.localName
  bootstrapped := s.parentState.bootstrapped
  profile := .session .timer s.parentState.creationArgs []

/-- The entries of a list. -/
def entriesOf {α : Type} (entry : α → Entry) (l : List α) : Multiset Entry := ↑(l.map entry)

/-- The session, its region maps and its capabilities. -/
def PdSessionComponent.entries (pd : PdSessionComponent) : Multiset Entry :=
  {pd.entry} + (entriesOf RegionMapComponent.entry pd.areas +
    (entriesOf NativeCapabilityInfo.entry pd.parentState.nativeCaps +
      (entriesOf SignalSourceInfo.entry pd.parentState.signalSources +
        entriesOf SignalContextInfo.entry pd.parentState.signalContexts)))

/-- The session and its threads. -/
def CpuSessionComponent.entries (s : CpuSessionComponent) : Multiset Entry :=
  {s.entry} +
    entriesOf CpuThreadComponent.entry s.parentState.cpuThreads

/-- The session and its dataspaces. -/
def RamSessionComponent.entries (s : RamSessionComponent) : Multiset Entry :=
  {s.entry} +
    entriesOf RamDataspaceInfo.entry s.parentState.ramDataspaces

/-- The session and its region maps. -/
def RmSessionComponent.entries (s : RmSessionComponent) : Multiset Entry :=
  {s.entry} +
    entriesOf RegionMapComponent.entry s.parentState.regionMaps

/-- The session alone. -/
def LogSessionComponent.entries (s : LogSessionComponent) : Multiset Entry :=
  {s.entry}

/-- The session alone. -/
def TimerSessionComponent.entries (s : TimerSessionComponent) : Multiset Entry :=
  {s.entry}

/-- The entries of everything the services have created. -/
def CustomServices.entries (s : CustomServices) : Multiset Entry :=
  total PdSessionComponent.entries s.pdRoot + (total CpuSessionComponent.entries s.cpuRoot +
    (total RamSessionComponent.entries s.ramRoot +
      (total RmSessionComponent.entries (sessionInfos s.rmRoot) +
        (total LogSessionComponent.entries (sessionInfos s.logRoot) +
          total TimerSessionComponent.entries (sessionInfos s.timerRoot)))))

/-- New entries carry the mark `boot` and badges from core. -/
def Gains (boot : Bool) (core core' : Core) (old new : Multiset Entry) : Prop :=
  Grows Entry.badge (fun e => e.bootstrapped = boot) core.nextBadge core'.nextBadge old new

section Gains

variable {α τ χ : Type} {boot : Bool} {core core' : Core} {old new : Multiset Entry}

theorem Gains.refl (boot : Bool) (core : Core) (old : Multiset Entry) :
    Gains boot core core old old := Grows.refl

theorem Gains.of_le (hle : core.nextBadge ≤ core'.nextBadge) (h : new ≤ old) :
    Gains boot core core' old new := Grows.of_le hle h

theorem Gains.trans {a b c : Multiset Entry} {core'' : Core} (h : Gains boot core core' a b)
    (h' : Gains boot core' core'' b c) : Gains boot core core'' a c := Grows.trans h h'

/-! ### Lists -/

/-- One more in front. -/
theorem gains_cons {entry : α → Entry} {x : α} (l : List α)
    (hge : core.nextBadge ≤ (entry x).badge) (hlt : (entry x).badge < core'.nextBadge)
    (hmark : (entry x).bootstrapped = boot) :
    Gains boot core core' (entriesOf entry l) (entriesOf entry (x :: l)) :=
  Grows.one hge hlt hmark

theorem entriesOf_le {entry : α → Entry} {l l' : List α} (h : l'.Sublist l) :
    entriesOf entry l' ≤ entriesOf entry l :=
  Multiset.coe_le.mpr (h.map entry).subperm

theorem entriesOf_modifyFirst {entry : α → Entry} {p : α → Bool} {f : α → α}
    (hf : ∀ x, entry (f x) = entry x) (l : List α) :
    entriesOf entry (List.modifyFirst p f l) = entriesOf entry l :=
  congrArg Multiset.ofList (List.map_modifyFirst (fun x _ => hf x) l)

theorem total_singleton (entry : α → Entry) (l : List α) :
    total (fun x => ({entry x} : Multiset Entry)) l = entriesOf entry l := by
  induction l with
  | nil => rfl
  | cons x l ih =>
      rw [total_cons, ih]
      rfl

theorem total_modifyFirst {w : α → Multiset Entry} {p : α → Bool} {f : α → α}
    (hf : ∀ x, w (f x) = w x) (l : List α) : total w (List.modifyFirst p f l) = total w l :=
  congrArg List.sum (List.map_modifyFirst (fun x _ => hf x) l)

theorem total_le {w : α → Multiset Entry} {l l' : List α} (h : l'.Sublist l) :
    total w l' ≤ total w l := by
  induction h with
  | slnil => exact le_rfl
  | cons x _ ih => exact ih.trans (Multiset.le_add_left _ _)
  | cons_cons x _ ih => exact add_le_add_right ih (w x)

/-- What a request does to the session that serves it. -/
theorem Gains.serveAt {w : α → Multiset Entry} {cap : α → Cap} (c : Cap)
    {f : α → Core → α × Core} (hf : ∀ x core, Gains boot core (f x core).2 (w x) (w (f x core).1))
    (l : List α) (core : Core) :
    Gains boot core (MonitoredChild.serveAt cap c f l core).2 (total w l)
      (total w (MonitoredChild.serveAt cap c f l core).1) := by
  unfold MonitoredChild.serveAt
  induction l with
  | nil => exact Grows.refl
  | cons x l ih =>
      unfold updateFirst
      split
      · exact (hf x core).frame_right _
      · exact ih.frame _

end Gains

/-! ### The lists of a child -/

namespace CustomServices

variable {boot : Bool} {core core' : Core} (s : CustomServices)

theorem gains_pd {pdRoot : List PdSessionComponent}
    (h : Gains boot core core' (total PdSessionComponent.entries s.pdRoot)
      (total PdSessionComponent.entries pdRoot)) :
    Gains boot core core' s.entries { s with pdRoot := pdRoot }.entries :=
  h.frame_right _

theorem gains_cpu {cpuRoot : List CpuSessionComponent}
    (h : Gains boot core core' (total CpuSessionComponent.entries s.cpuRoot)
      (total CpuSessionComponent.entries cpuRoot)) :
    Gains boot core core' s.entries { s with cpuRoot := cpuRoot }.entries :=
  (h.frame_right _).frame _

theorem gains_ram {ramRoot : List RamSessionComponent}
    (h : Gains boot core core' (total RamSessionComponent.entries s.ramRoot)
      (total RamSessionComponent.entries ramRoot)) :
    Gains boot core core' s.entries { s with ramRoot := ramRoot }.entries :=
  ((h.frame_right _).frame _).frame _

theorem gains_rm {rmRoot : Option (List RmSessionComponent)}
    (h : Gains boot core core' (total RmSessionComponent.entries (sessionInfos s.rmRoot))
      (total RmSessionComponent.entries (sessionInfos rmRoot))) :
    Gains boot core core' s.entries { s with rmRoot := rmRoot }.entries :=
  (((h.frame_right _).frame _).frame _).frame _

theorem gains_log {logRoot : Option (List LogSessionComponent)}
    (h : Gains boot core core' (total LogSessionComponent.entries (sessionInfos s.logRoot))
      (total LogSessionComponent.entries (sessionInfos logRoot))) :
    Gains boot core core' s.entries { s with logRoot := logRoot }.entries :=
  ((((h.frame_right _).frame _).frame _).frame _).frame _

theorem gains_timer {timerRoot : Option (List TimerSessionComponent)}
    (h : Gains boot core core' (total TimerSessionComponent.entries (sessionInfos s.timerRoot))
      (total TimerSessionComponent.entries (sessionInfos timerRoot))) :
    Gains boot core core' s.entries { s with timerRoot := timerRoot }.entries :=
  ((((h.frame _).frame _).frame _).frame _).frame _

end CustomServices

/-! ## Region maps and threads -/

@[simp] theorem RegionMapComponent.serve_entry (boot : Bool) (rm : RegionMapComponent)
    (request : RegionMapRequest) : (rm.serve boot request).entry = rm.entry := by
  cases request <;> rfl

@[simp] theorem CpuThreadComponent.serve_entry (t : CpuThreadComponent) (request : ThreadRequest) :
    (t.serve request).entry = t.entry := by
  cases request <;> rfl

/-! ## Sessions that serve a request -/

section Serve

variable {boot : Bool} {core : Core}

/-- One of the region maps has changed. -/
theorem PdSessionComponent.entries_area {pd pd' : PdSessionComponent}
    (hentry : pd'.areas.map (·.entry) = pd.areas.map (·.entry)) (hcap : pd'.cap = pd.cap)
    (hstate : pd'.parentState = pd.parentState) : pd'.entries = pd.entries := by
  have hcaps : pd'.areas.map (·.cap.localName) = pd.areas.map (·.cap.localName) := by
    have h := congrArg (List.map Entry.badge) hentry
    rw [List.map_map, List.map_map] at h
    exact h
  unfold entries entry entriesOf
  rw [hentry, hcaps, hcap, hstate]

theorem PdSessionComponent.serve_gains (request : PdRequest) (pd : PdSessionComponent)
    (core : Core) :
    Gains boot core (pd.serve boot request core).2 pd.entries (pd.serve boot request core).1.entries
    := by
  cases request with
  | allocSignalSource =>
      have h : Gains boot core (pd.serve boot .allocSignalSource core).2
          (entriesOf SignalSourceInfo.entry pd.parentState.signalSources) _ :=
        gains_cons (x := (SignalSourceInfo.create boot core).1) _ le_rfl (Nat.lt_succ_self _) rfl
      exact (((h.frame_right _).frame _).frame _).frame _
  | freeSignalSource cap =>
      have h : Gains boot core core (entriesOf SignalSourceInfo.entry pd.parentState.signalSources)
          (entriesOf _ (pd.freeSignalSource cap).parentState.signalSources) :=
        .of_le le_rfl (entriesOf_le List.eraseP_sublist)
      exact (((h.frame_right _).frame _).frame _).frame _
  | allocContext source imprint =>
      have h : Gains boot core (pd.serve boot (.allocContext source imprint) core).2
          (entriesOf SignalContextInfo.entry pd.parentState.signalContexts) _ :=
        gains_cons (x := (SignalContextInfo.create source imprint boot core).1) _ le_rfl
          (Nat.lt_succ_self _) rfl
      exact (((h.frame _).frame _).frame _).frame _
  | freeContext cap =>
      have h : Gains boot core core
          (entriesOf SignalContextInfo.entry pd.parentState.signalContexts)
          (entriesOf _ (pd.freeContext cap).parentState.signalContexts) :=
        .of_le le_rfl (entriesOf_le List.eraseP_sublist)
      exact (((h.frame _).frame _).frame _).frame _
  | allocRpcCap ep =>
      have h : Gains boot core (pd.serve boot (.allocRpcCap ep) core).2
          (entriesOf NativeCapabilityInfo.entry pd.parentState.nativeCaps)
          (entriesOf _ (pd.serve boot (.allocRpcCap ep) core).1.parentState.nativeCaps) :=
        gains_cons _ le_rfl (Nat.lt_succ_self _) rfl
      exact ((h.frame_right _).frame _).frame _
  | freeRpcCap cap =>
      have h : Gains boot core core
          (entriesOf NativeCapabilityInfo.entry pd.parentState.nativeCaps)
          (entriesOf _ (pd.freeRpcCap cap).parentState.nativeCaps) :=
        .of_le le_rfl (entriesOf_le List.eraseP_sublist)
      exact ((h.frame_right _).frame _).frame _
  | addressSpace request =>
      refine .of_le le_rfl (le_of_eq (PdSessionComponent.entries_area ?_ rfl rfl))
      simp [PdSessionComponent.serve, PdSessionComponent.areas]
  | stackArea request =>
      refine .of_le le_rfl (le_of_eq (PdSessionComponent.entries_area ?_ rfl rfl))
      simp [PdSessionComponent.serve, PdSessionComponent.areas]
  | linkerArea request =>
      refine .of_le le_rfl (le_of_eq (PdSessionComponent.entries_area ?_ rfl rfl))
      simp [PdSessionComponent.serve, PdSessionComponent.areas]

theorem CpuSessionComponent.serve_gains (pdSessions : List PdSessionComponent)
    (request : CpuRequest) (s : CpuSessionComponent) (core : Core) :
    Gains boot core (s.serve boot pdSessions request core).2 s.entries
      (s.serve boot pdSessions request core).1.entries := by
  cases request with
  | createThread pdSessionCap name affinity weight utcb =>
      unfold serve
      dsimp only
      split
      · let thread := CpuThreadComponent.create pdSessionCap name affinity weight utcb boot core
        have h : Gains boot core thread.2 (entriesOf CpuThreadComponent.entry
            s.parentState.cpuThreads) (entriesOf CpuThreadComponent.entry
            (thread.1 :: s.parentState.cpuThreads)) :=
          gains_cons _ le_rfl (Nat.lt_succ_self _) rfl
        exact h.frame _
      · exact .refl ..
  | exceptionSigh handler => exact .of_le le_rfl le_rfl
  | thread cap request =>
      refine .of_le le_rfl (le_of_eq ?_)
      show _ + entriesOf _ (List.modifyFirst _ _ _) = _
      rw [entriesOf_modifyFirst (fun t => t.serve_entry request)]
      rfl

theorem RmSessionComponent.serve_gains (request : RmRequest) (s : RmSessionComponent)
    (core : Core) :
    Gains boot core (s.serve boot request core).2 s.entries (s.serve boot request core).1.entries
    := by
  cases request with
  | create size =>
      let regionMap := RegionMapComponent.create size boot core
      have h : Gains boot core regionMap.2 (entriesOf RegionMapComponent.entry
          s.parentState.regionMaps) (entriesOf RegionMapComponent.entry
          (regionMap.1 :: s.parentState.regionMaps)) :=
        gains_cons _ le_rfl (Nat.lt_succ_of_lt (Nat.lt_succ_self _)) rfl
      exact h.frame _
  | regionMap cap request =>
      refine .of_le le_rfl (le_of_eq ?_)
      show _ + entriesOf _ (List.modifyFirst _ _ _) = _
      rw [entriesOf_modifyFirst (fun rm => rm.serve_entry boot request)]
      rfl

theorem TimerSessionComponent.serve_entries (s : TimerSessionComponent) (request : TimerRequest) :
    (s.serve request).entries = s.entries := by
  cases request <;> rfl

end Serve

/-! ## RAM sessions -/

/-- What `alloc` puts in front of the list, if anything. -/
structure Allocated (boot : Bool) (core core' : Core) (d : RamDataspaceInfo) : Prop where
  badge : core.nextBadge ≤ d.cap.localName ∧ d.cap.localName < core'.nextBadge
  bootstrapped : d.bootstrapped = boot
  timestamp : d.timestamp = core.ramDataspaceCount
  count : core'.ramDataspaceCount = core.ramDataspaceCount + 1

section Ram

variable {boot : Bool} {core core' : Core} {s s' : RamSessionComponent} {cap : Cap}

theorem allocDesignated_count {ranges : List (Nat × Nat)} {mrm mrm' : ManagedRegionMapInfo}
    {complete : Bool}
    (h : RamSessionComponent.allocDesignated ranges mrm s core = (complete, mrm', s', core')) :
    core'.ramDataspaceCount = core.ramDataspaceCount := by
  induction ranges generalizing mrm s core with
  | nil =>
      cases h
      rfl
  | cons p ranges ih =>
      unfold RamSessionComponent.allocDesignated at h
      split at h
      · cases h
        rfl
      · rename_i halloc
        obtain ⟨-, hcore, -⟩ := parentAlloc_eq_some halloc
        exact (ih h).trans (by rw [hcore]; rfl)

/-- **Allocation**: one record with a new badge, or, where the quota does
not suffice in the middle, none. -/
theorem alloc_allocated {size : Nat} {cacheAttr : CacheAttribute}
    (h : s.alloc size cacheAttr boot core = some (cap, s', core')) :
    s'.parentState = { s.parentState with ramDataspaces := s'.parentState.ramDataspaces } ∧
      core.ramDataspaceCount ≤ core'.ramDataspaceCount ∧
      (s'.parentState.ramDataspaces = s.parentState.ramDataspaces ∨
        ∃ d, s'.parentState.ramDataspaces = d :: s.parentState.ramDataspaces ∧
          Allocated boot core core' d) := by
  unfold RamSessionComponent.alloc at h
  split at h
  · dsimp only [RamSessionComponent.allocManaged] at h
    split at h
    · rename_i hloop
      cases h
      obtain ⟨-, hstate, -⟩ := allocDesignated_keeps hloop
      have hcount := allocDesignated_count hloop
      refine ⟨?_, by rw [hcount]; exact Nat.le_succ _,
        .inl (congrArg RamSessionInfo.ramDataspaces hstate)⟩
      rw [hstate]
      rfl
    · rename_i hloop
      cases h
      obtain ⟨-, hstate, hle⟩ := allocDesignated_keeps hloop
      have hcount := allocDesignated_count hloop
      refine ⟨?_, by rw [hcount]; exact Nat.le_succ _,
        .inr ⟨_, congrArg (_ :: ·) (congrArg RamSessionInfo.ramDataspaces hstate), ?_, rfl, rfl,
          hcount⟩⟩
      · show RamSessionInfo.mk _ _ _ _ _ = _
        rw [hstate]
        rfl
      · exact ⟨Nat.le_succ _, hle⟩
  · split at h
    · cases h
    · rename_i halloc
      obtain ⟨rfl, rfl, rfl⟩ := parentAlloc_eq_some halloc
      cases h
      exact ⟨rfl, Nat.le_succ _, .inr ⟨_, rfl, ⟨le_rfl, Nat.lt_succ_self _⟩, rfl, rfl, rfl⟩⟩

/-- The fault handler leaves alone what `f` sees of a dataspace if `f`
does not look into region maps. -/
theorem handleFault_map {β : Type} {f : RamDataspaceInfo → β}
    (hf : ∀ info mrm mrm', info.mrmInfo = some mrm → f { info with mrmInfo := some mrm' } = f info)
    {infos infos' : List RamDataspaceInfo}
    (h : handleFault infos = .ok infos') : infos'.map f = infos.map f := by
  induction infos generalizing infos' with
  | nil => cases h
  | cons info infos ih =>
      unfold handleFault at h
      split at h
      · cases h
      · split at h
        · cases hrest : handleFault infos with
          | error e =>
              rw [hrest] at h
              cases h
          | ok rest =>
              rw [hrest] at h
              cases h
              rw [List.map_cons, List.map_cons, ih hrest]
        · cases h
          rename_i mrm hmrm _ _ _ _
          rw [List.map_cons, List.map_cons, hf info mrm _ hmrm]

theorem RamSessionComponent.free_parentState (ds : Cap) (s : RamSessionComponent) :
    (s.free ds).parentState =
      { s.parentState with ramDataspaces := (s.free ds).parentState.ramDataspaces } := by
  have hlist : ∃ l, (s.free ds).parentState = { s.parentState with ramDataspaces := l } := by
    unfold free
    split
    · rename_i info _
      unfold destroyRamdsInfo
      dsimp only
      rw [parentFree_eq]
      cases info.mrmInfo with
      | none => exact ⟨_, rfl⟩
      | some mrm =>
          show ∃ l, (RamSessionComponent.destroyDesignated _ _).parentState = _
          obtain ⟨parentRam, mdAlloc, hdds⟩ := destroyDesignated_eq mrm.ddInfos _
          rw [hdds]
          exact ⟨_, rfl⟩
    · exact ⟨_, rfl⟩
  obtain ⟨l, hl⟩ := hlist
  rw [hl]

/-- The session itself stays. -/
theorem RamSessionComponent.gains_of_list (hcap : s'.cap = s.cap)
    (hstate : s'.parentState =
      { s.parentState with ramDataspaces := s'.parentState.ramDataspaces })
    (h : Gains boot core core' (entriesOf RamDataspaceInfo.entry s.parentState.ramDataspaces)
      (entriesOf RamDataspaceInfo.entry s'.parentState.ramDataspaces)) :
    Gains boot core core' s.entries s'.entries := by
  have hentry : s'.entry = s.entry := by
    unfold entry
    rw [hcap, hstate]
  unfold entries
  rw [hentry]
  exact h.frame _

theorem alloc_gains {size : Nat} {cacheAttr : CacheAttribute}
    (h : s.alloc size cacheAttr boot core = some (cap, s', core')) :
    Gains boot core core' s.entries s'.entries := by
  have hkeeps := alloc_allocates h
  obtain ⟨hstate, -, hlist⟩ := alloc_allocated h
  refine RamSessionComponent.gains_of_list hkeeps.keeps.cap hstate ?_
  rcases hlist with hsame | ⟨d, hcons, hd⟩
  · rw [hsame]
    exact .of_le hkeeps.le le_rfl
  · rw [hcons]
    exact gains_cons _ hd.badge.1 hd.badge.2 hd.bootstrapped

theorem RamSessionComponent.serve_gains (request : RamRequest) (s : RamSessionComponent)
    (core : Core) :
    Gains boot core (s.serve boot request core).2 s.entries (s.serve boot request core).1.entries
    := by
  cases request with
  | refAccount cap => exact .of_le le_rfl le_rfl
  | quota quota => exact .of_le le_rfl le_rfl
  | alloc size cacheAttr =>
      unfold serve
      dsimp only
      cases halloc : s.alloc size cacheAttr boot core with
      | none => exact .refl ..
      | some x => exact alloc_gains halloc
  | free ds =>
      refine gains_of_list (free_spec ds s).1 (s.free_parentState ds) ?_
      exact .of_le le_rfl (entriesOf_le (free_spec ds s).2)
  | fault ds addr =>
      refine gains_of_list rfl rfl (.of_le le_rfl (le_of_eq ?_))
      show entriesOf _ (List.modifyFirst _ _ _) = _
      apply entriesOf_modifyFirst
      intro info
      simp [RamDataspaceInfo.entry]
  | handleFault =>
      unfold serve
      dsimp only
      split
      · rename_i infos hrun
        refine gains_of_list rfl rfl (.of_le le_rfl (le_of_eq ?_))
        exact congrArg Multiset.ofList (handleFault_map (fun info mrm mrm' hmrm => by
          simp [RamDataspaceInfo.entry, hmrm]) hrun)
      · exact .refl ..

end Ram

end Rtcr
