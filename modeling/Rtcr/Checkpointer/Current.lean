import Rtcr.Checkpointer.Phases
import Rtcr.Lib.Run

/-!
# Checkpointer.Current — is a record what a new one would be?

`AllCurrent capMap s st`: every record says, in every field but the name
of its copy dataspace, what a record made from the child's object and
the capability map would say now. Most fields are written once, so this
depends on what the child does between two calls: `Steady` says that an
object which keeps its badge keeps what a record never takes over again.
-/

namespace Rtcr.Checkpointer

open Reconcile

variable {χ τ : Type}

/-! ## Current records -/

/-- Every record belongs to an object with its badge and is current. -/
def Currently (badge : τ → Nat) (childBadge : χ → Nat) (current : χ → τ → Prop) (ts : List τ)
    (cs : List χ) : Prop :=
  ∀ t ∈ ts, ∃ c ∈ cs, childBadge c = badge t ∧ current c t

/-- The kcap of a capability in the capability map. -/
def kcapOf (capMap : List BadgeKcapInfo) (cap : Cap) : Nat := findKcapByBadge cap.localName capMap

/-- All fields but the copy dataspace. -/
def CurrentRamDataspace (capMap : List BadgeKcapInfo) (c : RamDataspaceInfo)
    (t : StoredRamDataspaceInfo) : Prop :=
  t = .new t.addr c (kcapOf capMap c.cap) t.memoryContent

/-- The session's own fields, and those of its dataspaces. -/
structure CurrentRamSession (capMap : List BadgeKcapInfo) (c : RamSessionComponent)
    (t : StoredRamSessionInfo) : Prop where
  session : t = { StoredRamSessionInfo.new t.addr c (kcapOf capMap c.cap) with
    storedRamdsInfos := t.storedRamdsInfos }
  dataspaces : Currently (·.badge) (·.cap.localName) (CurrentRamDataspace capMap)
    t.storedRamdsInfos c.parentState.ramDataspaces

/-- All but the attached regions. -/
def CurrentRegionMap (capMap : List BadgeKcapInfo) (c : RegionMapComponent)
    (t : StoredRegionMapInfo) : Prop :=
  t = { StoredRegionMapInfo.new t.addr c (kcapOf capMap c.cap) with
    storedAttachedRegionInfos := t.storedAttachedRegionInfos }

/-- All fields. -/
def CurrentNativeCap (capMap : List BadgeKcapInfo) (c : NativeCapabilityInfo)
    (t : StoredNativeCapabilityInfo) : Prop :=
  t = .new t.addr c (kcapOf capMap c.cap)

/-- All fields. -/
def CurrentSignalSource (capMap : List BadgeKcapInfo) (c : SignalSourceInfo)
    (t : StoredSignalSourceInfo) : Prop :=
  t = .new t.addr c (kcapOf capMap c.cap)

/-- All fields. -/
def CurrentSignalContext (capMap : List BadgeKcapInfo) (c : SignalContextInfo)
    (t : StoredSignalContextInfo) : Prop :=
  t = .new t.addr c (kcapOf capMap c.cap)

/-- Field by field, since the record holds its region maps itself. -/
structure CurrentPdSession (capMap : List BadgeKcapInfo) (c : PdSessionComponent)
    (t : StoredPdSessionInfo) : Prop where
  kcap : t.kcap = kcapOf capMap c.cap
  bootstrapped : t.bootstrapped = c.parentState.bootstrapped
  creationArgs : t.creationArgs = c.parentState.creationArgs
  upgradeArgs : t.upgradeArgs = c.parentState.upgradeArgs
  nativeCaps : Currently (·.badge) (·.cap.localName) (CurrentNativeCap capMap)
    t.storedNativeCapInfos c.parentState.nativeCaps
  sources : Currently (·.badge) (·.cap.localName) (CurrentSignalSource capMap)
    t.storedSourceInfos c.parentState.signalSources
  contexts : Currently (·.badge) (·.cap.localName) (CurrentSignalContext capMap)
    t.storedContextInfos c.parentState.signalContexts
  addressSpace : CurrentRegionMap capMap c.addressSpace t.storedAddressSpace
  stackArea : CurrentRegionMap capMap c.stackArea t.storedStackArea
  linkerArea : CurrentRegionMap capMap c.linkerArea t.storedLinkerArea

/-- With the registers, which a new record gets right after its
constructor. -/
def CurrentCpuThread (capMap : List BadgeKcapInfo) (c : CpuThreadComponent)
    (t : StoredCpuThreadInfo) : Prop :=
  t = refreshCpuThread c (.new t.addr c (kcapOf capMap c.cap))

/-- The session's own fields, and those of its threads. -/
structure CurrentCpuSession (capMap : List BadgeKcapInfo) (c : CpuSessionComponent)
    (t : StoredCpuSessionInfo) : Prop where
  session : t = { StoredCpuSessionInfo.new t.addr c (kcapOf capMap c.cap) with
    storedCpuThreadInfos := t.storedCpuThreadInfos }
  threads : Currently (·.badge) (·.cap.localName) (CurrentCpuThread capMap)
    t.storedCpuThreadInfos c.parentState.cpuThreads

/-- The session's own fields, and those of its region maps. -/
structure CurrentRmSession (capMap : List BadgeKcapInfo) (c : RmSessionComponent)
    (t : StoredRmSessionInfo) : Prop where
  session : t = { StoredRmSessionInfo.new t.addr c (kcapOf capMap c.cap) with
    storedRegionMapInfos := t.storedRegionMapInfos }
  regionMaps : Currently (·.badge) (·.cap.localName) (CurrentRegionMap capMap)
    t.storedRegionMapInfos c.parentState.regionMaps

/-- All fields. -/
def CurrentLogSession (capMap : List BadgeKcapInfo) (c : LogSessionComponent)
    (t : StoredLogSessionInfo) : Prop :=
  t = .new t.addr c (kcapOf capMap c.cap)

/-- All fields. -/
def CurrentTimerSession (capMap : List BadgeKcapInfo) (c : TimerSessionComponent)
    (t : StoredTimerSessionInfo) : Prop :=
  t = .new t.addr c (kcapOf capMap c.cap)

/-- **All records are current**, in every list of the target state. -/
structure AllCurrent (capMap : List BadgeKcapInfo) (s : CustomServices) (st : TargetState) :
    Prop where
  ram : Currently (·.badge) (·.cap.localName) (CurrentRamSession capMap) st.ramSessions s.ramRoot
  pd : Currently (·.badge) (·.cap.localName) (CurrentPdSession capMap) st.pdSessions s.pdRoot
  cpu : Currently (·.badge) (·.cap.localName) (CurrentCpuSession capMap) st.cpuSessions s.cpuRoot
  rm : Currently (·.badge) (·.cap.localName) (CurrentRmSession capMap) st.rmSessions
    (sessionInfos s.rmRoot)
  log : Currently (·.badge) (·.cap.localName) (CurrentLogSession capMap) st.logSessions
    (sessionInfos s.logRoot)
  timer : Currently (·.badge) (·.cap.localName) (CurrentTimerSession capMap) st.timerSessions
    (sessionInfos s.timerRoot)

/-! ## What must not change between two calls -/

/-- Objects that are in both lists under one badge are related. -/
def Agree (childBadge : χ → Nat) (rel : χ → χ → Prop) (cs₁ cs₂ : List χ) : Prop :=
  ∀ c₁ ∈ cs₁, ∀ c₂ ∈ cs₂, childBadge c₁ = childBadge c₂ → rel c₁ c₂

section Steady

variable (m₁ m₂ : List BadgeKcapInfo)

/-- Nothing of a RAM dataspace is taken over again. -/
structure SteadyRamDataspace (d₁ d₂ : RamDataspaceInfo) : Prop where
  kcap : kcapOf m₁ d₁.cap = kcapOf m₂ d₂.cap
  bootstrapped : d₁.bootstrapped = d₂.bootstrapped
  size : d₁.size = d₂.size
  cached : d₁.cached = d₂.cached
  managed : d₁.mrmInfo.isSome = d₂.mrmInfo.isSome
  timestamp : d₁.timestamp = d₂.timestamp

/-- Of a RAM session the dataspaces are, its own fields are not. -/
structure SteadyRamSession (c₁ c₂ : RamSessionComponent) : Prop where
  kcap : kcapOf m₁ c₁.cap = kcapOf m₂ c₂.cap
  bootstrapped : c₁.parentState.bootstrapped = c₂.parentState.bootstrapped
  creationArgs : c₁.parentState.creationArgs = c₂.parentState.creationArgs
  upgradeArgs : c₁.parentState.upgradeArgs = c₂.parentState.upgradeArgs
  dataspaces : Agree (·.cap.localName) (SteadyRamDataspace m₁ m₂) c₁.parentState.ramDataspaces
    c₂.parentState.ramDataspaces

/-- Of a region map the signal handler and the regions are taken over
again. -/
structure SteadyRegionMap (c₁ c₂ : RegionMapComponent) : Prop where
  badge : c₁.cap.localName = c₂.cap.localName
  kcap : kcapOf m₁ c₁.cap = kcapOf m₂ c₂.cap
  bootstrapped : c₁.parentState.bootstrapped = c₂.parentState.bootstrapped
  size : c₁.parentState.size = c₂.parentState.size
  dsBadge : c₁.parentState.dsCap.localName = c₂.parentState.dsCap.localName

/-- Nothing of a native capability is taken over again. -/
structure SteadyNativeCap (d₁ d₂ : NativeCapabilityInfo) : Prop where
  kcap : kcapOf m₁ d₁.cap = kcapOf m₂ d₂.cap
  bootstrapped : d₁.bootstrapped = d₂.bootstrapped
  epBadge : d₁.epCap.localName = d₂.epCap.localName

/-- Nothing of a signal source is taken over again. -/
structure SteadySignalSource (d₁ d₂ : SignalSourceInfo) : Prop where
  kcap : kcapOf m₁ d₁.cap = kcapOf m₂ d₂.cap
  bootstrapped : d₁.bootstrapped = d₂.bootstrapped

/-- Nothing of a signal context is taken over again. -/
structure SteadySignalContext (d₁ d₂ : SignalContextInfo) : Prop where
  kcap : kcapOf m₁ d₁.cap = kcapOf m₂ d₂.cap
  bootstrapped : d₁.bootstrapped = d₂.bootstrapped
  source : d₁.ssCap.localName = d₂.ssCap.localName
  imprint : d₁.imprint = d₂.imprint

/-- Of a PD session the lists are taken over again, and what is in its
region maps. -/
structure SteadyPdSession (c₁ c₂ : PdSessionComponent) : Prop where
  kcap : kcapOf m₁ c₁.cap = kcapOf m₂ c₂.cap
  bootstrapped : c₁.parentState.bootstrapped = c₂.parentState.bootstrapped
  creationArgs : c₁.parentState.creationArgs = c₂.parentState.creationArgs
  upgradeArgs : c₁.parentState.upgradeArgs = c₂.parentState.upgradeArgs
  nativeCaps : Agree (·.cap.localName) (SteadyNativeCap m₁ m₂) c₁.parentState.nativeCaps
    c₂.parentState.nativeCaps
  sources : Agree (·.cap.localName) (SteadySignalSource m₁ m₂) c₁.parentState.signalSources
    c₂.parentState.signalSources
  contexts : Agree (·.cap.localName) (SteadySignalContext m₁ m₂) c₁.parentState.signalContexts
    c₂.parentState.signalContexts
  addressSpace : SteadyRegionMap m₁ m₂ c₁.addressSpace c₂.addressSpace
  stackArea : SteadyRegionMap m₁ m₂ c₁.stackArea c₂.stackArea
  linkerArea : SteadyRegionMap m₁ m₂ c₁.linkerArea c₂.linkerArea

/-- Flags, affinity, signal handler and registers of a thread are taken
over again. -/
structure SteadyCpuThread (d₁ d₂ : CpuThreadComponent) : Prop where
  kcap : kcapOf m₁ d₁.cap = kcapOf m₂ d₂.cap
  bootstrapped : d₁.parentState.bootstrapped = d₂.parentState.bootstrapped
  pdSession : d₁.parentState.pdSessionCap.localName = d₂.parentState.pdSessionCap.localName
  name : d₁.parentState.name = d₂.parentState.name
  weight : d₁.parentState.weight = d₂.parentState.weight
  utcb : d₁.parentState.utcb = d₂.parentState.utcb

/-- Of a CPU session the signal handler and the threads are taken over
again. -/
structure SteadyCpuSession (c₁ c₂ : CpuSessionComponent) : Prop where
  kcap : kcapOf m₁ c₁.cap = kcapOf m₂ c₂.cap
  bootstrapped : c₁.parentState.bootstrapped = c₂.parentState.bootstrapped
  creationArgs : c₁.parentState.creationArgs = c₂.parentState.creationArgs
  upgradeArgs : c₁.parentState.upgradeArgs = c₂.parentState.upgradeArgs
  threads : Agree (·.cap.localName) (SteadyCpuThread m₁ m₂) c₁.parentState.cpuThreads
    c₂.parentState.cpuThreads

/-- Of an RM session the region maps are taken over again. -/
structure SteadyRmSession (c₁ c₂ : RmSessionComponent) : Prop where
  kcap : kcapOf m₁ c₁.cap = kcapOf m₂ c₂.cap
  bootstrapped : c₁.parentState.bootstrapped = c₂.parentState.bootstrapped
  creationArgs : c₁.parentState.creationArgs = c₂.parentState.creationArgs
  upgradeArgs : c₁.parentState.upgradeArgs = c₂.parentState.upgradeArgs
  regionMaps : Agree (·.cap.localName) (SteadyRegionMap m₁ m₂) c₁.parentState.regionMaps
    c₂.parentState.regionMaps

/-- Nothing of a LOG session is taken over again. -/
structure SteadyLogSession (c₁ c₂ : LogSessionComponent) : Prop where
  kcap : kcapOf m₁ c₁.cap = kcapOf m₂ c₂.cap
  bootstrapped : c₁.parentState.bootstrapped = c₂.parentState.bootstrapped
  creationArgs : c₁.parentState.creationArgs = c₂.parentState.creationArgs
  upgradeArgs : c₁.parentState.upgradeArgs = c₂.parentState.upgradeArgs

/-- Of a Timer session the signal handler and the timeout are taken over
again. -/
structure SteadyTimerSession (c₁ c₂ : TimerSessionComponent) : Prop where
  kcap : kcapOf m₁ c₁.cap = kcapOf m₂ c₂.cap
  bootstrapped : c₁.parentState.bootstrapped = c₂.parentState.bootstrapped
  creationArgs : c₁.parentState.creationArgs = c₂.parentState.creationArgs
  upgradeArgs : c₁.parentState.upgradeArgs = c₂.parentState.upgradeArgs

/-- **Steady**: whatever keeps its badge from the objects `s₁` to the
objects `s₂` keeps the fields that are stored once and for all, its slot
in the capability map among them. -/
structure Steady (s₁ s₂ : CustomServices) : Prop where
  ram : Agree (·.cap.localName) (SteadyRamSession m₁ m₂) s₁.ramRoot s₂.ramRoot
  pd : Agree (·.cap.localName) (SteadyPdSession m₁ m₂) s₁.pdRoot s₂.pdRoot
  cpu : Agree (·.cap.localName) (SteadyCpuSession m₁ m₂) s₁.cpuRoot s₂.cpuRoot
  rm : Agree (·.cap.localName) (SteadyRmSession m₁ m₂) (sessionInfos s₁.rmRoot)
    (sessionInfos s₂.rmRoot)
  log : Agree (·.cap.localName) (SteadyLogSession m₁ m₂) (sessionInfos s₁.logRoot)
    (sessionInfos s₂.logRoot)
  timer : Agree (·.cap.localName) (SteadyTimerSession m₁ m₂) (sessionInfos s₁.timerRoot)
    (sessionInfos s₂.timerRoot)

end Steady

/-! ## One phase -/

/-- A list stays current if fresh records are and kept ones stay so. -/
theorem Currently.step {badge : τ → Nat} {childBadge : χ → Nat} {fresh : χ → τ → Prop}
    {updated : τ → χ → τ → Prop} {cur₁ cur₂ : χ → τ → Prop} {rel : χ → χ → Prop}
    {old new : List τ} {cs₁ cs₂ : List χ} (hold : Currently badge childBadge cur₁ old cs₁)
    (hmirror : Mirror badge childBadge (Step fresh updated) old new cs₂)
    (hagree : Agree childBadge rel cs₁ cs₂)
    (hfresh : ∀ c ∈ cs₂, ∀ base, fresh c base → ∀ t, updated base c t → cur₂ c t)
    (hkept : ∀ t c₁ c₂, cur₁ c₁ t → rel c₁ c₂ → childBadge c₁ = childBadge c₂ →
      ∀ t', updated t c₂ t' → cur₂ c₂ t') :
    Currently badge childBadge cur₂ new cs₂ := by
  intro t' ht'
  obtain ⟨c₂, hc₂, hkey, base, hbase, hupd⟩ := hmirror.each t' ht'
  refine ⟨c₂, hc₂, hkey, ?_⟩
  cases hfind : old.find? (fun t => badge t == badge t') with
  | none =>
      rw [hfind] at hbase
      exact hfresh c₂ hc₂ base hbase t' hupd
  | some t =>
      rw [hfind] at hbase
      subst hbase
      obtain ⟨c₁, hc₁, hkey₁, hcur⟩ := hold base (List.mem_of_find?_eq_some hfind)
      have hbb : badge base = badge t' := by simpa using List.find?_some hfind
      have he : childBadge c₁ = childBadge c₂ := by rw [hkey₁, hbb, hkey]
      exact hkept base c₁ c₂ hcur (hagree c₁ hc₁ c₂ hc₂ he) he t' hupd

/-- A record that was made as `n₁` says and is overwritten once more,
when `n₂` says the same up to what is overwritten. -/
theorem overwrite {υ : Type} (set : τ → υ → τ) (addr : τ → RecordAddr) (n₁ n₂ : RecordAddr → τ)
    (hset : ∀ t x y, set (set t x) y = set t y) (haddr : ∀ t x, addr (set t x) = addr t)
    (hn : ∀ a y, set (n₁ a) y = set (n₂ a) y) {t t' : τ} {x y : υ}
    (hcur : t = set (n₁ (addr t)) x) (hupd : t' = set t y) : t' = set (n₂ (addr t')) y := by
  have ha : addr t' = addr t := by rw [hupd, haddr]
  calc t' = set (set (n₁ (addr t)) x) y := by rw [← hcur, ← hupd]
    _ = set (n₁ (addr t)) y := hset ..
    _ = set (n₂ (addr t')) y := by rw [ha, hn]

theorem Currently.nil {badge : τ → Nat} {childBadge : χ → Nat} {cur : χ → τ → Prop}
    {cs : List χ} : Currently badge childBadge cur [] cs := by
  intro t ht
  cases ht

/-- Where records and objects belong together one by one, what current
records say is what the objects are. -/
theorem Currently.map_perm {badge : τ → Nat} {childBadge : χ → Nat} {cur : χ → τ → Prop}
    {ts : List τ} {cs : List χ} (h : Currently badge childBadge cur ts cs)
    (hkeys : (ts.map badge).Perm (cs.map childBadge)) (hnd : (ts.map badge).Nodup) {β : Type}
    {f : τ → β} {g : χ → β} (hfg : ∀ c t, cur c t → f t = g c) : (ts.map f).Perm (cs.map g) := by
  have hnd' : (ts.map fun t => (badge t, f t)).Nodup := by
    refine List.Nodup.of_map Prod.fst ?_
    rwa [List.map_map]
  have hsub : (ts.map fun t => (badge t, f t)) ⊆ cs.map fun c => (childBadge c, g c) := by
    intro p hp
    obtain ⟨t, ht, rfl⟩ := List.mem_map.mp hp
    obtain ⟨c, hc, hkey, hcur⟩ := h t ht
    exact List.mem_map.mpr ⟨c, hc, by rw [hkey, hfg c t hcur]⟩
  have hlen := hkeys.length_eq
  rw [List.length_map, List.length_map] at hlen
  have hperm := (List.subperm_of_subset hnd' hsub).perm_of_length_le (by simp [hlen])
  have hsnd := hperm.map Prod.snd
  rwa [List.map_map, List.map_map] at hsnd

theorem Agree.nil {childBadge : χ → Nat} {rel : χ → χ → Prop} {cs : List χ} :
    Agree childBadge rel [] cs := by
  intro c hc
  cases hc

variable (m₁ m₂ : List BadgeKcapInfo)

theorem ramDataspaces_current {old new : List StoredRamDataspaceInfo}
    {cs₁ cs₂ : List RamDataspaceInfo}
    (hold : Currently (·.badge) (·.cap.localName) (CurrentRamDataspace m₁) old cs₁)
    (hmirror : Mirror (·.badge) (·.cap.localName) (Step (FreshRamDataspace m₂) Untouched) old new
      cs₂)
    (hagree : Agree (·.cap.localName) (SteadyRamDataspace m₁ m₂) cs₁ cs₂) :
    Currently (·.badge) (·.cap.localName) (CurrentRamDataspace m₂) new cs₂ := by
  refine hold.step hmirror hagree ?_ ?_
  · rintro c _ base ⟨n, copy, rfl⟩ t rfl
    rfl
  · rintro t c₁ c₂ hcur h hkey t' rfl
    refine hcur.trans ?_
    simp only [StoredRamDataspaceInfo.new, h.kcap, h.bootstrapped, h.size, h.cached, h.managed,
      h.timestamp, hkey]

theorem ramSessions_current {old new : List StoredRamSessionInfo}
    {cs₁ cs₂ : List RamSessionComponent}
    (hold : Currently (·.badge) (·.cap.localName) (CurrentRamSession m₁) old cs₁)
    (hmirror : Mirror (·.badge) (·.cap.localName)
      (Step (FreshRamSession m₂) (UpdatedRamSession m₂)) old new cs₂)
    (hagree : Agree (·.cap.localName) (SteadyRamSession m₁ m₂) cs₁ cs₂) :
    Currently (·.badge) (·.cap.localName) (CurrentRamSession m₂) new cs₂ := by
  -- the session record is overwritten in its list only
  have hsession := fun (m : List BadgeKcapInfo) (c c' : RamSessionComponent) =>
    overwrite (fun (t : StoredRamSessionInfo) x => { t with storedRamdsInfos := x }) (·.addr)
      (fun a => .new a c (kcapOf m c.cap)) (fun a => .new a c' (kcapOf m₂ c'.cap))
      (fun _ _ _ => rfl) (fun _ _ => rfl)
  refine hold.step hmirror hagree ?_ ?_
  · rintro c _ base ⟨n, rfl⟩ t ⟨ht, hsub⟩
    exact ⟨hsession m₂ c c (fun _ _ => rfl) rfl ht,
      ramDataspaces_current m₂ m₂ .nil hsub .nil⟩
  · rintro t c₁ c₂ hcur h hkey t' ⟨ht', hsub⟩
    refine ⟨hsession m₁ c₁ c₂ (fun a y => ?_) hcur.session ht',
      ramDataspaces_current m₁ m₂ hcur.dataspaces hsub h.dataspaces⟩
    simp only [StoredRamSessionInfo.new, h.kcap, h.bootstrapped, h.creationArgs, h.upgradeArgs,
      hkey]

theorem regionMap_current {c₁ c₂ : RegionMapComponent} {t t' : StoredRegionMapInfo}
    (hcur : CurrentRegionMap m₁ c₁ t) (h : SteadyRegionMap m₁ m₂ c₁ c₂)
    (hupd : UpdatedRegionMap t c₂ t') : CurrentRegionMap m₂ c₂ t' := by
  refine overwrite (fun (t : StoredRegionMapInfo) (x : Nat × List StoredAttachedRegionInfo) =>
      { t with
        sighBadge := x.1
        storedAttachedRegionInfos := x.2 }) (·.addr)
    (fun a => .new a c₁ (kcapOf m₁ c₁.cap)) (fun a => .new a c₂ (kcapOf m₂ c₂.cap))
    (fun _ _ _ => rfl) (fun _ _ => rfl) (fun a y => ?_) (x := (_, _)) (y := (_, _)) hcur hupd
  simp only [StoredRegionMapInfo.new, h.kcap, h.bootstrapped, h.size, h.dsBadge, h.badge]

theorem SteadyRegionMap.refl (m : List BadgeKcapInfo) (c : RegionMapComponent) :
    SteadyRegionMap m m c c := ⟨rfl, rfl, rfl, rfl, rfl⟩

theorem regionMaps_current {old new : List StoredRegionMapInfo}
    {cs₁ cs₂ : List RegionMapComponent}
    (hold : Currently (·.badge) (·.cap.localName) (CurrentRegionMap m₁) old cs₁)
    (hmirror : Mirror (·.badge) (·.cap.localName) (Step (FreshRegionMap m₂) UpdatedRegionMap) old
      new cs₂)
    (hagree : Agree (·.cap.localName) (SteadyRegionMap m₁ m₂) cs₁ cs₂) :
    Currently (·.badge) (·.cap.localName) (CurrentRegionMap m₂) new cs₂ := by
  refine hold.step hmirror hagree ?_ ?_
  · rintro c _ base ⟨n, rfl⟩ t ht
    have hnew : CurrentRegionMap m₂ c (.new (.block n) c (kcapOf m₂ c.cap)) := rfl
    exact regionMap_current m₂ m₂ hnew (.refl m₂ c) ht
  · rintro t c₁ c₂ hcur h - t' ht'
    exact regionMap_current m₁ m₂ hcur h ht'

/-- A kind without nested lists, as in `leaf_mirror`. -/
theorem leaf_current {badge : τ → Nat} {cap : χ → Cap} (addr : τ → RecordAddr)
    (mk : χ → RecordAddr → Nat → τ) (refresh : χ → τ → τ) {rel : χ → χ → Prop}
    (haddr : ∀ c a kcap, addr (mk c a kcap) = a) (hkeep : ∀ c t, addr (refresh c t) = addr t)
    (hagain : ∀ c c' t, refresh c' (refresh c t) = refresh c' t)
    (hrel : ∀ c₁ c₂, rel c₁ c₂ → (cap c₁).localName = (cap c₂).localName → ∀ a,
      refresh c₂ (mk c₁ a (kcapOf m₁ (cap c₁))) = refresh c₂ (mk c₂ a (kcapOf m₂ (cap c₂))))
    {old new : List τ} {cs₁ cs₂ : List χ}
    (hold : Currently badge (fun c => (cap c).localName)
      (fun c t => t = refresh c (mk c (addr t) (kcapOf m₁ (cap c)))) old cs₁)
    (hmirror : Mirror badge (fun c => (cap c).localName)
      (Step (Fresh mk (fun c => (cap c).localName) m₂) fun t c t' => t' = refresh c t) old new cs₂)
    (hagree : Agree (fun c => (cap c).localName) rel cs₁ cs₂) :
    Currently badge (fun c => (cap c).localName)
      (fun c t => t = refresh c (mk c (addr t) (kcapOf m₂ (cap c)))) new cs₂ := by
  refine hold.step hmirror hagree ?_ ?_
  · rintro c _ base ⟨n, rfl⟩ t rfl
    rw [hkeep, haddr]
    rfl
  · rintro t c₁ c₂ hcur h hkey t' rfl
    rw [hkeep]
    calc refresh c₂ t
        = refresh c₂ (refresh c₁ (mk c₁ (addr t) (kcapOf m₁ (cap c₁)))) := by rw [← hcur]
      _ = refresh c₂ (mk c₁ (addr t) (kcapOf m₁ (cap c₁))) := hagain ..
      _ = refresh c₂ (mk c₂ (addr t) (kcapOf m₂ (cap c₂))) := hrel c₁ c₂ h hkey _

theorem nativeCaps_current {old new : List StoredNativeCapabilityInfo}
    {cs₁ cs₂ : List NativeCapabilityInfo}
    (hold : Currently (·.badge) (·.cap.localName) (CurrentNativeCap m₁) old cs₁)
    (hmirror : Mirror (·.badge) (·.cap.localName)
      (Step (Fresh (fun c => (StoredNativeCapabilityInfo.new · c ·)) (·.cap.localName) m₂)
        Untouched) old new cs₂)
    (hagree : Agree (·.cap.localName) (SteadyNativeCap m₁ m₂) cs₁ cs₂) :
    Currently (·.badge) (·.cap.localName) (CurrentNativeCap m₂) new cs₂ := by
  refine leaf_current m₁ m₂ (·.addr) _ (fun _ t => t) (fun _ _ _ => rfl) (fun _ _ => rfl)
    (fun _ _ _ => rfl) (fun c₁ c₂ h hkey a => ?_) hold hmirror hagree
  simp only [StoredNativeCapabilityInfo.new, h.kcap, h.bootstrapped, h.epBadge, hkey]

theorem signalSources_current {old new : List StoredSignalSourceInfo}
    {cs₁ cs₂ : List SignalSourceInfo}
    (hold : Currently (·.badge) (·.cap.localName) (CurrentSignalSource m₁) old cs₁)
    (hmirror : Mirror (·.badge) (·.cap.localName)
      (Step (Fresh (fun c => (StoredSignalSourceInfo.new · c ·)) (·.cap.localName) m₂)
        Untouched) old new cs₂)
    (hagree : Agree (·.cap.localName) (SteadySignalSource m₁ m₂) cs₁ cs₂) :
    Currently (·.badge) (·.cap.localName) (CurrentSignalSource m₂) new cs₂ := by
  refine leaf_current m₁ m₂ (·.addr) _ (fun _ t => t) (fun _ _ _ => rfl) (fun _ _ => rfl)
    (fun _ _ _ => rfl) (fun c₁ c₂ h hkey a => ?_) hold hmirror hagree
  simp only [StoredSignalSourceInfo.new, h.kcap, h.bootstrapped, hkey]

theorem signalContexts_current {old new : List StoredSignalContextInfo}
    {cs₁ cs₂ : List SignalContextInfo}
    (hold : Currently (·.badge) (·.cap.localName) (CurrentSignalContext m₁) old cs₁)
    (hmirror : Mirror (·.badge) (·.cap.localName)
      (Step (Fresh (fun c => (StoredSignalContextInfo.new · c ·)) (·.cap.localName) m₂)
        Untouched) old new cs₂)
    (hagree : Agree (·.cap.localName) (SteadySignalContext m₁ m₂) cs₁ cs₂) :
    Currently (·.badge) (·.cap.localName) (CurrentSignalContext m₂) new cs₂ := by
  refine leaf_current m₁ m₂ (·.addr) _ (fun _ t => t) (fun _ _ _ => rfl) (fun _ _ => rfl)
    (fun _ _ _ => rfl) (fun c₁ c₂ h hkey a => ?_) hold hmirror hagree
  simp only [StoredSignalContextInfo.new, h.kcap, h.bootstrapped, h.source, h.imprint, hkey]

/-- A PD session record, fresh ones included: those hold no lists and
come from the session itself. -/
theorem pdSession_current {c₁ c₂ : PdSessionComponent} {t t' : StoredPdSessionInfo}
    (hcur : CurrentPdSession m₁ c₁ t) (h : SteadyPdSession m₁ m₂ c₁ c₂)
    (hupd : UpdatedPdSession m₂ t c₂ t') : CurrentPdSession m₂ c₂ t' where
  kcap := by
    rw [← h.kcap, ← hcur.kcap]
    exact congrArg (·.kcap) hupd.session
  bootstrapped := by
    rw [← h.bootstrapped, ← hcur.bootstrapped]
    exact congrArg (·.bootstrapped) hupd.session
  creationArgs := by
    rw [← h.creationArgs, ← hcur.creationArgs]
    exact congrArg (·.creationArgs) hupd.session
  upgradeArgs := by
    rw [← h.upgradeArgs, ← hcur.upgradeArgs]
    exact congrArg (·.upgradeArgs) hupd.session
  nativeCaps := nativeCaps_current m₁ m₂ hcur.nativeCaps hupd.nativeCaps h.nativeCaps
  sources := signalSources_current m₁ m₂ hcur.sources hupd.sources h.sources
  contexts := signalContexts_current m₁ m₂ hcur.contexts hupd.contexts h.contexts
  addressSpace := regionMap_current m₁ m₂ hcur.addressSpace h.addressSpace hupd.addressSpace
  stackArea := regionMap_current m₁ m₂ hcur.stackArea h.stackArea hupd.stackArea
  linkerArea := regionMap_current m₁ m₂ hcur.linkerArea h.linkerArea hupd.linkerArea

theorem pdSessions_current {old new : List StoredPdSessionInfo}
    {cs₁ cs₂ : List PdSessionComponent}
    (hold : Currently (·.badge) (·.cap.localName) (CurrentPdSession m₁) old cs₁)
    (hmirror : Mirror (·.badge) (·.cap.localName)
      (Step (FreshPdSession m₂) (UpdatedPdSession m₂)) old new cs₂)
    (hagree : Agree (·.cap.localName) (SteadyPdSession m₁ m₂) cs₁ cs₂) :
    Currently (·.badge) (·.cap.localName) (CurrentPdSession m₂) new cs₂ := by
  refine hold.step hmirror hagree ?_ ?_
  · rintro c _ base ⟨n, rfl⟩ t ht
    -- a fresh record is current for the session without its lists
    let bare : PdSessionComponent :=
      { c with
        parentState :=
          { c.parentState with signalSources := [], signalContexts := [], nativeCaps := [] } }
    have hbare : CurrentPdSession m₂ bare
        (.new n c (kcapOf m₂ c.cap) (kcapOf m₂ c.addressSpace.cap) (kcapOf m₂ c.stackArea.cap)
          (kcapOf m₂ c.linkerArea.cap)) :=
      ⟨rfl, rfl, rfl, rfl, .nil, .nil, .nil, rfl, rfl, rfl⟩
    exact pdSession_current m₂ m₂ hbare
      ⟨rfl, rfl, rfl, rfl, .nil, .nil, .nil, .refl .., .refl .., .refl ..⟩ ht
  · rintro t c₁ c₂ hcur h - t' ht'
    exact pdSession_current m₁ m₂ hcur h ht'

theorem cpuThreads_current {old new : List StoredCpuThreadInfo}
    {cs₁ cs₂ : List CpuThreadComponent}
    (hold : Currently (·.badge) (·.cap.localName) (CurrentCpuThread m₁) old cs₁)
    (hmirror : Mirror (·.badge) (·.cap.localName) (Step (FreshCpuThread m₂) UpdatedCpuThread) old
      new cs₂)
    (hagree : Agree (·.cap.localName) (SteadyCpuThread m₁ m₂) cs₁ cs₂) :
    Currently (·.badge) (·.cap.localName) (CurrentCpuThread m₂) new cs₂ := by
  refine leaf_current m₁ m₂ (·.addr) _ refreshCpuThread (fun _ _ _ => rfl) (fun _ _ => rfl)
    (fun _ _ _ => rfl) (fun c₁ c₂ h hkey a => ?_) hold hmirror hagree
  simp only [StoredCpuThreadInfo.new, refreshCpuThread, h.kcap, h.bootstrapped, h.pdSession,
    h.name, h.weight, h.utcb, hkey]

theorem cpuSessions_current {old new : List StoredCpuSessionInfo}
    {cs₁ cs₂ : List CpuSessionComponent}
    (hold : Currently (·.badge) (·.cap.localName) (CurrentCpuSession m₁) old cs₁)
    (hmirror : Mirror (·.badge) (·.cap.localName)
      (Step (FreshCpuSession m₂) (UpdatedCpuSession m₂)) old new cs₂)
    (hagree : Agree (·.cap.localName) (SteadyCpuSession m₁ m₂) cs₁ cs₂) :
    Currently (·.badge) (·.cap.localName) (CurrentCpuSession m₂) new cs₂ := by
  have hsession := fun (m : List BadgeKcapInfo) (c c' : CpuSessionComponent) =>
    overwrite (fun (t : StoredCpuSessionInfo) (x : Nat × List StoredCpuThreadInfo) =>
        { t with
          sighBadge := x.1
          storedCpuThreadInfos := x.2 }) (·.addr)
      (fun a => .new a c (kcapOf m c.cap)) (fun a => .new a c' (kcapOf m₂ c'.cap))
      (fun _ _ _ => rfl) (fun _ _ => rfl)
  refine hold.step hmirror hagree ?_ ?_
  · rintro c _ base ⟨n, rfl⟩ t ⟨ht, hsub⟩
    exact ⟨hsession m₂ c c (fun _ _ => rfl) (x := (_, _)) (y := (_, _)) rfl ht,
      cpuThreads_current m₂ m₂ .nil hsub .nil⟩
  · rintro t c₁ c₂ hcur h hkey t' ⟨ht', hsub⟩
    refine ⟨hsession m₁ c₁ c₂ (fun a y => ?_) (x := (_, _)) (y := (_, _)) hcur.session ht',
      cpuThreads_current m₁ m₂ hcur.threads hsub h.threads⟩
    simp only [StoredCpuSessionInfo.new, h.kcap, h.bootstrapped, h.creationArgs, h.upgradeArgs,
      hkey]

theorem rmSessions_current {old new : List StoredRmSessionInfo}
    {cs₁ cs₂ : List RmSessionComponent}
    (hold : Currently (·.badge) (·.cap.localName) (CurrentRmSession m₁) old cs₁)
    (hmirror : Mirror (·.badge) (·.cap.localName)
      (Step (FreshRmSession m₂) (UpdatedRmSession m₂)) old new cs₂)
    (hagree : Agree (·.cap.localName) (SteadyRmSession m₁ m₂) cs₁ cs₂) :
    Currently (·.badge) (·.cap.localName) (CurrentRmSession m₂) new cs₂ := by
  have hsession := fun (m : List BadgeKcapInfo) (c c' : RmSessionComponent) =>
    overwrite (fun (t : StoredRmSessionInfo) x => { t with storedRegionMapInfos := x }) (·.addr)
      (fun a => .new a c (kcapOf m c.cap)) (fun a => .new a c' (kcapOf m₂ c'.cap))
      (fun _ _ _ => rfl) (fun _ _ => rfl)
  refine hold.step hmirror hagree ?_ ?_
  · rintro c _ base ⟨n, rfl⟩ t ⟨ht, hsub⟩
    exact ⟨hsession m₂ c c (fun _ _ => rfl) rfl ht, regionMaps_current m₂ m₂ .nil hsub .nil⟩
  · rintro t c₁ c₂ hcur h hkey t' ⟨ht', hsub⟩
    refine ⟨hsession m₁ c₁ c₂ (fun a y => ?_) hcur.session ht',
      regionMaps_current m₁ m₂ hcur.regionMaps hsub h.regionMaps⟩
    simp only [StoredRmSessionInfo.new, h.kcap, h.bootstrapped, h.creationArgs, h.upgradeArgs,
      hkey]

theorem logSessions_current {old new : List StoredLogSessionInfo}
    {cs₁ cs₂ : List LogSessionComponent}
    (hold : Currently (·.badge) (·.cap.localName) (CurrentLogSession m₁) old cs₁)
    (hmirror : Mirror (·.badge) (·.cap.localName) (Step (FreshLogSession m₂) Untouched) old new
      cs₂)
    (hagree : Agree (·.cap.localName) (SteadyLogSession m₁ m₂) cs₁ cs₂) :
    Currently (·.badge) (·.cap.localName) (CurrentLogSession m₂) new cs₂ := by
  refine leaf_current m₁ m₂ (·.addr) _ (fun _ t => t) (fun _ _ _ => rfl) (fun _ _ => rfl)
    (fun _ _ _ => rfl) (fun c₁ c₂ h hkey a => ?_) hold hmirror hagree
  simp only [StoredLogSessionInfo.new, h.kcap, h.bootstrapped, h.creationArgs, h.upgradeArgs,
    hkey]

theorem timerSessions_current {old new : List StoredTimerSessionInfo}
    {cs₁ cs₂ : List TimerSessionComponent}
    (hold : Currently (·.badge) (·.cap.localName) (CurrentTimerSession m₁) old cs₁)
    (hmirror : Mirror (·.badge) (·.cap.localName) (Step (FreshTimerSession m₂) UpdatedTimerSession)
      old new cs₂)
    (hagree : Agree (·.cap.localName) (SteadyTimerSession m₁ m₂) cs₁ cs₂) :
    Currently (·.badge) (·.cap.localName) (CurrentTimerSession m₂) new cs₂ := by
  refine leaf_current m₁ m₂ (·.addr) _ refreshTimerSession (fun _ _ _ => rfl) (fun _ _ => rfl)
    (fun _ _ _ => rfl) (fun c₁ c₂ h hkey a => ?_) hold hmirror hagree
  simp only [StoredTimerSessionInfo.new, refreshTimerSession, h.kcap, h.bootstrapped,
    h.creationArgs, h.upgradeArgs, hkey]

/-- **One phase**: records that were current stay current if the child
is steady. -/
theorem PrepareStep.current {old new : TargetState} {s₁ s₂ : CustomServices}
    (hold : AllCurrent m₁ s₁ old) (hstep : PrepareStep m₂ old new s₂)
    (hsteady : Steady m₁ m₂ s₁ s₂) : AllCurrent m₂ s₂ new where
  ram := ramSessions_current m₁ m₂ hold.ram hstep.ram hsteady.ram
  pd := pdSessions_current m₁ m₂ hold.pd hstep.pd hsteady.pd
  cpu := cpuSessions_current m₁ m₂ hold.cpu hstep.cpu hsteady.cpu
  rm := rmSessions_current m₁ m₂ hold.rm hstep.rm hsteady.rm
  log := logSessions_current m₁ m₂ hold.log hstep.log hsteady.log
  timer := timerSessions_current m₁ m₂ hold.timer hstep.timer hsteady.timer

end Rtcr.Checkpointer
