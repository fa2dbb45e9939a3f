import Rtcr.Checkpointer.Current
import Rtcr.Checkpointer.Exact
import Rtcr.Target.Entries

/-!
# Target.StoredEntries — the entries of a checkpoint

A record carries the badge of its object, the mark and the fields that
are set once, so it has an entry just as the object does. A prepare phase
between records and objects of which those with one badge have one entry
makes the entries of the records those of the objects
(`PrepareStep.entries`).
-/

namespace Rtcr

open Checkpointer Fresh Reconcile

/-! ## Entries and lists -/

section Lists

variable {α β : Type}

theorem mem_entriesOf {entry : α → Entry} {l : List α} {x : α} (hx : x ∈ l) :
    entry x ∈ entriesOf entry l := Multiset.mem_coe.mpr (List.mem_map_of_mem hx)

theorem le_total {w : α → Multiset Entry} {l : List α} {x : α} (hx : x ∈ l) : w x ≤ total w l := by
  induction l with
  | nil => cases hx
  | cons y l ih =>
      rcases List.mem_cons.mp hx with rfl | hx
      · exact Multiset.le_add_right _ _
      · exact (ih hx).trans (Multiset.le_add_left _ _)

/-- Distinct entries have distinct badges, list by list. -/
theorem nodup_of_entriesOf {entry : α → Entry} {c : α → Cap} {l : List α} {n : Nat}
    (hentry : ∀ x, (entry x).badge = (c x).localName)
    (h : Numbered Entry.badge n (entriesOf entry l)) : (l.map fun x => (c x).localName).Nodup := by
  have hnd := h.nodup
  unfold entriesOf at hnd
  rw [Multiset.map_coe, Multiset.coe_nodup, List.map_map] at hnd
  have hsame : Entry.badge ∘ entry = fun x => (c x).localName := funext hentry
  rwa [hsame] at hnd

/-- Sessions whose entries are distinct have distinct badges. -/
theorem nodup_of_total {w : α → Multiset Entry} {c : α → Cap} {l : List α} {n : Nat}
    (hw : ∀ x, ∃ e ∈ w x, e.badge = (c x).localName)
    (h : Numbered Entry.badge n (total w l)) : (l.map fun x => (c x).localName).Nodup := by
  induction l with
  | nil => exact List.nodup_nil
  | cons x l ih =>
      rw [total_cons] at h
      have hnd := h.nodup
      rw [Multiset.map_add, Multiset.nodup_add] at hnd
      refine List.nodup_cons.mpr ⟨fun hmem => ?_, ih (h.of_le (Multiset.le_add_left _ _))⟩
      obtain ⟨y, hy, hname⟩ := List.mem_map.mp hmem
      dsimp only at hname
      obtain ⟨e, he, hebadge⟩ := hw x
      obtain ⟨e', he', hebadge'⟩ := hw y
      refine Multiset.disjoint_left.mp hnd.2.2 (Multiset.mem_map_of_mem _ he) ?_
      rw [hebadge, ← hname, ← hebadge']
      exact Multiset.mem_map_of_mem _ (Multiset.mem_of_le (le_total hy) he')

/-- What the map `f` keeps of each element, it keeps of the whole. -/
theorem total_of_map_eq {w : α → Multiset Entry} {f : α → α} (hf : ∀ x, w (f x) = w x)
    {l l' : List α} (h : l'.map f = l.map f) : total w l' = total w l := by
  have hw : ∀ l : List α, l.map w = (l.map f).map w := fun l => by
    rw [List.map_map]
    exact List.map_congr_left fun x _ => (hf x).symm
  unfold total
  rw [hw l', hw l, h]

end Lists

section Objects

variable {s s' : CustomServices} {n : Nat}

theorem CustomServices.pd_le (s : CustomServices) :
    total PdSessionComponent.entries s.pdRoot ≤ s.entries := Multiset.le_add_right _ _

theorem CustomServices.cpu_le (s : CustomServices) :
    total CpuSessionComponent.entries s.cpuRoot ≤ s.entries :=
  (Multiset.le_add_right _ _).trans (Multiset.le_add_left _ _)

theorem CustomServices.ram_le (s : CustomServices) :
    total RamSessionComponent.entries s.ramRoot ≤ s.entries :=
  ((Multiset.le_add_right _ _).trans (Multiset.le_add_left _ _)).trans (Multiset.le_add_left _ _)

theorem CustomServices.rm_le (s : CustomServices) :
    total RmSessionComponent.entries (sessionInfos s.rmRoot) ≤ s.entries :=
  (((Multiset.le_add_right _ _).trans (Multiset.le_add_left _ _)).trans
    (Multiset.le_add_left _ _)).trans (Multiset.le_add_left _ _)

theorem CustomServices.log_le (s : CustomServices) :
    total LogSessionComponent.entries (sessionInfos s.logRoot) ≤ s.entries :=
  ((((Multiset.le_add_right _ _).trans (Multiset.le_add_left _ _)).trans
    (Multiset.le_add_left _ _)).trans (Multiset.le_add_left _ _)).trans (Multiset.le_add_left _ _)

theorem CustomServices.timer_le (s : CustomServices) :
    total TimerSessionComponent.entries (sessionInfos s.timerRoot) ≤ s.entries :=
  ((((Multiset.le_add_left _ _).trans (Multiset.le_add_left _ _)).trans
    (Multiset.le_add_left _ _)).trans (Multiset.le_add_left _ _)).trans (Multiset.le_add_left _ _)

/-- **Distinct entries are distinct objects**, in every list. -/
theorem distinctObjects_of_entries (h : Numbered Entry.badge n s.entries) : DistinctObjects s where
  ram := nodup_of_total (c := fun c : RamSessionComponent => c.cap)
    (fun c => ⟨_, Multiset.mem_add.mpr (.inl (Multiset.mem_singleton_self _)), rfl⟩)
    (h.of_le s.ram_le)
  ramDataspaces c hc := nodup_of_entriesOf (c := fun d : RamDataspaceInfo => d.cap)
    (fun _ => rfl)
    (h.of_le ((Multiset.le_add_left _ _).trans ((le_total hc).trans s.ram_le)))
  pd := nodup_of_total (c := fun c : PdSessionComponent => c.cap)
    (fun c => ⟨c.entry, Multiset.mem_add.mpr (.inl (Multiset.mem_singleton_self _)), rfl⟩)
    (h.of_le s.pd_le)
  pdLists c hc := by
    have hlists := h.of_le ((Multiset.le_add_left _ _).trans ((le_total hc).trans s.pd_le))
    have hrest := hlists.of_le (Multiset.le_add_left _ _)
    exact
      { nativeCaps := nodup_of_entriesOf (c := fun d : NativeCapabilityInfo => d.cap)
          (fun _ => rfl) (hrest.of_le (Multiset.le_add_right _ _))
        sources := nodup_of_entriesOf (c := fun d : SignalSourceInfo => d.cap) (fun _ => rfl)
          (hrest.of_le ((Multiset.le_add_right _ _).trans (Multiset.le_add_left _ _)))
        contexts := nodup_of_entriesOf (c := fun d : SignalContextInfo => d.cap) (fun _ => rfl)
          (hrest.of_le ((Multiset.le_add_left _ _).trans (Multiset.le_add_left _ _)))
        areas := nodup_of_entriesOf (c := fun rm : RegionMapComponent => rm.cap) (fun _ => rfl)
          (hlists.of_le (Multiset.le_add_right _ _)) }
  cpu := nodup_of_total (c := fun c : CpuSessionComponent => c.cap)
    (fun c => ⟨_, Multiset.mem_add.mpr (.inl (Multiset.mem_singleton_self _)), rfl⟩)
    (h.of_le s.cpu_le)
  threads c hc := nodup_of_entriesOf (c := fun d : CpuThreadComponent => d.cap) (fun _ => rfl)
    (h.of_le ((Multiset.le_add_left _ _).trans ((le_total hc).trans s.cpu_le)))
  rm := nodup_of_total (c := fun c : RmSessionComponent => c.cap)
    (fun c => ⟨_, Multiset.mem_add.mpr (.inl (Multiset.mem_singleton_self _)), rfl⟩)
    (h.of_le s.rm_le)
  regionMaps c hc := nodup_of_entriesOf (c := fun d : RegionMapComponent => d.cap)
    (fun _ => rfl) (h.of_le ((Multiset.le_add_left _ _).trans ((le_total hc).trans s.rm_le)))
  log := nodup_of_total (c := fun c : LogSessionComponent => c.cap)
    (fun c => ⟨_, Multiset.mem_singleton_self _, rfl⟩) (h.of_le s.log_le)
  timer := nodup_of_total (c := fun c : TimerSessionComponent => c.cap)
    (fun c => ⟨_, Multiset.mem_singleton_self _, rfl⟩) (h.of_le s.timer_le)

end Objects

/-! ## The entries of records -/

/-- The record of a region map, without signal handler and regions. -/
def StoredRegionMapInfo.entry (t : StoredRegionMapInfo) : Entry where
  badge := t.badge
  bootstrapped := t.bootstrapped
  profile := .regionMap t.size t.dsBadge

/-- The record of a thread, without what changes while it runs. -/
def StoredCpuThreadInfo.entry (t : StoredCpuThreadInfo) : Entry where
  badge := t.badge
  bootstrapped := t.bootstrapped
  profile := .cpuThread t.pdSessionBadge t.name t.weight t.utcb

/-- The record of a RAM dataspace, without its memory content. -/
def StoredRamDataspaceInfo.entry (t : StoredRamDataspaceInfo) : Entry where
  badge := t.badge
  bootstrapped := t.bootstrapped
  profile := .ramDataspace t.size t.cached t.managed t.timestamp

/-- The record of a native capability. -/
def StoredNativeCapabilityInfo.entry (t : StoredNativeCapabilityInfo) : Entry where
  badge := t.badge
  bootstrapped := t.bootstrapped
  profile := .nativeCapability t.epBadge

/-- The record of a signal source. -/
def StoredSignalSourceInfo.entry (t : StoredSignalSourceInfo) : Entry where
  badge := t.badge
  bootstrapped := t.bootstrapped
  profile := .signalSource

/-- The record of a signal context. -/
def StoredSignalContextInfo.entry (t : StoredSignalContextInfo) : Entry where
  badge := t.badge
  bootstrapped := t.bootstrapped
  profile := .signalContext t.signalSourceBadge t.imprint

/-- The entry of a session record. -/
def StoredSessionInfo.entry (service : CustomService) (areas : List Nat) (t : StoredSessionInfo) :
    Entry where
  badge := t.badge
  bootstrapped := t.bootstrapped
  profile := .session service t.creationArgs areas

/-- The record of a PD session, with the badges of its region maps. -/
def StoredPdSessionInfo.entry (t : StoredPdSessionInfo) : Entry :=
  t.toStoredSessionInfo.entry .pd ((storedAreas t).map (·.badge))

/-- The entries of the lists in a PD session record. -/
def StoredPdSessionInfo.lists (t : StoredPdSessionInfo) : Multiset Entry :=
  entriesOf StoredRegionMapInfo.entry (storedAreas t) +
    (entriesOf StoredNativeCapabilityInfo.entry t.storedNativeCapInfos +
      (entriesOf StoredSignalSourceInfo.entry t.storedSourceInfos +
        entriesOf StoredSignalContextInfo.entry t.storedContextInfos))

/-- The record and its lists. -/
def StoredPdSessionInfo.entries (t : StoredPdSessionInfo) : Multiset Entry := {t.entry} + t.lists

/-- The record and those of its threads. -/
def StoredCpuSessionInfo.entries (t : StoredCpuSessionInfo) : Multiset Entry :=
  {t.toStoredSessionInfo.entry .cpu []} +
    entriesOf StoredCpuThreadInfo.entry t.storedCpuThreadInfos

/-- The record and those of its dataspaces. -/
def StoredRamSessionInfo.entries (t : StoredRamSessionInfo) : Multiset Entry :=
  {t.toStoredSessionInfo.entry .ram []} +
    entriesOf StoredRamDataspaceInfo.entry t.storedRamdsInfos

/-- The record and those of its region maps. -/
def StoredRmSessionInfo.entries (t : StoredRmSessionInfo) : Multiset Entry :=
  {t.toStoredSessionInfo.entry .rm []} +
    entriesOf StoredRegionMapInfo.entry t.storedRegionMapInfos

/-- The record alone. -/
def StoredLogSessionInfo.entries (t : StoredLogSessionInfo) : Multiset Entry :=
  {t.toStoredSessionInfo.entry .log []}

/-- The record alone. -/
def StoredTimerSessionInfo.entries (t : StoredTimerSessionInfo) : Multiset Entry :=
  {t.toStoredSessionInfo.entry .timer []}

/-- The entries of all records. -/
def TargetState.entries (st : TargetState) : Multiset Entry :=
  total StoredPdSessionInfo.entries st.pdSessions +
    (total StoredCpuSessionInfo.entries st.cpuSessions +
      (total StoredRamSessionInfo.entries st.ramSessions +
        (total StoredRmSessionInfo.entries st.rmSessions +
          (total StoredLogSessionInfo.entries st.logSessions +
            total StoredTimerSessionInfo.entries st.timerSessions))))

/-- A record and an object with one badge have one entry. -/
def Matching (records objects : Multiset Entry) : Prop :=
  ∀ t ∈ records, ∀ e ∈ objects, e.badge = t.badge → e = t

theorem Matching.mono {records records' objects objects' : Multiset Entry}
    (h : Matching records objects) (hrecords : records' ≤ records) (hobjects : objects' ≤ objects) :
    Matching records' objects' := fun t ht e he =>
  h t (Multiset.mem_of_le hrecords ht) e (Multiset.mem_of_le hobjects he)

theorem Matching.zero (objects : Multiset Entry) : Matching 0 objects :=
  fun t ht => absurd ht (Multiset.notMem_zero t)

/-- Objects with badges of their own match themselves. -/
theorem Matching.refl {objects : Multiset Entry} {n : Nat} (h : Numbered Entry.badge n objects) :
    Matching objects objects := fun _ ht _ he hkey =>
  Multiset.inj_on_of_nodup_map h.nodup _ he _ ht hkey

/-! ## One list -/

section Rule

variable {τ χ : Type} {key : τ → Nat} {ckey : χ → Nat} {fresh : χ → τ → Prop}
  {updated : τ → χ → τ → Prop} {olds news : List τ} {cs : List χ}

/-- What a mirror says of each record and its object, it says of all. -/
theorem mirror_total {rel : Option τ → τ → χ → Prop} {w : τ → Multiset Entry}
    {w' : χ → Multiset Entry} (h : Mirror key ckey rel olds news cs)
    (hw : ∀ t, ∀ c ∈ cs, ckey c = key t → rel (olds.find? fun u => key u == key t) t c →
      w t = w' c) : total w news = total w' cs := by
  have hcur : Currently key ckey (fun c t => w t = w' c) news cs := fun t ht => by
    obtain ⟨c, hc, hkey, hrel⟩ := h.each t ht
    exact ⟨c, hc, hkey, hw t c hc hkey hrel⟩
  exact (hcur.map_perm h.keys h.nodup fun _ _ he => he).sum_eq

/-- A list of records, each with lists of its own. -/
theorem mirror_sessions {entry : τ → Entry} {entry' : χ → Entry} {sub : τ → Multiset Entry}
    {sub' : χ → Multiset Entry} (h : Mirror key ckey (Step fresh updated) olds news cs)
    (hkey : ∀ t, (entry t).badge = key t) (hckey : ∀ c, (entry' c).badge = ckey c)
    (hfresh : ∀ c ∈ cs, ∀ t, fresh c t → entry t = entry' c ∧ Matching (sub t) (sub' c))
    (hupd : ∀ base c t, entry base = entry' c → Matching (sub base) (sub' c) →
      updated base c t → entry t = entry base ∧ sub t = sub' c)
    (hold : Matching (total (fun t => {entry t} + sub t) olds)
      (total (fun c => {entry' c} + sub' c) cs)) :
    total (fun t => {entry t} + sub t) news = total (fun c => {entry' c} + sub' c) cs := by
  refine mirror_total h fun t c hc hname ⟨base, hbase, hu⟩ => ?_
  have hboth : entry base = entry' c ∧ Matching (sub base) (sub' c) := by
    cases hfind : olds.find? fun u => key u == key t with
    | none =>
        rw [hfind] at hbase
        exact hfresh c hc base hbase
    | some u =>
        rw [hfind] at hbase
        obtain rfl : base = u := hbase
        have hsame : key base = key t := by simpa using List.find?_some hfind
        have hpair := hold.mono (le_total (List.mem_of_find?_eq_some hfind)) (le_total hc)
        refine ⟨(hpair _ (Multiset.mem_add.mpr (.inl (Multiset.mem_singleton_self _))) _
          (Multiset.mem_add.mpr (.inl (Multiset.mem_singleton_self _))) ?_).symm,
          hpair.mono (Multiset.le_add_left _ _) (Multiset.le_add_left _ _)⟩
        rw [hkey, hckey, hname, hsame]
  obtain ⟨hentry, hsub⟩ := hupd base c t hboth.1 hboth.2 hu
  rw [hentry, hboth.1, hsub]

/-- A list of records without lists of their own. -/
theorem mirror_entriesOf {entry : τ → Entry} {entry' : χ → Entry}
    (h : Mirror key ckey (Step fresh updated) olds news cs)
    (hkey : ∀ t, (entry t).badge = key t) (hckey : ∀ c, (entry' c).badge = ckey c)
    (hfresh : ∀ c t, fresh c t → entry t = entry' c)
    (hupd : ∀ t c t', updated t c t' → entry t' = entry t)
    (hold : Matching (entriesOf entry olds) (entriesOf entry' cs)) :
    entriesOf entry news = entriesOf entry' cs := by
  have hlist : ∀ {α : Type} (f : α → Entry) (l : List α),
      total (fun x => {f x} + (0 : Multiset Entry)) l = entriesOf f l := fun f l => by
    simp only [add_zero]
    exact total_singleton f l
  rw [← hlist, ← hlist] at hold ⊢
  exact mirror_sessions h hkey hckey (fun c _ t ht => ⟨hfresh c t ht, .zero 0⟩)
    (fun base c t _ _ hu => ⟨hupd base c t hu, rfl⟩) hold

end Rule

/-! ## The whole phase -/

section Sessions

variable {capMap : List BadgeKcapInfo}

theorem updatedRegionMap_entry {base new : StoredRegionMapInfo} {c : RegionMapComponent}
    (h : UpdatedRegionMap base c new) : new.entry = base.entry := by
  rw [h]
  rfl

theorem ramSessions_entries {olds news : List StoredRamSessionInfo} {cs : List RamSessionComponent}
    (h : Mirror (·.badge) (·.cap.localName)
      (Step (FreshRamSession capMap) (UpdatedRamSession capMap)) olds news cs)
    (hold : Matching (total StoredRamSessionInfo.entries olds)
      (total RamSessionComponent.entries cs)) :
    total StoredRamSessionInfo.entries news = total RamSessionComponent.entries cs := by
  refine mirror_sessions h (fun _ => rfl) (fun _ => rfl) ?_ ?_ hold
  · rintro c - t ⟨n, rfl⟩
    exact ⟨rfl, .zero _⟩
  · intro base c t _ hsub hu
    refine ⟨by rw [hu.1], mirror_entriesOf hu.2 (fun _ => rfl) (fun _ => rfl) ?_ ?_ hsub⟩
    · rintro d u ⟨n, copy, rfl⟩
      rfl
    · rintro u d u' rfl
      rfl

theorem cpuSessions_entries {olds news : List StoredCpuSessionInfo} {cs : List CpuSessionComponent}
    (h : Mirror (·.badge) (·.cap.localName)
      (Step (FreshCpuSession capMap) (UpdatedCpuSession capMap)) olds news cs)
    (hold : Matching (total StoredCpuSessionInfo.entries olds)
      (total CpuSessionComponent.entries cs)) :
    total StoredCpuSessionInfo.entries news = total CpuSessionComponent.entries cs := by
  refine mirror_sessions h (fun _ => rfl) (fun _ => rfl) ?_ ?_ hold
  · rintro c - t ⟨n, rfl⟩
    exact ⟨rfl, .zero _⟩
  · intro base c t _ hsub hu
    refine ⟨by rw [hu.session],
      mirror_entriesOf hu.threads (fun _ => rfl) (fun _ => rfl) ?_ ?_ hsub⟩
    · rintro d u ⟨n, rfl⟩
      rfl
    · rintro u d u' rfl
      rfl

theorem rmSessions_entries {olds news : List StoredRmSessionInfo} {cs : List RmSessionComponent}
    (h : Mirror (·.badge) (·.cap.localName)
      (Step (FreshRmSession capMap) (UpdatedRmSession capMap)) olds news cs)
    (hold : Matching (total StoredRmSessionInfo.entries olds)
      (total RmSessionComponent.entries cs)) :
    total StoredRmSessionInfo.entries news = total RmSessionComponent.entries cs := by
  refine mirror_sessions h (fun _ => rfl) (fun _ => rfl) ?_ ?_ hold
  · rintro c - t ⟨n, rfl⟩
    exact ⟨rfl, .zero _⟩
  · intro base c t _ hsub hu
    refine ⟨by rw [hu.session],
      mirror_entriesOf hu.regionMaps (fun _ => rfl) (fun _ => rfl) ?_ ?_ hsub⟩
    · rintro d u ⟨n, rfl⟩
      rfl
    · exact fun u d u' hu => updatedRegionMap_entry hu

/-- The lists of a PD session. -/
def PdSessionComponent.lists (pd : PdSessionComponent) : Multiset Entry :=
  entriesOf RegionMapComponent.entry pd.areas +
    (entriesOf NativeCapabilityInfo.entry pd.parentState.nativeCaps +
      (entriesOf SignalSourceInfo.entry pd.parentState.signalSources +
        entriesOf SignalContextInfo.entry pd.parentState.signalContexts))

/-- The region maps of a PD session record after the phase. -/
theorem Checkpointer.UpdatedPdSession.areas_entries {base t : StoredPdSessionInfo} {c : PdSessionComponent}
    (h : UpdatedPdSession capMap base c t) (hsub : Matching base.lists c.lists) :
    (storedAreas t).map (·.entry) = c.areas.map (·.entry) := by
  have hareas := h.areas
  unfold SameAreas at hareas
  have hmem : ∀ u ∈ storedAreas base, ∀ rm ∈ c.areas, u.badge = rm.cap.localName →
      u.entry = rm.entry := fun u hu rm hrm hkey =>
    (hsub _ (Multiset.mem_add.mpr (.inl (mem_entriesOf hu))) _
      (Multiset.mem_add.mpr (.inl (mem_entriesOf hrm))) hkey.symm).symm
  simp only [storedAreas, Checkpointer.areas, List.map_cons, List.map_nil, List.cons.injEq] at hareas
  simp only [storedAreas, PdSessionComponent.areas, List.map_cons, List.map_nil,
    updatedRegionMap_entry h.addressSpace,
    updatedRegionMap_entry h.stackArea, updatedRegionMap_entry h.linkerArea]
  rw [hmem base.storedAddressSpace (by simp [storedAreas]) c.addressSpace
      (by simp [PdSessionComponent.areas]) hareas.1,
    hmem base.storedStackArea (by simp [storedAreas]) c.stackArea
      (by simp [PdSessionComponent.areas]) hareas.2.1,
    hmem base.storedLinkerArea (by simp [storedAreas]) c.linkerArea
      (by simp [PdSessionComponent.areas]) hareas.2.2.1]

theorem pdSessions_entries {olds news : List StoredPdSessionInfo} {cs : List PdSessionComponent}
    {n : Nat} (hcs : Numbered Entry.badge n (total PdSessionComponent.entries cs))
    (h : Mirror (·.badge) (·.cap.localName)
      (Step (FreshPdSession capMap) (UpdatedPdSession capMap)) olds news cs)
    (hold : Matching (total StoredPdSessionInfo.entries olds)
      (total PdSessionComponent.entries cs)) :
    total StoredPdSessionInfo.entries news = total PdSessionComponent.entries cs := by
  refine mirror_sessions h (fun _ => rfl) (fun _ => rfl) ?_ ?_ hold
  · rintro c hc t ⟨n, rfl⟩
    have hc := hcs.of_le ((Multiset.le_add_left _ _).trans (le_total hc))
    exact ⟨rfl, (Matching.refl hc).mono (add_le_add_right (Multiset.zero_le _) _) le_rfl⟩
  · intro base c t hbase hsub hu
    have hareas := hu.areas_entries hsub
    have hnames : (storedAreas t).map (·.badge) = c.areas.map (·.cap.localName) := by
      have hbadges := congrArg (List.map Entry.badge) hareas
      rw [List.map_map, List.map_map] at hbadges
      exact hbadges
    have hrest := hsub.mono (Multiset.le_add_left _ _) (Multiset.le_add_left _ _)
    have hlast := hrest.mono (Multiset.le_add_left _ _) (Multiset.le_add_left _ _)
    have hnativeCaps := mirror_entriesOf hu.nativeCaps (fun _ => rfl) (fun _ => rfl)
      (by rintro d u ⟨n, rfl⟩; rfl) (by rintro u d u' rfl; rfl)
      (hrest.mono (Multiset.le_add_right _ _) (Multiset.le_add_right _ _))
    have hsources := mirror_entriesOf hu.sources (fun _ => rfl) (fun _ => rfl)
      (by rintro d u ⟨n, rfl⟩; rfl) (by rintro u d u' rfl; rfl)
      (hlast.mono (Multiset.le_add_right _ _) (Multiset.le_add_right _ _))
    have hcontexts := mirror_entriesOf hu.contexts (fun _ => rfl) (fun _ => rfl)
      (by rintro d u ⟨n, rfl⟩; rfl) (by rintro u d u' rfl; rfl)
      (hlast.mono (Multiset.le_add_left _ _) (Multiset.le_add_left _ _))
    constructor
    · have hsame : (storedAreas t).map (·.badge) = (storedAreas base).map (·.badge) :=
        hnames.trans hu.areas.symm
      unfold StoredPdSessionInfo.entry
      rw [hu.session, hsame]
    · unfold StoredPdSessionInfo.lists entriesOf
      rw [hareas]
      exact congrArg₂ _ rfl (congrArg₂ _ hnativeCaps (congrArg₂ _ hsources hcontexts))

theorem logSessions_entries {olds news : List StoredLogSessionInfo} {cs : List LogSessionComponent}
    (h : Mirror (·.badge) (·.cap.localName) (Step (FreshLogSession capMap) Checkpointer.Untouched) olds news cs)
    (hold : Matching (total StoredLogSessionInfo.entries olds)
      (total LogSessionComponent.entries cs)) :
    total StoredLogSessionInfo.entries news = total LogSessionComponent.entries cs := by
  have hlist := total_singleton fun t : StoredLogSessionInfo => t.toStoredSessionInfo.entry .log []
  have hlist' := total_singleton LogSessionComponent.entry
  unfold StoredLogSessionInfo.entries LogSessionComponent.entries at hold ⊢
  rw [hlist, hlist'] at hold ⊢
  apply mirror_entriesOf h (fun _ => rfl) (fun _ => rfl) _ _ hold
  · rintro d u ⟨n, rfl⟩
    rfl
  · rintro u d u' rfl
    rfl

theorem timerSessions_entries {olds news : List StoredTimerSessionInfo}
    {cs : List TimerSessionComponent}
    (h : Mirror (·.badge) (·.cap.localName)
      (Step (FreshTimerSession capMap) UpdatedTimerSession) olds news cs)
    (hold : Matching (total StoredTimerSessionInfo.entries olds)
      (total TimerSessionComponent.entries cs)) :
    total StoredTimerSessionInfo.entries news = total TimerSessionComponent.entries cs := by
  have hlist :=
    total_singleton fun t : StoredTimerSessionInfo => t.toStoredSessionInfo.entry .timer []
  have hlist' := total_singleton TimerSessionComponent.entry
  unfold StoredTimerSessionInfo.entries TimerSessionComponent.entries at hold ⊢
  rw [hlist, hlist'] at hold ⊢
  apply mirror_entriesOf h (fun _ => rfl) (fun _ => rfl) _ _ hold
  · rintro d u ⟨n, rfl⟩
    rfl
  · rintro u d u' rfl
    rfl

/-- **One prepare phase**: the entries of the records are those of the
objects. -/
theorem Checkpointer.PrepareStep.entries {old new : TargetState} {s : CustomServices} {n : Nat}
    (h : PrepareStep capMap old new s) (hs : Numbered Entry.badge n s.entries)
    (hold : Matching old.entries s.entries) : new.entries = s.entries := by
  have hpd := hold.mono (Multiset.le_add_right _ _) (Multiset.le_add_right _ _)
  have hcpu := hold.mono (Multiset.le_add_left _ _) (Multiset.le_add_left _ _)
  have hram := hcpu.mono (Multiset.le_add_left _ _) (Multiset.le_add_left _ _)
  have hrm := hram.mono (Multiset.le_add_left _ _) (Multiset.le_add_left _ _)
  have hlog := hrm.mono (Multiset.le_add_left _ _) (Multiset.le_add_left _ _)
  have htimer := hlog.mono (Multiset.le_add_left _ _) (Multiset.le_add_left _ _)
  unfold TargetState.entries CustomServices.entries
  rw [pdSessions_entries (hs.of_le s.pd_le) h.pd hpd,
    cpuSessions_entries h.cpu (hcpu.mono (Multiset.le_add_right _ _) (Multiset.le_add_right _ _)),
    ramSessions_entries h.ram (hram.mono (Multiset.le_add_right _ _) (Multiset.le_add_right _ _)),
    rmSessions_entries h.rm (hrm.mono (Multiset.le_add_right _ _) (Multiset.le_add_right _ _)),
    logSessions_entries h.log (hlog.mono (Multiset.le_add_right _ _) (Multiset.le_add_right _ _)),
    timerSessions_entries h.timer htimer]

end Sessions

end Rtcr
