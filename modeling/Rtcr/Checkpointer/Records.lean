import Rtcr.Checkpointer.Counts
import Rtcr.Checkpointer.Threads

/-!
# Checkpointer.Records — the blocks of the records

Every record of the target state is a block of `_state._alloc`, but for
the three region maps of a PD session record, which are members of it.
`Held` ties the heap to the records there are. All kinds keep it but PD
sessions: their destruction destroys the members as well.
-/

namespace Rtcr

open Reconcile

/-! ## The heap -/

/-- The live blocks are those at `addrs`, each of one record; no block
has been destroyed twice, and no member. -/
structure RecordHeap.Held (addrs : Multiset RecordAddr) (heap : RecordHeap) : Prop where
  live : (heap.live.map RecordAddr.block : Multiset RecordAddr) = addrs
  nodup : heap.live.Nodup
  below : ∀ n ∈ heap.live, n < heap.next
  clean : heap.wildFrees = []

namespace RecordHeap

variable {addrs : Multiset RecordAddr} {heap : RecordHeap}

theorem held_empty : Held 0 .empty :=
  ⟨rfl, List.nodup_nil, fun _ h => absurd h List.not_mem_nil, rfl⟩

theorem Held.new (h : Held addrs heap) : Held (addrs + {.block heap.new.1}) heap.new.2 where
  live := by
    show ((.block heap.next :: heap.live.map RecordAddr.block : List RecordAddr) :
      Multiset RecordAddr) = addrs + {.block heap.next}
    rw [← Multiset.cons_coe, h.live, ← Multiset.singleton_add, add_comm]
  nodup := List.nodup_cons.mpr ⟨fun hn => absurd (h.below _ hn) (Nat.lt_irrefl _), h.nodup⟩
  below n hn := by
    show n < heap.next + 1
    rcases List.mem_cons.mp hn with rfl | hn
    · omega
    · have hlt := h.below n hn
      omega
  clean := h.clean

/-- What is held is a live block. -/
theorem Held.destroy {p : RecordAddr} (h : Held (addrs + {p}) heap) : Held addrs (heap.destroy p) := by
  have hp : p ∈ (heap.live.map RecordAddr.block : Multiset RecordAddr) := by
    rw [h.live]
    exact Multiset.mem_add.mpr (.inr (Multiset.mem_singleton_self p))
  obtain ⟨n, hn, rfl⟩ := List.mem_map.mp (Multiset.mem_coe.mp hp)
  have hdestroy : heap.destroy (.block n) = { heap with live := heap.live.erase n } := if_pos hn
  rw [hdestroy]
  refine ⟨?_, h.nodup.erase n, fun m hm => h.below m (List.mem_of_mem_erase hm), h.clean⟩
  have hinj : Function.Injective RecordAddr.block := fun a b he => RecordAddr.block.inj he
  show (((heap.live.erase n).map RecordAddr.block : List RecordAddr) : Multiset RecordAddr) = addrs
  rw [List.map_erase hinj, ← Multiset.coe_erase, h.live, add_comm, Multiset.singleton_add,
    Multiset.erase_cons_head]

end RecordHeap

namespace Checkpointer

open RecordHeap

/-! ## The addresses of the records -/

def ramSessionAddrs (t : StoredRamSessionInfo) : Multiset RecordAddr :=
  {t.addr} + total (fun u : StoredRamDataspaceInfo => {u.addr}) t.storedRamdsInfos

/-- The blocks of an embedded region map. -/
def memberAddrs (t : StoredRegionMapInfo) : Multiset RecordAddr :=
  total (fun u : StoredAttachedRegionInfo => {u.addr}) t.storedAttachedRegionInfos

/-- The blocks of a region map that is an element of a list. -/
def regionMapAddrs (t : StoredRegionMapInfo) : Multiset RecordAddr := {t.addr} + memberAddrs t

/-- The blocks of the three lists of a PD session record. -/
def pdListAddrs (t : StoredPdSessionInfo) : Multiset RecordAddr :=
  total (fun u : StoredNativeCapabilityInfo => {u.addr}) t.storedNativeCapInfos +
    total (fun u : StoredSignalSourceInfo => {u.addr}) t.storedSourceInfos +
    total (fun u : StoredSignalContextInfo => {u.addr}) t.storedContextInfos

def pdSessionAddrs (t : StoredPdSessionInfo) : Multiset RecordAddr :=
  {t.addr} + pdListAddrs t + total memberAddrs (storedAreas t)

def cpuSessionAddrs (t : StoredCpuSessionInfo) : Multiset RecordAddr :=
  {t.addr} + total (fun u : StoredCpuThreadInfo => {u.addr}) t.storedCpuThreadInfos

def rmSessionAddrs (t : StoredRmSessionInfo) : Multiset RecordAddr :=
  {t.addr} + total regionMapAddrs t.storedRegionMapInfos

/-- All records that the lists of the target state lead to. -/
def stateAddrs (st : TargetState) : Multiset RecordAddr :=
  total ramSessionAddrs st.ramSessions + total pdSessionAddrs st.pdSessions +
    total cpuSessionAddrs st.cpuSessions + total rmSessionAddrs st.rmSessions +
    total (fun t : StoredLogSessionInfo => {t.addr}) st.logSessions +
    total (fun t : StoredTimerSessionInfo => {t.addr}) st.timerSessions

/-! ## The primitive operations -/

/-- The heap of the checkpointer holds these records. -/
def Holds (addrs : Multiset RecordAddr) (ck : Checkpointer) : Prop := ck.heap.Held addrs

variable {addrs : Multiset RecordAddr} {ck : Checkpointer}

theorem Holds.newRecord (h : Holds addrs ck) :
    Holds (addrs + {.block ck.newRecord.1}) ck.newRecord.2 := RecordHeap.Held.new h

theorem Holds.destroyRecord {p : RecordAddr} (h : Holds (addrs + {p}) ck) :
    Holds addrs (ck.destroyRecord p) := RecordHeap.Held.destroy h

theorem Holds.of_heap {ck' : Checkpointer} (h : Holds addrs ck) (he : ck'.heap = ck.heap) :
    Holds addrs ck' := by
  rw [Holds, he]
  exact h

theorem useCopyDataspace_heap (excluded : Bool) (cap : Cap) (size : Nat) (ck : Checkpointer) :
    (ck.useCopyDataspace excluded cap size).2.heap = ck.heap := by
  unfold useCopyDataspace
  split
  · rfl
  · split
    · rfl
    · rfl

theorem dropCopyDataspace_heap (badge : Nat) (ck : Checkpointer) :
    (ck.dropCopyDataspace badge).heap = ck.heap := by
  unfold dropCopyDataspace
  split
  · split
    · rfl
    · rfl
  · rfl

theorem Holds.use (h : Holds addrs ck) (excluded : Bool) (cap : Cap) (size : Nat) :
    Holds addrs (ck.useCopyDataspace excluded cap size).2 :=
  h.of_heap (useCopyDataspace_heap excluded cap size ck)

theorem Holds.drop (h : Holds addrs ck) (badge : Nat) :
    Holds addrs (ck.dropCopyDataspace badge) :=
  h.of_heap (dropCopyDataspace_heap badge ck)

/-! ## Ledgers -/

/-- Records that are only created, refreshed in place and destroyed. -/
theorem leaf_holds {χ τ : Type} (k : Kind Checkpointer χ τ) (addr : τ → RecordAddr)
    (hcreate : ∀ c s, addr (k.create c s).1 = .block s.newRecord.1 ∧
      (k.create c s).2 = s.newRecord.2)
    (hstored : ∀ c s, k.stored c (k.create c s).1 = true)
    (hupdate : ∀ c t s, addr (k.update c t s).1 = addr t ∧ (k.update c t s).2 = s)
    (hdestroy : ∀ t s, k.destroy t s = s.destroyRecord (addr t)) (cs : List χ) :
    Ledger k (fun t => {addr t}) Holds (fun _ => True) cs where
  create c _ m s h := by
    rw [(hcreate c s).1, (hcreate c s).2]
    exact h.newRecord
  update c _ t m s _ _ h := by
    rw [(hupdate c t s).1, (hupdate c t s).2]
    exact h
  destroy t _ s h := by
    rw [hdestroy]
    exact h.destroyRecord
  stored_create c _ s := hstored c s
  each_create _ _ _ := trivial
  each_update _ _ _ _ _ _ := trivial

theorem nativeCaps_holds (cs : List NativeCapabilityInfo) :
    Ledger nativeCapKind (fun t => {t.addr}) Holds (fun _ => True) cs :=
  leaf_holds nativeCapKind (·.addr) (fun _ _ => ⟨rfl, rfl⟩) (fun _ _ => beq_self_eq_true _)
    (fun _ _ _ => ⟨rfl, rfl⟩) (fun _ _ => rfl) cs

theorem signalSources_holds (cs : List SignalSourceInfo) :
    Ledger signalSourceKind (fun t => {t.addr}) Holds (fun _ => True) cs :=
  leaf_holds signalSourceKind (·.addr) (fun _ _ => ⟨rfl, rfl⟩) (fun _ _ => beq_self_eq_true _)
    (fun _ _ _ => ⟨rfl, rfl⟩) (fun _ _ => rfl) cs

theorem signalContexts_holds (cs : List SignalContextInfo) :
    Ledger signalContextKind (fun t => {t.addr}) Holds (fun _ => True) cs :=
  leaf_holds signalContextKind (·.addr) (fun _ _ => ⟨rfl, rfl⟩) (fun _ _ => beq_self_eq_true _)
    (fun _ _ _ => ⟨rfl, rfl⟩) (fun _ _ => rfl) cs

theorem cpuThreads_holds (cs : List CpuThreadComponent) :
    Ledger cpuThreadKind (fun t => {t.addr}) Holds (fun _ => True) cs :=
  leaf_holds cpuThreadKind (·.addr) (fun _ _ => ⟨rfl, rfl⟩) (fun _ _ => beq_self_eq_true _)
    (fun _ _ _ => ⟨rfl, rfl⟩) (fun _ _ => rfl) cs

theorem logSessions_holds (cs : List LogSessionComponent) :
    Ledger logSessionKind (fun t => {t.addr}) Holds (fun _ => True) cs :=
  leaf_holds logSessionKind (·.addr) (fun _ _ => ⟨rfl, rfl⟩) (fun _ _ => beq_self_eq_true _)
    (fun _ _ _ => ⟨rfl, rfl⟩) (fun _ _ => rfl) cs

theorem timerSessions_holds (cs : List TimerSessionComponent) :
    Ledger timerSessionKind (fun t => {t.addr}) Holds (fun _ => True) cs :=
  leaf_holds timerSessionKind (·.addr) (fun _ _ => ⟨rfl, rfl⟩) (fun _ _ => beq_self_eq_true _)
    (fun _ _ _ => ⟨rfl, rfl⟩) (fun _ _ => rfl) cs

theorem ramDataspaces_holds (cs : List RamDataspaceInfo) :
    Ledger ramDataspaceKind (fun t => {t.addr}) Holds (fun _ => True) cs where
  create _ _ _ _ h := (h.use _ _ _).newRecord
  update _ _ _ _ _ _ _ h := h
  destroy t _ _ h := (h.drop t.badge).destroyRecord
  stored_create _ _ _ := beq_self_eq_true _
  each_create _ _ _ := trivial
  each_update _ _ _ _ _ _ := trivial

theorem attachedRegions_holds (cs : List AttachedRegionInfo) :
    Ledger attachedRegionKind (fun t => {t.addr}) Holds (fun _ => True) cs where
  create _ _ _ _ h := (h.use _ _ _).newRecord
  update _ _ _ _ _ _ _ h := h
  destroy t _ _ h := (h.drop t.attachedDsBadge).destroyRecord
  stored_create c _ s := attachedRegionKind_stored_create c s
  each_create _ _ _ := trivial
  each_update _ _ _ _ _ _ := trivial

/-- Records with a list of records in them. -/
theorem nested_holds {χ τ χ' τ' : Type} (k : Kind Checkpointer χ τ) (addr : τ → RecordAddr)
    (sub : Kind Checkpointer χ' τ') {w : τ' → Multiset RecordAddr} (records : τ → List τ')
    (objects : χ → List χ') (hsub : ∀ cs, Ledger sub w Holds (fun _ => True) cs)
    (hcreate : ∀ c s, addr (k.create c s).1 = .block s.newRecord.1 ∧
      records (k.create c s).1 = [] ∧ (k.create c s).2 = s.newRecord.2)
    (hstored : ∀ c s, k.stored c (k.create c s).1 = true)
    (hupdate : ∀ c t s, addr (k.update c t s).1 = addr t ∧
      records (k.update c t s).1 = (reconcile sub (records t) (objects c) s).1 ∧
      (k.update c t s).2.heap = (reconcile sub (records t) (objects c) s).2.heap)
    (hdestroy : ∀ t s, k.destroy t s =
      (destroyAll sub.destroy (records t) s).destroyRecord (addr t)) (cs : List χ) :
    Ledger k (fun t => {addr t} + total w (records t)) Holds (fun _ => True) cs where
  create c _ m s h := by
    obtain ⟨haddr, hrecords, hck⟩ := hcreate c s
    rw [haddr, hrecords, hck, total_nil, add_zero]
    exact h.newRecord
  update c _ t m s _ _ h := by
    obtain ⟨haddr, hrecords, hheap⟩ := hupdate c t s
    rw [haddr, hrecords, Holds, hheap, ← add_assoc]
    rw [← add_assoc] at h
    exact (hsub (objects c)).reconcile (fun _ _ => trivial) _ h
  destroy t m s h := by
    rw [hdestroy]
    rw [← add_assoc] at h
    exact (destroyAll_ledger (hsub []).destroy (records t) (m + {addr t}) h).destroyRecord
  stored_create c _ s := hstored c s
  each_create _ _ _ := trivial
  each_update _ _ _ _ _ _ := trivial

theorem ramSessions_holds (cs : List RamSessionComponent) :
    Ledger ramSessionKind ramSessionAddrs Holds (fun _ => True) cs :=
  nested_holds ramSessionKind (·.addr) ramDataspaceKind (·.storedRamdsInfos)
    (·.parentState.ramDataspaces) ramDataspaces_holds (fun _ _ => ⟨rfl, rfl, rfl⟩)
    (fun _ _ => beq_self_eq_true _) (fun _ _ _ => ⟨rfl, rfl, rfl⟩) (fun _ _ => rfl) cs

theorem cpuSessions_holds (cs : List CpuSessionComponent) :
    Ledger cpuSessionKind cpuSessionAddrs Holds (fun _ => True) cs :=
  nested_holds cpuSessionKind (·.addr) cpuThreadKind (·.storedCpuThreadInfos)
    (·.parentState.cpuThreads) cpuThreads_holds (fun _ _ => ⟨rfl, rfl, rfl⟩)
    (fun _ _ => beq_self_eq_true _) (fun _ _ _ => ⟨rfl, rfl, rfl⟩) (fun _ _ => rfl) cs

theorem regionMaps_holds (cs : List RegionMapComponent) :
    Ledger regionMapKind regionMapAddrs Holds (fun _ => True) cs :=
  nested_holds regionMapKind (·.addr) attachedRegionKind (·.storedAttachedRegionInfos)
    (·.parentState.attachedRegions) attachedRegions_holds (fun _ _ => ⟨rfl, rfl, rfl⟩)
    (fun _ _ => beq_self_eq_true _) (fun _ _ _ => ⟨rfl, rfl, rfl⟩) (fun _ _ => rfl) cs

theorem rmSessions_holds (cs : List RmSessionComponent) :
    Ledger rmSessionKind rmSessionAddrs Holds (fun _ => True) cs :=
  nested_holds rmSessionKind (·.addr) regionMapKind (·.storedRegionMapInfos)
    (·.parentState.regionMaps) regionMaps_holds (fun _ _ => ⟨rfl, rfl, rfl⟩)
    (fun _ _ => beq_self_eq_true _) (fun _ _ _ => ⟨rfl, rfl, rfl⟩) (fun _ _ => rfl) cs

/-! ## PD sessions -/

theorem Holds.afterPdLists (c : PdSessionComponent) (t : StoredPdSessionInfo)
    (h : Holds (addrs + pdListAddrs t) ck) :
    Holds (addrs + pdListAddrs (updatePdSession c t ck).1) (afterPdLists c t ck) := by
  let caps := prepareNativeCaps t.storedNativeCapInfos c.parentState.nativeCaps ck
  let sources := prepareSignalSources t.storedSourceInfos c.parentState.signalSources caps.2
  let contexts := prepareSignalContexts t.storedContextInfos c.parentState.signalContexts sources.2
  have h1 : Holds (addrs + total (fun u : StoredSignalSourceInfo => {u.addr}) t.storedSourceInfos +
      total (fun u : StoredSignalContextInfo => {u.addr}) t.storedContextInfos +
      total (fun u : StoredNativeCapabilityInfo => {u.addr}) caps.1) caps.2 := by
    refine (nativeCaps_holds _).reconcile (fun _ _ => trivial) _ ?_
    convert h using 1
    unfold pdListAddrs
    abel
  have h2 : Holds (addrs + total (fun u : StoredSignalContextInfo => {u.addr}) t.storedContextInfos +
      total (fun u : StoredNativeCapabilityInfo => {u.addr}) caps.1 +
      total (fun u : StoredSignalSourceInfo => {u.addr}) sources.1) sources.2 := by
    refine (signalSources_holds _).reconcile (fun _ _ => trivial) _ ?_
    convert h1 using 1
    abel
  have h3 : Holds (addrs + total (fun u : StoredNativeCapabilityInfo => {u.addr}) caps.1 +
      total (fun u : StoredSignalSourceInfo => {u.addr}) sources.1 +
      total (fun u : StoredSignalContextInfo => {u.addr}) contexts.1) contexts.2 := by
    refine (signalContexts_holds _).reconcile (fun _ _ => trivial) _ ?_
    convert h2 using 1
    abel
  simp only [pdListAddrs, ← add_assoc]
  exact h3

theorem Holds.afterPdListsDestroyed (t : StoredPdSessionInfo)
    (h : Holds (addrs + pdListAddrs t) ck) : Holds addrs (afterPdListsDestroyed t ck) := by
  simp only [pdListAddrs, ← add_assoc] at h
  exact destroyAll_ledger (nativeCaps_holds []).destroy _ addrs <|
    destroyAll_ledger (signalSources_holds []).destroy _ _ <|
    destroyAll_ledger (signalContexts_holds []).destroy _ _ h

/-- The temporary list of region maps, where it keeps its shape: only
regions come and go. -/
theorem Holds.areas {t : StoredPdSessionInfo} {c : PdSessionComponent} (hsame : SameAreas t c)
    (h : Holds (addrs + total memberAddrs (storedAreas t)) ck) :
    Holds (addrs + total memberAddrs (prepareRegionMaps (storedAreas t) (areas c) ck).1)
      (prepareRegionMaps (storedAreas t) (areas c) ck).2 := by
  refine regionMapKind_keyed.updates_ledger (fun d _ u m s hs => ?_)
    (fun _ hd => hsame ▸ List.mem_map_of_mem hd)
    (fun _ hu => hsame ▸ List.mem_map_of_mem (f := fun v : StoredRegionMapInfo => v.badge) hu)
    addrs h
  exact (attachedRegions_holds d.parentState.attachedRegions).reconcile (fun _ _ => trivial) m hs

/-- A destruction that leaves the members to their record. The code has
none; it is what no call of a steady run would tell from it. -/
def releasePdSession (t : StoredPdSessionInfo) (ck : Checkpointer) : Checkpointer :=
  (destroyAll destroyStoredAttachedRegion
    ((storedAreas t).flatMap (·.storedAttachedRegionInfos))
    (afterPdListsDestroyed t ck)).destroyRecord t.addr

theorem Holds.releasePdSession {t : StoredPdSessionInfo} (h : Holds (addrs + pdSessionAddrs t) ck) :
    Holds addrs (releasePdSession t ck) := by
  rw [pdSessionAddrs, ← add_assoc, ← add_assoc, add_right_comm] at h
  have hlists := h.afterPdListsDestroyed
  unfold memberAddrs at hlists
  rw [← total_flatMap] at hlists
  exact (destroyAll_ledger (attachedRegions_holds []).destroy _ _ hlists).destroyRecord

theorem Holds.updatePdSession {t : StoredPdSessionInfo} {c : PdSessionComponent}
    (hsame : SameAreas t c) (h : Holds (addrs + pdSessionAddrs t) ck) :
    Holds (addrs + pdSessionAddrs (updatePdSession c t ck).1) (updatePdSession c t ck).2 := by
  rw [pdSessionAddrs, ← add_assoc, ← add_assoc, add_right_comm] at h
  have hlists := Holds.afterPdLists c t h
  rw [add_right_comm] at hlists
  have hareas := hlists.areas hsame
  rw [← storedAreas_update hsame ck] at hareas
  rw [pdSessionAddrs, ← add_assoc, ← add_assoc]
  exact hareas

/-- With that destruction, PD sessions keep the heap as well. -/
theorem pdSessions_holds (cs : List PdSessionComponent)
    (hcs : ∀ c ∈ cs, ∀ d ∈ cs, d.cap.localName = c.cap.localName → d = c) :
    Ledger { pdSessionKind with destroy := releasePdSession } pdSessionAddrs Holds
      (fun t => ∀ c ∈ cs, t.badge = c.cap.localName → SameAreas t c) cs where
  create c _ m s h := by
    have hempty : pdSessionAddrs (createStoredPdSession c s).1 = {.block s.newRecord.1} := rfl
    show Holds (m + pdSessionAddrs (createStoredPdSession c s).1) s.newRecord.2
    rw [hempty]
    exact h.newRecord
  update c hc _ _ _ hkey ht h := h.updatePdSession (ht c hc (beq_iff_eq.mp hkey))
  destroy _ _ _ h := h.releasePdSession
  stored_create _ _ _ := beq_self_eq_true _
  each_create c hc s d hd hkey := by
    rw [hcs c hc d hd hkey.symm]
    rfl
  each_update c hc t s hkey ht d hd hbadge := by
    have hsame := ht c hc (beq_iff_eq.mp hkey)
    have hshape := congrArg (List.map Prod.snd) (regionMaps_shape hsame (afterPdLists c t s))
    simp only [List.map_map, Function.comp_def] at hshape
    exact (congrArg (List.map (·.badge)) (storedAreas_update hsame s)).trans
      (hshape.trans (ht d hd hbadge))

/-! ## Calls -/

/-- Every record of a PD session is that of one the child has, with the
same region maps. -/
def PdSessionsStay (st : TargetState) (s : CustomServices) : Prop :=
  ∀ t ∈ st.pdSessions, ∃ c ∈ s.pdRoot, t.badge = c.cap.localName ∧ SameAreas t c

instance (st : TargetState) (s : CustomServices) : Decidable (PdSessionsStay st s) :=
  inferInstanceAs (Decidable (∀ t ∈ st.pdSessions, ∃ c ∈ s.pdRoot,
    t.badge = c.cap.localName ∧ (storedAreas t).map (·.badge) = (areas c).map (·.cap.localName)))

theorem prepareRoot_holds {χ τ : Type} {k : Kind Checkpointer χ τ} {w : τ → Multiset RecordAddr}
    (hk : ∀ cs, Ledger k w Holds (fun _ => True) cs) (ts : List τ) (root : Option (List χ))
    (h : Holds (addrs + total w ts) ck) :
    Holds (addrs + total w (prepareRoot (reconcile k) ts root ck).1)
      (prepareRoot (reconcile k) ts root ck).2 := by
  cases root with
  | none => exact h
  | some cs => exact (hk cs).reconcile (fun _ _ => trivial) _ h

/-- **The prepare phase** keeps the heap exact if the PD sessions stay. -/
theorem prepare_holds {s : CustomServices} {st : TargetState}
    (hpd : (s.pdRoot.map (·.cap.localName)).Nodup) (hstay : PdSessionsStay st s)
    (h : Holds (stateAddrs st) ck) :
    Holds (stateAddrs (prepare s st ck).1) (prepare s st ck).2 := by
  have hone : ∀ c ∈ s.pdRoot, ∀ d ∈ s.pdRoot, d.cap.localName = c.cap.localName → d = c :=
    fun c hc d hd he => List.inj_on_of_nodup_map hpd hd hc he
  have hsame : ∀ t ∈ st.pdSessions, ∀ c ∈ s.pdRoot, t.badge = c.cap.localName → SameAreas t c := by
    intro t ht c hc hbadge
    obtain ⟨d, hd, hdb, hareas⟩ := hstay t ht
    rw [← hone c hc d hd (hdb.symm.trans hbadge)]
    exact hareas
  have hkept : ∀ t ∈ st.pdSessions, t.badge ∈ s.pdRoot.map (·.cap.localName) := by
    intro t ht
    obtain ⟨d, hd, hdb, -⟩ := hstay t ht
    rw [hdb]
    exact List.mem_map_of_mem hd
  let ram := prepareRamSessions st.ramSessions s.ramRoot ck
  let pd := preparePdSessions st.pdSessions s.pdRoot ram.2
  let cpu := prepareCpuSessions st.cpuSessions s.cpuRoot pd.2
  let rm := prepareRoot prepareRmSessions st.rmSessions s.rmRoot cpu.2
  let log := prepareRoot prepareLogSessions st.logSessions s.logRoot rm.2
  let timer := prepareRoot prepareTimerSessions st.timerSessions s.timerRoot log.2
  -- each list in turn moves to the end of the sum
  have h1 : Holds (total pdSessionAddrs st.pdSessions + total cpuSessionAddrs st.cpuSessions +
      total rmSessionAddrs st.rmSessions +
      total (fun t : StoredLogSessionInfo => {t.addr}) st.logSessions +
      total (fun t : StoredTimerSessionInfo => {t.addr}) st.timerSessions +
      total ramSessionAddrs ram.1) ram.2 := by
    refine (ramSessions_holds _).reconcile (fun _ _ => trivial) _ ?_
    convert h using 1
    unfold stateAddrs
    abel
  have h2 : Holds (total cpuSessionAddrs st.cpuSessions + total rmSessionAddrs st.rmSessions +
      total (fun t : StoredLogSessionInfo => {t.addr}) st.logSessions +
      total (fun t : StoredTimerSessionInfo => {t.addr}) st.timerSessions +
      total ramSessionAddrs ram.1 + total pdSessionAddrs pd.1) pd.2 := by
    have hpds : preparePdSessions st.pdSessions s.pdRoot ram.2 =
        reconcile { pdSessionKind with destroy := releasePdSession } st.pdSessions s.pdRoot ram.2 :=
      pdSessionKind_keyed.reconcile_of_kept releasePdSession ram.2 hkept
    show Holds (_ + total pdSessionAddrs (preparePdSessions st.pdSessions s.pdRoot ram.2).1)
      (preparePdSessions st.pdSessions s.pdRoot ram.2).2
    rw [hpds]
    refine (pdSessions_holds _ hone).reconcile hsame _ ?_
    convert h1 using 1
    abel
  have h3 : Holds (total rmSessionAddrs st.rmSessions +
      total (fun t : StoredLogSessionInfo => {t.addr}) st.logSessions +
      total (fun t : StoredTimerSessionInfo => {t.addr}) st.timerSessions +
      total ramSessionAddrs ram.1 + total pdSessionAddrs pd.1 + total cpuSessionAddrs cpu.1)
      cpu.2 := by
    refine (cpuSessions_holds _).reconcile (fun _ _ => trivial) _ ?_
    convert h2 using 1
    abel
  have h4 : Holds (total (fun t : StoredLogSessionInfo => {t.addr}) st.logSessions +
      total (fun t : StoredTimerSessionInfo => {t.addr}) st.timerSessions +
      total ramSessionAddrs ram.1 + total pdSessionAddrs pd.1 + total cpuSessionAddrs cpu.1 +
      total rmSessionAddrs rm.1) rm.2 := by
    refine prepareRoot_holds rmSessions_holds _ _ ?_
    convert h3 using 1
    abel
  have h5 : Holds (total (fun t : StoredTimerSessionInfo => {t.addr}) st.timerSessions +
      total ramSessionAddrs ram.1 + total pdSessionAddrs pd.1 + total cpuSessionAddrs cpu.1 +
      total rmSessionAddrs rm.1 + total (fun t : StoredLogSessionInfo => {t.addr}) log.1)
      log.2 := by
    refine prepareRoot_holds logSessions_holds _ _ ?_
    convert h4 using 1
    abel
  have h6 : Holds (total ramSessionAddrs ram.1 + total pdSessionAddrs pd.1 +
      total cpuSessionAddrs cpu.1 + total rmSessionAddrs rm.1 +
      total (fun t : StoredLogSessionInfo => {t.addr}) log.1 +
      total (fun t : StoredTimerSessionInfo => {t.addr}) timer.1) timer.2 := by
    refine prepareRoot_holds timerSessions_holds _ _ ?_
    convert h5 using 1
    abel
  exact h6

/-- **Records are released exactly once**: the live blocks are the
records that the target state leads to, and no `destroy` has been given
anything else. -/
def RecordsExact (ck : Checkpointer) (st : TargetState) : Prop := Holds (stateAddrs st) ck

/-- A call, with no two PD sessions of one badge. It may fail. -/
structure RecordStep (s : History) (call : Call) (s' : History) : Prop where
  distinct : (call.child.services.pdRoot.map (·.cap.localName)).Nodup
  next : s' = s.next call

/-- The condition on a call: no PD session has been closed, unless the
call throws before it gets to the sessions. -/
def KeepsPdSessions (s : History) (call : Call) : Prop :=
  call.child.CapMapReadable → PdSessionsStay s.state call.child.services

instance (s : History) (call : Call) : Decidable (KeepsPdSessions s call) :=
  inferInstanceAs (Decidable (call.child.CapMapReadable → PdSessionsStay ..))

theorem Holds.prepared {st : TargetState} {child : TargetChild}
    (hpd : (child.services.pdRoot.map (·.cap.localName)).Nodup)
    (hstay : PdSessionsStay st child.services) (h : Holds (stateAddrs st) ck) :
    Holds (stateAddrs (ck.prepared st child).1) (ck.prepared st child).2 := by
  have hsame := (ck.prepareChild_sameObjects child).pd
  rw [← hsame] at hpd
  have hstay' : PdSessionsStay { st with capIdxAllocAddr := child.capMapInfo }
      (ck.prepareChild child).services := by
    intro t ht
    rw [hsame]
    exact hstay t ht
  have hset : Holds (stateAddrs { st with capIdxAllocAddr := child.capMapInfo })
      (ck.setUp (ck.prepareChild child) (child.capabilityMap ck.core)) := h.of_heap rfl
  exact prepare_holds hpd hstay' hset

/-- **One call.** -/
theorem Holds.checkpoint {st : TargetState} {child : TargetChild}
    (hpd : (child.services.pdRoot.map (·.cap.localName)).Nodup)
    (hstay : child.CapMapReadable → PdSessionsStay st child.services)
    (h : Holds (stateAddrs st) ck) :
    Holds (stateAddrs (ck.checkpoint st child).state) (ck.checkpoint st child).checkpointer := by
  have haddrs : stateAddrs { st with capIdxAllocAddr := child.capMapInfo } = stateAddrs st := rfl
  by_cases hread : child.CapMapReadable
  · have hprep := h.prepared hpd (hstay hread)
    rcases checkpoint_cases ck st child with ⟨hstate, hcheck⟩ | ⟨hstate, _, _, _, hcheck⟩
    · rw [hstate, hcheck, haddrs]
      exact h
    · rw [hstate, hcheck]
      exact hprep.of_heap rfl
  · obtain ⟨hstate, hcheck⟩ := checkpoint_of_unreadable hread
    rw [hstate, hcheck, haddrs]
    exact h

theorem RecordStep.exact {s s' : History} {call : Call} (h : RecordsExact s.checkpointer s.state)
    (hkeep : KeepsPdSessions s call) (hstep : RecordStep s call s') :
    RecordsExact s'.checkpointer s'.state := by
  have hck : Holds (stateAddrs s.state) { s.checkpointer with core := call.core } :=
    Holds.of_heap h rfl
  rw [hstep.next]
  exact hck.checkpoint hstep.distinct hkeep

theorem recordsExact_start (core : Core) :
    RecordsExact (History.start core).checkpointer (History.start core).state := by
  have haddrs : stateAddrs .empty = 0 := by simp [stateAddrs, TargetState.empty]
  show Holds (stateAddrs .empty) (.new core)
  rw [haddrs]
  exact RecordHeap.held_empty

/-- **Runs**: as long as no PD session is closed, records are released
exactly once. -/
theorem records_exact_of_run {core : Core} {s : History}
    (h : Run RecordStep KeepsPdSessions (History.start core) s) :
    RecordsExact s.checkpointer s.state := by
  let I (s : History) : Prop := RecordsExact s.checkpointer s.state
  have hstep : ∀ s call s', I s → KeepsPdSessions s call → RecordStep s call s' → I s' := by
    intro s call s' hs hkeep hstep
    exact hstep.exact hs hkeep
  have hstart : I (History.start core) := recordsExact_start core
  exact Run.invariant hstep h hstart

/-! ### A PD session that is closed -/

/-- The small child with a second PD session. -/
def secondPdCall : Call :=
  ⟨{ TargetChild.small with
      services :=
        { TargetChild.small.services with
          pdRoot := TargetChild.small.services.pdRoot ++ [.bare 60 false [] []] } },
    .small⟩

def History.afterSecondPd : History := (History.start .small).next secondPdCall

/-- **Members are destroyed like blocks**: at the call after the second
PD session was closed, its three region maps are given to `destroy`. -/
theorem closed_pdSession_members_destroyed :
    RecordStep (.start .small) secondPdCall .afterSecondPd ∧
      RecordStep .afterSecondPd firstCall (History.afterSecondPd.next firstCall) ∧
      (History.afterSecondPd.next firstCall).checkpointer.heap.wildFrees.length = 3 ∧
      ¬ RecordsExact (History.afterSecondPd.next firstCall).checkpointer
        (History.afterSecondPd.next firstCall).state := by
  have hthree : (History.afterSecondPd.next firstCall).checkpointer.heap.wildFrees.length = 3 := by
    decide +kernel
  refine ⟨⟨by decide +kernel, rfl⟩, ⟨by decide +kernel, rfl⟩, hthree, fun h => ?_⟩
  rw [RecordHeap.Held.clean h] at hthree
  exact absurd hthree (by decide)

/-- A call with both PD sessions, and one more. -/
theorem records_exact_of_run_second :
    RecordsExact (History.afterSecondPd.next secondPdCall).checkpointer
      (History.afterSecondPd.next secondPdCall).state := by
  have hstep : RecordStep (.start .small) secondPdCall .afterSecondPd :=
    ⟨by decide +kernel, rfl⟩
  have hnext : RecordStep .afterSecondPd secondPdCall (History.afterSecondPd.next secondPdCall) :=
    ⟨by decide +kernel, rfl⟩
  exact records_exact_of_run (((Run.refl _).tail (by decide +kernel) hstep).tail
    (by decide +kernel) hnext)

end Checkpointer

end Rtcr
