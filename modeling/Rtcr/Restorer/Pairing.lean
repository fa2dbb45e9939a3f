import Rtcr.Restorer.Identify

/-!
# Restorer.Pairing — bootstrapped dataspaces, paired by age

The `k`-th oldest bootstrapped RAM dataspace of the checkpoint is meant
to be the `k`-th oldest of the child. `i` counts all elements of a list
where the array only has room for the bootstrapped ones, so the pairing
gets through only where no new element comes before a bootstrapped one.
-/

namespace Rtcr

open Fallible

/-! ## Filling an array -/

section Fill

variable {α : Type} {bootstrapped : α → Bool} {timestamp : α → Nat}

/-- No new element comes before a bootstrapped one. -/
def BootstrappedFirst (bootstrapped : α → Bool) (l : List α) : Prop :=
  l.Pairwise fun x y => bootstrapped y → bootstrapped x

instance (l : List α) : Decidable (BootstrappedFirst bootstrapped l) :=
  inferInstanceAs (Decidable (l.Pairwise _))

theorem fillArray_of_none {l : List α} (h : ∀ x ∈ l, ¬bootstrapped x = true) (i : Nat)
    (array : List Nat) : fillArray bootstrapped timestamp l i array = .ok array := by
  induction l generalizing i with
  | nil => rfl
  | cons x xs ih =>
      rw [fillArray, if_neg (h x (by simp))]
      exact ih (fun y hy => h y (by simp [hy])) (i + 1)

/-- As long as bootstrapped elements come first, `i` is where the next
one belongs. -/
theorem fillArray_of_first {l : List α} (h : BootstrappedFirst bootstrapped l) {i : Nat}
    {array : List Nat} (hlen : array.length = i + l.countP bootstrapped) :
    fillArray bootstrapped timestamp l i array =
      .ok (array.take i ++ (l.filter bootstrapped).map timestamp) := by
  induction l generalizing i array with
  | nil =>
      have htake : array.take i = array := List.take_of_length_le (by simp at hlen; omega)
      simp [fillArray, htake]
  | cons x xs ih =>
      obtain ⟨hx, hxs⟩ := List.pairwise_cons.mp h
      by_cases hb : bootstrapped x = true
      · rw [List.countP_cons_of_pos hb] at hlen
        have hi : i < array.length := by omega
        have htake : (array.set i (timestamp x)).take (i + 1) = array.take i ++ [timestamp x] := by
          rw [List.take_add_one, List.take_set_of_le (by omega)]
          simp [hi]
        rw [fillArray, if_pos hb, if_pos hi, ih hxs (by rw [List.length_set]; omega), htake,
          List.filter_cons_of_pos hb]
        simp
      · -- nothing bootstrapped is left
        have hnone : ∀ y ∈ xs, ¬bootstrapped y = true := fun y hy hby => hb (hx y hy hby)
        have hzero : xs.countP bootstrapped = 0 := List.countP_eq_zero.mpr hnone
        rw [List.countP_cons_of_neg hb, hzero] at hlen
        rw [fillArray, if_neg hb, fillArray_of_none hnone, List.filter_cons_of_neg hb,
          List.filter_eq_nil_iff.mpr hnone, List.take_of_length_le (by omega)]
        simp

/-- Once `i` is ahead of the room that is left, an element to come is
written behind the end. -/
theorem fillArray_of_short {l : List α} {i : Nat} {array : List Nat}
    (hpos : 0 < l.countP bootstrapped) (hlen : array.length < i + l.countP bootstrapped) :
    fillArray bootstrapped timestamp l i array = .error .outOfBounds := by
  induction l generalizing i array with
  | nil => simp at hpos
  | cons x xs ih =>
      by_cases hb : bootstrapped x = true
      · rw [List.countP_cons_of_pos hb] at hlen
        rw [fillArray, if_pos hb]
        by_cases hi : i < array.length
        · rw [if_pos hi]
          exact ih (by omega) (by rw [List.length_set]; omega)
        · rw [if_neg hi]
      · rw [List.countP_cons_of_neg hb] at hpos hlen
        rw [fillArray, if_neg hb]
        exact ih hpos (by omega)

theorem fillArray_first {l : List α} {i : Nat} {array filled : List Nat}
    (hlen : array.length = i + l.countP bootstrapped)
    (h : fillArray bootstrapped timestamp l i array = .ok filled) :
    BootstrappedFirst bootstrapped l := by
  induction l generalizing i array with
  | nil => exact .nil
  | cons x xs ih =>
      by_cases hb : bootstrapped x = true
      · rw [List.countP_cons_of_pos hb] at hlen
        rw [fillArray, if_pos hb, if_pos (by omega)] at h
        exact List.pairwise_cons.mpr
          ⟨fun _ _ _ => hb, ih (by rw [List.length_set]; omega) h⟩
      · rw [List.countP_cons_of_neg hb] at hlen
        rw [fillArray, if_neg hb] at h
        have hnone : ¬0 < xs.countP bootstrapped := by
          intro hpos
          rw [fillArray_of_short hpos (by omega)] at h
          cases h
        have hzero : ∀ y ∈ xs, ¬bootstrapped y = true :=
          List.countP_eq_zero.mp (by omega)
        refine List.pairwise_cons.mpr ⟨fun y hy hby => absurd hby (hzero y hy), ?_⟩
        exact List.pairwise_of_forall_mem_list fun y _ z hz hbz => absurd hbz (hzero z hz)

/-- **Filling**: exactly where bootstrapped elements come first. -/
theorem timestampArray_eq_ok {l : List α} {array : List Nat} :
    timestampArray bootstrapped timestamp l = .ok array ↔
      BootstrappedFirst bootstrapped l ∧ array = (l.filter bootstrapped).map timestamp := by
  have hlen : (List.replicate (l.countP bootstrapped) 0).length = 0 + l.countP bootstrapped := by
    simp
  constructor
  · intro h
    have hfirst := fillArray_first hlen h
    rw [timestampArray, fillArray_of_first hfirst hlen] at h
    exact ⟨hfirst, by simpa using (Except.ok.inj h).symm⟩
  · intro ⟨hfirst, harray⟩
    rw [timestampArray, fillArray_of_first hfirst hlen, harray]
    simp

end Fill

/-! ## Age -/

section Age

variable {α : Type} {bootstrapped : α → Bool} {timestamp : α → Nat}

/-- The bootstrapped elements, the oldest first. -/
def oldestFirst (bootstrapped : α → Bool) (timestamp : α → Nat) (l : List α) : List α :=
  (l.filter bootstrapped).mergeSort fun x y => decide (timestamp x ≤ timestamp y)

theorem length_oldestFirst (l : List α) :
    (oldestFirst bootstrapped timestamp l).length = l.countP bootstrapped := by
  rw [oldestFirst, List.length_mergeSort, List.countP_eq_length_filter]

theorem mem_of_mem_oldestFirst {l : List α} {x : α}
    (h : x ∈ oldestFirst bootstrapped timestamp l) : x ∈ l :=
  (List.mem_filter.mp (List.mem_mergeSort.mp h)).1

/-- `merge_sort` on the timestamps is the order by age. -/
theorem mergeSort_timestamps (l : List α) :
    mergeSort ((l.filter bootstrapped).map timestamp) =
      .ok ((oldestFirst bootstrapped timestamp l).map timestamp) := by
  obtain ⟨sorted, hok, hsorted, hperm⟩ := mergeSort_sorted ((l.filter bootstrapped).map timestamp)
  have hage : ((oldestFirst bootstrapped timestamp l).map timestamp).Pairwise (· ≤ ·) := by
    rw [List.pairwise_map]
    refine (List.pairwise_mergeSort ?_ ?_ (l.filter bootstrapped)).imp fun h => of_decide_eq_true h
    · intro x y z hxy hyz
      exact decide_eq_true (le_trans (of_decide_eq_true hxy) (of_decide_eq_true hyz))
    · intro x y
      simpa using le_total (timestamp x) (timestamp y)
  have hsame : sorted.Perm ((oldestFirst bootstrapped timestamp l).map timestamp) :=
    hperm.trans ((List.mergeSort_perm _ _).map timestamp).symm
  rw [hok, hsame.eq_of_pairwise' hsorted hage]

/-- A lookup by the timestamp of an element finds this element. -/
theorem findByTimestamp {l : List α} (h : (l.map timestamp).Nodup) {x : α} (hx : x ∈ l) :
    findByBadge timestamp (timestamp x) l = some x := by
  cases hfind : findByBadge timestamp (timestamp x) l with
  | none => exact absurd (List.mem_map_of_mem hx) (findByBadge_eq_none.mp hfind)
  | some y =>
      obtain ⟨hy, he⟩ := findByBadge_some hfind
      rw [List.inj_on_of_nodup_map h hy hx he]

end Age

/-! ## The result -/

/-- The pair for the `k`-th oldest bootstrapped dataspace of the
checkpoint holds the capability of the `k`-th oldest of the child. The
result is filled from its end on. -/
structure PairedByAge (n : Nat) (infos : List RamDataspaceInfo)
    (stored : List StoredRamDataspaceInfo) (pairs : List CkptRestoBadgeInfo) : Prop where
  length : pairs.length = n
  pair : ∀ k < n, ∃ t c,
    (oldestFirst (·.bootstrapped) (·.timestamp) stored)[k]? = some t ∧
      (oldestFirst (·.bootstrapped) (·.timestamp) infos)[k]? = some c ∧
      pairs.reverse[k]? = some ⟨t.badge, c.cap⟩

section Pairs

variable {infos : List RamDataspaceInfo} {stored : List StoredRamDataspaceInfo}

/-- The pair of one turn. -/
def pairOf (t : StoredRamDataspaceInfo) (c : RamDataspaceInfo) : CkptRestoBadgeInfo :=
  ⟨t.badge, c.cap⟩

/-- One turn of the loop, between elements that are in their lists. -/
theorem pairDataspace_eq (hi : (infos.map (·.timestamp)).Nodup)
    (hs : (stored.map (·.timestamp)).Nodup) {ts : List StoredRamDataspaceInfo}
    {cs : List RamDataspaceInfo} (hts : ∀ t ∈ ts, t ∈ stored) (hcs : ∀ c ∈ cs, c ∈ infos)
    {k : Nat} (ht : k < ts.length) (hc : k < cs.length) (result : List CkptRestoBadgeInfo) :
    pairDataspace infos stored (ts.map (·.timestamp)) (cs.map (·.timestamp)) k result =
      .ok (pairOf ts[k] cs[k] :: result) := by
  unfold pairDataspace
  rw [List.getElem?_map, List.getElem?_map, List.getElem?_eq_getElem ht,
    List.getElem?_eq_getElem hc]
  have hfind := findByTimestamp hs (hts ts[k] (List.getElem_mem ht))
  have hfind' := findByTimestamp hi (hcs cs[k] (List.getElem_mem hc))
  simp only [Option.map_some, hfind, hfind']
  rfl

/-- The loop, over the elements that are left of two orders by age. -/
theorem pairDataspaces_eq (hi : (infos.map (·.timestamp)).Nodup)
    (hs : (stored.map (·.timestamp)).Nodup) {ts : List StoredRamDataspaceInfo}
    {cs : List RamDataspaceInfo} (hts : ∀ t ∈ ts, t ∈ stored) (hcs : ∀ c ∈ cs, c ∈ infos)
    (hle : ts.length ≤ cs.length) (result : List CkptRestoBadgeInfo) {k n : Nat}
    (hk : k + n = ts.length) :
    loop (pairDataspace infos stored (ts.map (·.timestamp)) (cs.map (·.timestamp)))
        (List.range' k n) result =
      .ok ((List.zipWith pairOf (ts.drop k) (cs.drop k)).reverse ++ result) := by
  induction n generalizing k result with
  | zero =>
      rw [List.drop_eq_nil_of_le (show ts.length ≤ k by omega)]
      rfl
  | succ n ih =>
      have ht : k < ts.length := by omega
      have hc : k < cs.length := by omega
      rw [List.range'_succ, loop_cons_of_ok (pairDataspace_eq hi hs hts hcs ht hc result),
        ih _ (by omega), List.drop_eq_getElem_cons ht, List.drop_eq_getElem_cons hc,
        List.zipWith_cons_cons, List.reverse_cons, List.append_assoc]
      rfl

/-- The arrays, filled and sorted. -/
theorem identifyRamDataspaces_of_first
    (hi : BootstrappedFirst (·.bootstrapped) infos)
    (hs : BootstrappedFirst (·.bootstrapped) stored) :
    identifyRamDataspaces infos stored =
      loop (pairDataspace infos stored
          ((oldestFirst (·.bootstrapped) (·.timestamp) stored).map (·.timestamp))
          ((oldestFirst (·.bootstrapped) (·.timestamp) infos).map (·.timestamp)))
        (List.range (stored.countP (·.bootstrapped))) [] := by
  unfold identifyRamDataspaces
  rw [timestampArray_eq_ok.mpr ⟨hs, rfl⟩, timestampArray_eq_ok.mpr ⟨hi, rfl⟩]
  simp only [bind, Except.bind, mergeSort_timestamps, List.length_map, length_oldestFirst]

/-- What a pairing that gets through shows of the two lists. -/
theorem first_of_identifyRamDataspaces {pairs : List CkptRestoBadgeInfo}
    (h : identifyRamDataspaces infos stored = .ok pairs) :
    BootstrappedFirst (·.bootstrapped) infos ∧ BootstrappedFirst (·.bootstrapped) stored := by
  obtain ⟨storedArray, hstored, hrest⟩ := bind_eq_ok.mp h
  obtain ⟨array, harray, _⟩ := bind_eq_ok.mp hrest
  exact ⟨(timestampArray_eq_ok.mp harray).1, (timestampArray_eq_ok.mp hstored).1⟩

/-- The turn `i` reads `array[i]`. -/
theorem pairDataspace_lt {storedArray array : List Nat} {i : Nat}
    {result result' : List CkptRestoBadgeInfo}
    (h : pairDataspace infos stored storedArray array i result = .ok result') :
    i < array.length := by
  unfold pairDataspace at h
  split at h
  · rename_i hget
    exact (List.getElem?_eq_some_iff.mp hget).1
  · cases h

theorem identifyRamDataspaces_eq_ok (hi : (infos.map (·.timestamp)).Nodup)
    (hs : (stored.map (·.timestamp)).Nodup) {pairs : List CkptRestoBadgeInfo} :
    identifyRamDataspaces infos stored = .ok pairs ↔
      (BootstrappedFirst (·.bootstrapped) infos ∧ BootstrappedFirst (·.bootstrapped) stored ∧
        stored.countP (·.bootstrapped) ≤ infos.countP (·.bootstrapped)) ∧
      pairs = (List.zipWith pairOf (oldestFirst (·.bootstrapped) (·.timestamp) stored)
        (oldestFirst (·.bootstrapped) (·.timestamp) infos)).reverse := by
  have hlens := @length_oldestFirst _ (·.bootstrapped) (·.timestamp) stored
  have hleni := @length_oldestFirst _ (·.bootstrapped) (·.timestamp) infos
  have hall (hle : stored.countP (·.bootstrapped) ≤ infos.countP (·.bootstrapped)) :=
    pairDataspaces_eq hi hs (fun _ => mem_of_mem_oldestFirst) (fun _ => mem_of_mem_oldestFirst)
      (by rw [hlens, hleni]; exact hle) [] (k := 0) (by rw [hlens]; exact Nat.zero_add _)
  constructor
  · intro h
    obtain ⟨hfi, hfs⟩ := first_of_identifyRamDataspaces h
    rw [identifyRamDataspaces_of_first hfi hfs] at h
    have hle : stored.countP (·.bootstrapped) ≤ infos.countP (·.bootstrapped) := by
      by_contra hgt
      -- the turn of the first stored element without a partner
      refine loop_ne_ok (List.mem_range.mpr (Nat.lt_of_not_le hgt)) (fun s s' hturn => ?_) h
      have hlt := pairDataspace_lt hturn
      rw [List.length_map, hleni] at hlt
      exact Nat.lt_irrefl _ hlt
    rw [List.range_eq_range', hall hle] at h
    exact ⟨⟨hfi, hfs, hle⟩, by simpa using (Except.ok.inj h).symm⟩
  · intro ⟨⟨hfi, hfs, hle⟩, hpairs⟩
    rw [identifyRamDataspaces_of_first hfi hfs, List.range_eq_range', hall hle, hpairs]
    simp

end Pairs

/-- **Pairing by age**: with distinct timestamps, the pairing stays inside
its arrays, finds what it looks up and pairs by age exactly where in both
lists the bootstrapped elements come first and the child has at least as
many of them as the checkpoint. -/
theorem identifyRamDataspaces_iff {infos : List RamDataspaceInfo}
    {stored : List StoredRamDataspaceInfo} (hi : (infos.map (·.timestamp)).Nodup)
    (hs : (stored.map (·.timestamp)).Nodup) :
    (∃ pairs, identifyRamDataspaces infos stored = .ok pairs ∧
        ∀ n, infos.countP (·.bootstrapped) = n → stored.countP (·.bootstrapped) = n →
          PairedByAge n infos stored pairs) ↔
      BootstrappedFirst (·.bootstrapped) infos ∧ BootstrappedFirst (·.bootstrapped) stored ∧
        stored.countP (·.bootstrapped) ≤ infos.countP (·.bootstrapped) := by
  constructor
  · intro ⟨pairs, h, _⟩
    exact ((identifyRamDataspaces_eq_ok hi hs).mp h).1
  · intro hcond
    refine ⟨_, (identifyRamDataspaces_eq_ok hi hs).mpr ⟨hcond, rfl⟩, fun n hni hns => ⟨?_, ?_⟩⟩
    · rw [List.length_reverse, List.length_zipWith, length_oldestFirst, length_oldestFirst, hni, hns]
      exact Nat.min_self n
    · intro k hk
      have ht : k < (oldestFirst (·.bootstrapped) (·.timestamp) stored).length := by
        rw [length_oldestFirst, hns]
        exact hk
      have hc : k < (oldestFirst (·.bootstrapped) (·.timestamp) infos).length := by
        rw [length_oldestFirst, hni]
        exact hk
      refine ⟨_, _, List.getElem?_eq_getElem ht, List.getElem?_eq_getElem hc, ?_⟩
      rw [List.reverse_reverse, List.getElem?_zipWith, List.getElem?_eq_getElem ht,
        List.getElem?_eq_getElem hc]
      rfl

/-! ## A checkpoint in between -/

namespace PairingSample

/-- Two dataspaces that bootstrap has made, the younger one first. -/
def infos : List RamDataspaceInfo :=
  [{ cap := ⟨42⟩, size := 4096, cached := .cached, bootstrapped := true, timestamp := 8
     mrmInfo := none },
   { cap := ⟨41⟩, size := 4096, cached := .cached, bootstrapped := true, timestamp := 7
     mrmInfo := none }]

def dataspace (badge timestamp : Nat) (bootstrapped : Bool) : StoredRamDataspaceInfo where
  addr := .block badge
  kcap := 0
  badge := badge
  bootstrapped := bootstrapped
  memoryContent := ⟨badge + 100⟩
  size := 4096
  cached := .cached
  managed := false
  timestamp := timestamp

/-- The records of a first checkpoint. -/
def firstCheckpoint : List StoredRamDataspaceInfo := [dataspace 21 3 true, dataspace 22 4 true]

/-- A second checkpoint, after the child has allocated a dataspace: its
record comes in front. -/
def secondCheckpoint : List StoredRamDataspaceInfo := dataspace 23 5 false :: firstCheckpoint

end PairingSample

open PairingSample in
theorem identifyRamDataspaces_iff_sample :
    ∃ pairs, identifyRamDataspaces infos firstCheckpoint = .ok pairs ∧
      ∀ n, infos.countP (·.bootstrapped) = n → firstCheckpoint.countP (·.bootstrapped) = n →
        PairedByAge n infos firstCheckpoint pairs :=
  (identifyRamDataspaces_iff (by decide) (by decide)).mpr (by decide)

open PairingSample in
theorem not_paired_after_allocation :
    (infos.map (·.timestamp)).Nodup ∧ (secondCheckpoint.map (·.timestamp)).Nodup ∧
      infos.countP (·.bootstrapped) = secondCheckpoint.countP (·.bootstrapped) ∧
      identifyRamDataspaces infos secondCheckpoint = .error .outOfBounds ∧
      ¬∃ pairs, identifyRamDataspaces infos secondCheckpoint = .ok pairs ∧
        ∀ n, infos.countP (·.bootstrapped) = n → secondCheckpoint.countP (·.bootstrapped) = n →
          PairedByAge n infos secondCheckpoint pairs := by
  have herr : identifyRamDataspaces infos secondCheckpoint = .error .outOfBounds := by
    decide +kernel
  refine ⟨by decide, by decide, by decide, herr, ?_⟩
  intro ⟨pairs, hok, _⟩
  rw [herr] at hok
  cases hok

end Rtcr
