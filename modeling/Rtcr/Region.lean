import Rtcr.OfflineStorage

/-!
# Region — regions of a region map, and matching them by range

A `Region` is what a record of an attachment says, whichever side keeps
it. The lookups of the RTCR accept an address by an inclusive range test
(`covers`); `Apart` is the parent's guarantee that regions do not
overlap. The second half is about a two-pass reconciliation of region
lists whose lookups are such range tests.
-/

namespace Rtcr

/-- A region of a region map: half-open `[addr, addr + size)`. -/
structure Region where
  dsCap : Cap
  addr : Nat
  size : Nat
  offset : Nat
  executable : Bool
deriving DecidableEq, Repr

/-- The region a record of the child stands for. -/
def AttachedRegionInfo.toRegion (info : AttachedRegionInfo) : Region where
  dsCap := info.attachedDsCap
  addr := info.relAddr
  size := info.size
  offset := info.offset
  executable := info.executable

/-- The region a stored record stands for. -/
def StoredAttachedRegionInfo.toRegion (info : StoredAttachedRegionInfo) : Region where
  dsCap := ⟨info.attachedDsBadge⟩
  addr := info.relAddr
  size := info.size
  offset := info.offset
  executable := info.executable

/-- The two ranges have no address in common. -/
def disjointRanges (a m b n : Nat) : Bool := decide (a + m ≤ b) || decide (b + n ≤ a)

theorem disjointRanges_iff {a m b n : Nat} :
    disjointRanges a m b n = true ↔ a + m ≤ b ∨ b + n ≤ a := by
  simp [disjointRanges]

namespace Region

/-- The range test of all `find_by_addr` functions. -/
def covers (r : Region) (addr : Nat) : Bool :=
  decide (addr ≥ r.addr) && decide (addr ≤ r.addr + r.size)

theorem covers_iff {r : Region} {addr : Nat} :
    r.covers addr = true ↔ r.addr ≤ addr ∧ addr ≤ r.addr + r.size := by
  simp [covers]

theorem covers_self (r : Region) : r.covers r.addr = true := by simp [covers]

/-- Neither region is empty, and they have no address in common. -/
def Apart (r s : Region) : Prop :=
  0 < r.size ∧ 0 < s.size ∧ disjointRanges r.addr r.size s.addr s.size = true

instance (r s : Region) : Decidable (r.Apart s) := inferInstanceAs (Decidable (_ ∧ _ ∧ _))

theorem Apart.symm {r s : Region} (h : r.Apart s) : s.Apart r := by
  obtain ⟨hr, hs, hd⟩ := h
  refine ⟨hs, hr, ?_⟩
  rw [disjointRanges_iff] at hd ⊢
  omega

instance : Std.Symm Apart := ⟨fun _ _ => Apart.symm⟩

theorem Apart.addr_ne {r s : Region} (h : r.Apart s) : r.addr ≠ s.addr := by
  obtain ⟨hr, hs, hd⟩ := h
  rw [disjointRanges_iff] at hd
  omega

/-- A region covers the start of one apart from it only by its inclusive
upper end. -/
theorem Apart.covers_iff {r s : Region} (h : r.Apart s) :
    r.covers s.addr = true ↔ r.addr + r.size = s.addr := by
  obtain ⟨h1, h2, hd⟩ := h
  rw [disjointRanges_iff] at hd
  rw [Region.covers_iff]
  omega

/-! ## Reconciling by range -/

/-- First pass: a region of the source list gets into the records unless
a record covers its start. -/
def track : List Region → List Region → List Region
  | [], ts => ts
  | c :: cs, ts => track cs (if ts.any (·.covers c.addr) then ts else c :: ts)

/-- Both passes: a record stays if a region of the source list covers its
start. -/
def reconcile (cs ts : List Region) : List Region :=
  (track cs ts).filter fun t => cs.any (·.covers t.addr)

/-- When matching by range does what matching by identity would do. -/
structure Separated (cs ts : List Region) : Prop where
  /-- a record that is no region of the source list starts in none -/
  obsolete : ∀ t ∈ ts, t ∉ cs → ∀ c ∈ cs, c.covers t.addr = false
  /-- a region without a record starts in no record -/
  missing : ∀ c ∈ cs, c ∉ ts → ∀ t ∈ ts, t.covers c.addr = false
  /-- of two regions without a record, the one listed first does not end
  where the other starts -/
  chain : cs.Pairwise fun c d => c ∉ ts → d ∉ ts → c.addr + c.size ≠ d.addr

theorem subset_track (cs ts : List Region) : ∀ t ∈ ts, t ∈ track cs ts := by
  induction cs generalizing ts with
  | nil => exact fun _ h => h
  | cons c cs ih =>
      intro t ht
      refine ih _ t ?_
      split
      · exact ht
      · exact List.mem_cons_of_mem c ht

theorem mem_of_mem_track {cs ts : List Region} {t : Region} (h : t ∈ track cs ts) :
    t ∈ ts ∨ t ∈ cs := by
  induction cs generalizing ts with
  | nil => exact .inl h
  | cons c cs ih =>
      rcases ih h with h | h
      · split at h
        · exact .inl h
        · rcases List.mem_cons.mp h with rfl | h
          · exact .inr (by simp)
          · exact .inl h
      · exact .inr (by simp [h])

/-- The first pass adds exactly the regions without a record, if none of
them is covered when its turn comes. -/
theorem track_eq {cs ts : List Region} (hnd : cs.Nodup)
    (hmissing : ∀ c ∈ cs, c ∉ ts → ∀ t ∈ ts, t.covers c.addr = false)
    (hchain : cs.Pairwise fun c d => c ∉ ts → d ∉ ts → c.covers d.addr = false) :
    track cs ts = (cs.filter (· ∉ ts)).reverse ++ ts := by
  induction cs generalizing ts with
  | nil => rfl
  | cons c cs ih =>
      obtain ⟨hc, hnd⟩ := List.nodup_cons.mp hnd
      obtain ⟨hhead, hchain⟩ := List.pairwise_cons.mp hchain
      by_cases hin : c ∈ ts
      · have hany : ts.any (·.covers c.addr) = true :=
          List.any_eq_true.mpr ⟨c, hin, c.covers_self⟩
        rw [track, if_pos hany, List.filter_cons_of_neg (by simpa using hin)]
        exact ih hnd (fun d hd => hmissing d (by simp [hd])) hchain
      · have hany : ¬ts.any (·.covers c.addr) = true := by
          rw [List.any_eq_true]
          rintro ⟨t, ht, hcov⟩
          rw [hmissing c (by simp) hin t ht] at hcov
          exact absurd hcov (by decide)
        have hfilter : cs.filter (· ∉ c :: ts) = cs.filter (· ∉ ts) := by
          refine List.filter_congr fun d hd => ?_
          have hdc : d ≠ c := fun he => hc (he ▸ hd)
          simp [hdc]
        rw [track, if_neg hany, List.filter_cons_of_pos (by simpa using hin), List.reverse_cons,
          List.append_assoc, ih hnd, hfilter]
        · rfl
        · intro d hd hdn t ht
          have hdt : d ∉ ts := fun h => hdn (by simp [h])
          rcases List.mem_cons.mp ht with rfl | ht
          · exact hhead d hd hin hdt
          · exact hmissing d (by simp [hd]) hdt t ht
        · refine hchain.imp fun h ha hb => h (fun hm => ha ?_) (fun hm => hb ?_)
          · exact List.mem_cons_of_mem _ hm
          · exact List.mem_cons_of_mem _ hm

/-- If the first pass adds every region without a record, none of them
was covered when its turn came. -/
theorem missing_of_track {cs ts : List Region} (hnd : cs.Nodup)
    (h : ∀ c ∈ cs, c ∈ track cs ts) :
    (∀ c ∈ cs, c ∉ ts → ∀ t ∈ ts, t.covers c.addr = false) ∧
      cs.Pairwise fun c d => c ∉ ts → d ∉ ts → c.covers d.addr = false := by
  induction cs generalizing ts with
  | nil => exact ⟨by simp, List.Pairwise.nil⟩
  | cons c cs ih =>
      obtain ⟨hc, hnd⟩ := List.nodup_cons.mp hnd
      by_cases hany : ts.any (·.covers c.addr) = true
      · rw [track, if_pos hany] at h
        have hin : c ∈ ts := (mem_of_mem_track (h c (by simp))).resolve_right hc
        obtain ⟨hm, hp⟩ := ih hnd fun d hd => h d (by simp [hd])
        refine ⟨fun d hd hdn => ?_, List.pairwise_cons.mpr ⟨fun _ _ hn => absurd hin hn, hp⟩⟩
        rcases List.mem_cons.mp hd with rfl | hd
        · exact absurd hin hdn
        · exact hm d hd hdn
      · rw [track, if_neg hany] at h
        obtain ⟨hm, hp⟩ := ih hnd fun d hd => h d (by simp [hd])
        have hne : ∀ d ∈ cs, d ∉ ts → d ∉ c :: ts := by
          intro d hd hdn hmem
          rcases List.mem_cons.mp hmem with rfl | hmem
          · exact hc hd
          · exact hdn hmem
        have huncov : ∀ t ∈ ts, t.covers c.addr = false := by simpa using hany
        refine ⟨fun d hd hdn t ht => ?_, List.pairwise_cons.mpr ⟨fun d hd _ hdn => ?_, ?_⟩⟩
        · rcases List.mem_cons.mp hd with rfl | hd
          · exact huncov t ht
          · exact hm d hd (hne d hd hdn) t (by simp [ht])
        · exact hm d hd (hne d hd hdn) c (by simp)
        · refine hp.imp_of_mem fun ha hb hab hna hnb => hab (hne _ ha hna) (hne _ hb hnb)

/-- Regions apart from each other are distinct. -/
theorem nodup_of_apart {cs : List Region} (h : cs.Pairwise Apart) : cs.Nodup :=
  h.imp fun hab he => hab.addr_ne (congrArg addr he)

/-- For regions apart from each other, "ends where the other starts" and
"covers its start" say the same. -/
theorem chain_iff {cs ts : List Region} (h : cs.Pairwise Apart) :
    (cs.Pairwise fun c d => c ∉ ts → d ∉ ts → c.covers d.addr = false) ↔
      cs.Pairwise fun c d => c ∉ ts → d ∉ ts → c.addr + c.size ≠ d.addr := by
  have hiff : ∀ c d : Region, c.Apart d →
      (c.covers d.addr = false ↔ c.addr + c.size ≠ d.addr) := by
    intro c d hcd
    rw [ne_eq, ← hcd.covers_iff, Bool.not_eq_true]
  constructor
  · intro hp
    exact (h.and hp).imp fun hab hc hd => (hiff _ _ hab.1).mp (hab.2 hc hd)
  · intro hp
    exact (h.and hp).imp fun hab hc hd => (hiff _ _ hab.1).mpr (hab.2 hc hd)

/-- The records that are regions of the source list occur once each. -/
theorem filter_mem_perm {cs ts : List Region} (hcs : cs.Pairwise Apart)
    (hpos : ∀ c ∈ cs, 0 < c.size)
    (hts : ts.Pairwise fun s t => disjointRanges s.addr s.size t.addr t.size = true) :
    (ts.filter (· ∈ cs)).Perm (cs.filter (· ∈ ts)) := by
  refine (List.perm_ext_iff_of_nodup ?_ ((nodup_of_apart hcs).filter _)).mpr fun t => ?_
  · -- two equal disjoint records would be empty
    refine (hts.filter _).imp_of_mem fun {a b} ha _ hab he => ?_
    have h0 := hpos a (by simpa using (List.mem_filter.mp ha).2)
    rw [← he, disjointRanges_iff] at hab
    omega
  · simp [List.mem_filter, and_comm]

/-- **Matching by range is exact** if and only if the lists are
separated. -/
theorem reconcile_perm_iff {cs ts : List Region} (hcs : cs.Pairwise Apart)
    (hpos : ∀ c ∈ cs, 0 < c.size)
    (hts : ts.Pairwise fun s t => disjointRanges s.addr s.size t.addr t.size = true) :
    (reconcile cs ts).Perm cs ↔ Separated cs ts := by
  have hnd := nodup_of_apart hcs
  constructor
  · intro h
    have hall : ∀ c ∈ cs, c ∈ track cs ts := fun c hc =>
      (List.mem_filter.mp (h.symm.subset hc)).1
    obtain ⟨hmissing, hchain⟩ := missing_of_track hnd hall
    refine ⟨fun t ht htn c hc => ?_, hmissing, (chain_iff hcs).mp hchain⟩
    by_contra hcov
    refine htn (h.subset (List.mem_filter.mpr ⟨subset_track cs ts t ht, ?_⟩))
    exact List.any_eq_true.mpr ⟨c, hc, by simpa using hcov⟩
  · intro h
    have hkept : ts.filter (fun t => cs.any (·.covers t.addr)) = ts.filter (· ∈ cs) := by
      refine List.filter_congr fun t ht => ?_
      by_cases hin : t ∈ cs
      · simpa [hin] using ⟨t, hin, t.covers_self⟩
      · simpa [hin] using h.obsolete t ht hin
    have hnew : (cs.filter (· ∉ ts)).filter (fun t => cs.any (·.covers t.addr)) =
        cs.filter (· ∉ ts) := by
      refine List.filter_eq_self.mpr fun c hc => ?_
      exact List.any_eq_true.mpr ⟨c, (List.mem_filter.mp hc).1, c.covers_self⟩
    rw [reconcile, track_eq hnd h.missing ((chain_iff hcs).mpr h.chain), List.filter_append,
      List.filter_reverse, hnew, hkept]
    have hsplit : (cs.filter (· ∈ ts) ++ cs.filter (· ∉ ts)).Perm cs := by
      simpa using List.filter_append_perm (fun c => decide (c ∈ ts)) cs
    exact ((List.reverse_perm _).append (filter_mem_perm hcs hpos hts)).trans
      (List.perm_append_comm.trans hsplit)

end Region

/-- The record tests the range of its region. -/
theorem AttachedRegionInfo.toRegion_covers (info : AttachedRegionInfo) (addr : Nat) :
    info.toRegion.covers addr = info.covers addr := rfl

end Rtcr
