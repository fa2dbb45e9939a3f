import Rtcr.Checkpointer.Counts

/-!
# Checkpointer.CopySizes — how large the copy dataspaces are

A copy dataspace is as large as the window or the dataspace it was
allocated for, and every later user shares it. `Backed` follows the sizes
through a prepare phase. RAM dataspaces have their turn before attached
regions, so a dataspace that a RAM session lists is not copied in the size
of a window (`Backed.prepared`).
-/

namespace Rtcr

namespace Checkpointer

open Reconcile

/-! ## Entries and their users -/

/-- The number of users the entry of a badge counts. -/
def usersOf (infos : List OrigCopyCountInfo) (b : Nat) : Nat :=
  match infos.find? (isBadge b) with
  | some info => info.refCount
  | none => 0

theorem isBadge_disjoint {b b' : Nat} (hne : b ≠ b') (info : OrigCopyCountInfo)
    (h : isBadge b info = true) : isBadge b' info = false := by
  have hb : info.badge = b := beq_iff_eq.mp h
  unfold isBadge
  rw [hb]
  simpa using hne

theorem usersOf_modifyFirst (b b' : Nat) (n : Nat → Nat) (infos : List OrigCopyCountInfo)
    {known : OrigCopyCountInfo} (hfind : infos.find? (isBadge b) = some known) :
    usersOf
        (List.modifyFirst (isBadge b) (fun info => { info with refCount := n info.refCount }) infos)
      b' = if b' = b then n known.refCount else usersOf infos b' := by
  unfold usersOf
  by_cases he : b' = b
  · subst he
    have hself := List.find?_modifyFirst_self (p := isBadge b')
      (f := fun info => { info with refCount := n info.refCount }) (fun _ => rfl) infos
    rw [if_pos rfl, hself, hfind]
    rfl
  · rw [if_neg he]
    have hsame := List.find?_modifyFirst_of_disjoint (isBadge_disjoint he)
      (f := fun info => { info with refCount := n info.refCount }) (fun _ => rfl) infos
    rw [hsame]

/-- Every entry `fits`. The entry of a `tracked` badge counts all of
`refs` that name it. -/
structure Backed (fits : Cap → Nat → Prop) (tracked : Nat → Prop) (refs : Multiset Ref)
    (ck : Checkpointer) : Prop where
  fits : ∀ info ∈ ck.copyDataspaces, fits info.origDsCap info.size
  counted : ∀ b, tracked b → RefCount.uses refs b ≤ usersOf ck.copyDataspaces b

variable {fits : Cap → Nat → Prop} {tracked : Nat → Prop} {refs : Multiset Ref}
  {ck : Checkpointer}

theorem Backed.forget {refs' : Multiset Ref} (h : Backed fits tracked (refs + refs') ck) :
    Backed fits tracked refs ck := by
  refine ⟨h.fits, fun b hb => ?_⟩
  have hle := h.counted b hb
  rw [RefCount.uses_add] at hle
  omega

/-- A size only has to fit if the dataspace has no copy yet. -/
theorem Backed.use {excluded : Bool} {cap : Cap} {size : Nat} (h : Backed fits tracked refs ck)
    (hfits : ck.copyDataspaces.find? (isBadge cap.localName) = none → fits cap size)
    (hex : tracked cap.localName → excluded = false) :
    Backed fits tracked (refs + {(cap.localName, (ck.useCopyDataspace excluded cap size).1)})
      (ck.useCopyDataspace excluded cap size).2 := by
  unfold useCopyDataspace
  cases hfind : ck.copyDataspaces.find? (isBadge cap.localName) with
  | some known =>
      -- a known dataspace gets one more user
      refine ⟨fun info hinfo => ?_, fun b hb => ?_⟩
      · obtain ⟨x, hx, rfl | rfl⟩ := List.mem_modifyFirst hinfo
        · exact h.fits _ hx
        · exact h.fits x hx
      · have hle := h.counted b hb
        show _ ≤ usersOf (List.modifyFirst _ _ ck.copyDataspaces) b
        rw [usersOf_modifyFirst _ _ (· + 1) _ hfind, RefCount.uses_add, RefCount.uses_singleton]
        by_cases he : b = cap.localName
        · subst he
          simp only [usersOf, hfind] at hle
          simp
          omega
        · simpa [he, Ne.symm he] using hle
  | none =>
      dsimp only
      split
      · -- an excluded one gets no copy, and nothing tracked is excluded
        rename_i he
        refine ⟨h.fits, fun b hb => ?_⟩
        have hne : cap.localName ≠ b := by
          rintro rfl
          rw [hex hb] at he
          cases he
        simpa [hne] using h.counted b hb
      · refine ⟨fun info hinfo => ?_, fun b hb => ?_⟩
        · rcases List.mem_cons.mp hinfo with rfl | hinfo
          · exact hfits hfind
          · exact h.fits info hinfo
        · have hle := h.counted b hb
          show _ ≤ usersOf (⟨cap, ck.core.newDataspace.1, size, 1⟩ :: ck.copyDataspaces) b
          rw [RefCount.uses_add, RefCount.uses_singleton]
          by_cases he : cap.localName = b
          · subst he
            have hnew : isBadge cap.localName ⟨cap, ck.core.newDataspace.1, size, 1⟩ = true :=
              beq_self_eq_true _
            simp only [usersOf, hfind] at hle
            simp only [usersOf, List.find?_cons_of_pos hnew, if_true]
            omega
          · have hold : ¬isBadge b ⟨cap, ck.core.newDataspace.1, size, 1⟩ = true := by
              simpa [isBadge, OrigCopyCountInfo.badge] using he
            rw [if_neg he, add_zero]
            simpa only [usersOf, List.find?_cons_of_neg hold] using hle

theorem Backed.drop {b : Nat} {v : Cap} (h : Backed fits tracked (refs + {(b, v)}) ck) :
    Backed fits tracked refs (ck.dropCopyDataspace b) := by
  have hcounted : ∀ b', tracked b' →
      RefCount.uses refs b' + (if b = b' then 1 else 0) ≤ usersOf ck.copyDataspaces b' := by
    intro b' hb'
    have hle := h.counted b' hb'
    rwa [RefCount.uses_add, RefCount.uses_singleton] at hle
  unfold dropCopyDataspace
  cases hfind : ck.copyDataspaces.find? (isBadge b) with
  | none => exact h.forget
  | some known =>
      dsimp only
      split
      · -- the last user: nothing else names the badge
        rename_i hlast
        refine ⟨fun info hinfo => h.fits info (List.mem_of_mem_eraseP hinfo), fun b' hb' => ?_⟩
        have hle := hcounted b' hb'
        show _ ≤ usersOf (ck.copyDataspaces.eraseP (isBadge b)) b'
        by_cases he : b = b'
        · subst he
          simp only [usersOf, hfind, if_true] at hle
          omega
        · have hsame := List.find?_eraseP_of_disjoint (isBadge_disjoint (Ne.symm he)) ck.copyDataspaces
          simpa [usersOf, hsame, he] using hle
      · refine ⟨fun info hinfo => ?_, fun b' hb' => ?_⟩
        · obtain ⟨x, hx, rfl | rfl⟩ := List.mem_modifyFirst hinfo
          · exact h.fits _ hx
          · exact h.fits x hx
        · have hle := hcounted b' hb'
          show _ ≤ usersOf (List.modifyFirst _ _ ck.copyDataspaces) b'
          rw [usersOf_modifyFirst _ _ (· - 1) _ hfind]
          by_cases he : b = b'
          · subst he
            simp only [usersOf, hfind, if_true] at hle
            simp
            omega
          · simpa [he, Ne.symm he] using hle

/-! ## The prepare phase -/

/-- `base` are references that stay while others come and go. What they
name has an entry, and a window need not fit it. -/
theorem backed_weighing (fits : Cap → Nat → Prop) (tracked : Nat → Prop) (base : Multiset Ref) :
    Weighing
      (fun m ck => Backed fits tracked (base + m) ck ∧ ∀ b ∈ ck.regionMapDataspaces, ¬tracked b)
      (fun d => fits d.cap d.size)
      (fun info => fits info.attachedDsCap info.size ∨ tracked info.attachedDsCap.localName ∧
        0 < RefCount.uses base info.attachedDsCap.localName)
      (fun b => ¬tracked b) where
  recording _ := ⟨fun _ h => ⟨⟨h.1.fits, h.1.counted⟩, h.2⟩,
    fun _ _ h => ⟨⟨h.1.fits, h.1.counted⟩, h.2⟩⟩
  ram m d ck hd h := by
    rw [← add_assoc]
    refine ⟨h.1.use (fun _ => hd) fun _ => rfl, ?_⟩
    rw [useCopyDataspace_regionMapDataspaces]
    exact h.2
  attached m info ck hinfo h := by
    rw [← add_assoc]
    unfold attachedCopy
    refine ⟨h.1.use (fun hfind => ?_) fun htracked => ?_, ?_⟩
    · rcases hinfo with hfits | ⟨htracked, hused⟩
      · exact hfits
      · -- the entry that `base` needs is there
        have hle := h.1.counted _ htracked
        rw [RefCount.uses_add] at hle
        simp only [usersOf, hfind] at hle
        omega
    · rw [Bool.eq_false_iff, ne_eq, List.contains_iff_mem]
      exact fun hknown => h.2 _ hknown htracked
    · rw [useCopyDataspace_regionMapDataspaces]
      exact h.2
  drop m b v ck h := by
    rw [← add_assoc] at h
    refine ⟨h.1.drop, ?_⟩
    rw [dropCopyDataspace_regionMapDataspaces]
    exact h.2
  regionMap m b ck hb h := by
    refine ⟨⟨h.1.fits, h.1.counted⟩, fun b' hb' => ?_⟩
    rcases List.mem_cons.mp hb' with rfl | hb'
    · exact hb
    · exact h.2 b' hb'

/-- Every dataspace that a RAM session lists is named by a record, once
the RAM sessions have had their turn. -/
theorem ramSessions_used {cs : List RamSessionComponent} (hcs : (cs.map (·.cap.localName)).Nodup)
    {c : RamSessionComponent} (hc : c ∈ cs) {d : RamDataspaceInfo}
    (hd : d ∈ c.parentState.ramDataspaces) (ts : List StoredRamSessionInfo) (ck : Checkpointer) :
    0 < RefCount.uses (total ramSessionRefs (prepareRamSessions ts cs ck).1) d.cap.localName := by
  obtain ⟨t, ck', ht, -⟩ := ramSessionKind_keyed.exists_updated hcs hc ts ck
  obtain ⟨u, hu, hub⟩ := List.mem_map.mp
    ((ramDataspaceKind_keyed.mem_map_reconcile t.storedRamdsInfos c.parentState.ramDataspaces ck'
      d.cap.localName).mpr (List.mem_map_of_mem hd))
  have hrefs : total ramSessionRefs (prepareRamSessions ts cs ck).1 = total ramDataspaceRefs
      ((prepareRamSessions ts cs ck).1.flatMap (·.storedRamdsInfos)) := (total_flatMap ..).symm
  have hin : u ∈ (prepareRamSessions ts cs ck).1.flatMap (·.storedRamdsInfos) :=
    List.mem_flatMap.mpr ⟨_, ht, hu⟩
  have hmem := RefCount.mem_sum_map (fun t : StoredRamDataspaceInfo => t.badge) (·.memoryContent) hin
  rw [hrefs]
  exact Multiset.countP_pos.mpr ⟨_, hmem, hub⟩

/-- The region maps the child can attach to. -/
def regionMapsOf (s : CustomServices) : List RegionMapComponent :=
  s.pdRoot.flatMap areas ++ (sessionInfos s.rmRoot).flatMap (·.parentState.regionMaps)

/-- What the child's objects must be like: a RAM dataspace fits its entry,
and so does a window, unless a RAM session lists its dataspace. -/
structure FittingServices (fits : Cap → Nat → Prop) (tracked : Nat → Prop)
    (s : CustomServices) : Prop where
  sessions : (s.ramRoot.map (·.cap.localName)).Nodup
  ram : ∀ c ∈ s.ramRoot, ∀ d ∈ c.parentState.ramDataspaces, fits d.cap d.size
  regionMap : ∀ a ∈ regionMapsOf s, ¬tracked a.parentState.dsCap.localName
  attached : ∀ a ∈ regionMapsOf s, ∀ r ∈ a.parentState.attachedRegions,
    fits r.attachedDsCap r.size ∨ tracked r.attachedDsCap.localName ∧
      ∃ c ∈ s.ramRoot, ∃ d ∈ c.parentState.ramDataspaces,
        d.cap.localName = r.attachedDsCap.localName

/-- **The prepare phase** keeps the entries fitting. -/
theorem Backed.prepare {s : CustomServices} (hs : FittingServices fits tracked s)
    {st : TargetState} (h : Backed fits tracked (stateRefs st) ck)
    (hknown : ∀ b ∈ ck.regionMapDataspaces, ¬tracked b) :
    Backed fits tracked (stateRefs (Checkpointer.prepare s st ck).1)
      (Checkpointer.prepare s st ck).2 := by
  let ram := prepareRamSessions st.ramSessions s.ramRoot ck
  let pd := preparePdSessions st.pdSessions s.pdRoot ram.2
  let cpu := prepareCpuSessions st.cpuSessions s.cpuRoot pd.2
  let rm := prepareRoot prepareRmSessions st.rmSessions s.rmRoot cpu.2
  have hmap : ∀ a ∈ regionMapsOf s, Weighing.RegionMapOk (fun info => fits info.attachedDsCap info.size ∨
        tracked info.attachedDsCap.localName ∧
          0 < RefCount.uses (total ramSessionRefs ram.1) info.attachedDsCap.localName)
        (fun b => ¬tracked b) a := by
    intro a ha
    refine ⟨hs.regionMap a ha, fun r hr => ?_⟩
    rcases hs.attached a ha r hr with hfits | ⟨htracked, c, hc, d, hd, hbadge⟩
    · exact .inl hfits
    · exact .inr ⟨htracked, hbadge ▸ ramSessions_used hs.sessions hc hd st.ramSessions ck⟩
  have hforget : ∀ base m m' ck', Backed fits tracked (base + (m + m')) ck' ∧
      (∀ b ∈ ck'.regionMapDataspaces, ¬tracked b) → Backed fits tracked (base + m) ck' ∧
      (∀ b ∈ ck'.regionMapDataspaces, ¬tracked b) := by
    intro base m m' ck' hck'
    rw [← add_assoc] at hck'
    exact ⟨hck'.1.forget, hck'.2⟩
  -- the references of the other kinds stay in front
  have h1 : Backed fits tracked (0 + (total rmSessionRefs st.rmSessions +
      total pdSessionRefs st.pdSessions + total ramSessionRefs ram.1)) ram.2 ∧
      ∀ b ∈ ram.2.regionMapDataspaces, ¬tracked b := by
    have hplain : ∀ c ∈ s.ramRoot, ∀ d ∈ c.parentState.ramDataspaces, fits d.cap d.size ∧ True :=
      fun c hc d hd => ⟨hs.ram c hc d hd, trivial⟩
    refine (@Weighing.ramSessions _ _ _ _ (backed_weighing fits tracked 0) (fun _ => True) _
      hplain).reconcile (fun _ _ _ _ => trivial) _ ⟨?_, hknown⟩
    rwa [zero_add, add_comm, add_comm (total rmSessionRefs st.rmSessions), ← add_assoc]
  let hw := backed_weighing fits tracked (total ramSessionRefs ram.1)
  have h2 : Backed fits tracked (total ramSessionRefs ram.1 +
      (total rmSessionRefs st.rmSessions + total pdSessionRefs pd.1)) pd.2 ∧
      ∀ b ∈ pd.2.regionMapDataspaces, ¬tracked b := by
    refine (hw.pdSessions_of_forget (hforget _) fun c hc a ha => hmap a ?_).reconcile
      (fun _ _ => trivial) _ ⟨?_, h1.2⟩
    · exact List.mem_append_left _ (List.mem_flatMap.mpr ⟨c, hc, ha⟩)
    · have h1' := h1.1
      rwa [zero_add, add_comm] at h1'
  have h3 : Backed fits tracked (total ramSessionRefs ram.1 +
      (total pdSessionRefs pd.1 + total rmSessionRefs st.rmSessions)) cpu.2 ∧
      ∀ b ∈ cpu.2.regionMapDataspaces, ¬tracked b := by
    rw [add_comm (total pdSessionRefs pd.1)]
    exact (hw.recording _).cpuSessions.reconcile _ _ h2
  have h4 : Backed fits tracked (total ramSessionRefs ram.1 +
      (total pdSessionRefs pd.1 + total rmSessionRefs rm.1)) rm.2 ∧
      ∀ b ∈ rm.2.regionMapDataspaces, ¬tracked b :=
    hw.rmRoot (fun c hc d hd => hmap d (List.mem_append_right _ (List.mem_flatMap.mpr ⟨c, hc, hd⟩)))
      _ h3
  have h5 := prepareRoot_keeps (hw.recording _).timerSessions st.timerSessions s.timerRoot
    (prepareRoot_keeps (hw.recording _).logSessions st.logSessions s.logRoot h4)
  rw [← add_assoc] at h5
  exact h5.1

/-! ## A call -/

theorem SameObjects.fitting {s s' : CustomServices} (h : SameObjects s s')
    (hs : FittingServices fits tracked s) : FittingServices fits tracked s' := by
  have hmaps : regionMapsOf s' = regionMapsOf s := by
    unfold regionMapsOf
    rw [h.pd, h.rm]
  refine ⟨h.ram.badges ▸ hs.sessions, fun c' hc' d' hd' => ?_, hmaps ▸ hs.regionMap,
    fun a ha r hr => ?_⟩
  · obtain ⟨c, hc, he⟩ := List.exists_of_map_eq h.ram hc'
    obtain ⟨d, hd, hde⟩ := List.exists_of_map_eq (RamSessionComponent.dataspaces_of_outline he) hd'
    have hsize : d'.size = d.size := congrArg (·.size) hde
    rw [RamDataspaceInfo.cap_of_outline hde, hsize]
    exact hs.ram c hc d hd
  · rw [hmaps] at ha
    refine (hs.attached a ha r hr).imp_right fun ⟨htracked, c, hc, d, hd, hbadge⟩ => ?_
    obtain ⟨c', hc', he⟩ := List.exists_of_map_eq (f := RamSessionComponent.outline)
      (Eq.symm h.ram) hc
    obtain ⟨d', hd', hde⟩ := List.exists_of_map_eq (RamSessionComponent.dataspaces_of_outline he) hd
    refine ⟨htracked, c', hc', d', hd', ?_⟩
    rw [← hbadge, RamDataspaceInfo.cap_of_outline hde]

variable {st : TargetState} {child : TargetChild}

theorem Backed.prepared (h : Backed fits tracked (stateRefs st) ck)
    (hs : FittingServices fits tracked child.services) :
    Backed fits tracked (stateRefs (ck.prepared st child).1) (ck.prepared st child).2 := by
  have hsame := ck.prepareChild_sameObjects child
  have hset : Backed fits tracked (stateRefs { st with capIdxAllocAddr := child.capMapInfo })
      (ck.setUp (ck.prepareChild child) (child.capabilityMap ck.core)) := ⟨h.fits, h.counted⟩
  refine hset.prepare (hsame.fitting hs) fun b hb => ?_
  have hb' : b ∈ createRegionMapDataspaces child.services.pdRoot child.services.rmRoot := by
    rw [← hsame.pd, ← hsame.rm]
    exact hb
  obtain ⟨a, ha, rfl⟩ := List.mem_map.mp ((mem_createRegionMapDataspaces child b).mp hb')
  exact hs.regionMap a ha

/-- **One call** keeps the entries fitting, whether it returns or not. -/
theorem Backed.checkpoint (h : Backed fits tracked (stateRefs st) ck)
    (hs : FittingServices fits tracked child.services) :
    Backed fits tracked (stateRefs (ck.checkpoint st child).state)
      (ck.checkpoint st child).checkpointer := by
  have hprep := h.prepared hs
  rcases checkpoint_cases ck st child with ⟨hstate, hck⟩ | ⟨hstate, _, _, _, hck⟩
  · rw [hstate, hck]
    exact ⟨h.fits, h.counted⟩
  · rw [hstate, hck]
    exact ⟨hprep.fits, hprep.counted⟩

end Checkpointer

end Rtcr
