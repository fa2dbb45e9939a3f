import Rtcr.Restorer.Steps

/-!
# Restorer.Turns — the turn of one stored object

The phase works through the stored objects one after the other. What one
turn has entered in the translation stays there, and the object it is
about stays in its list.
-/

namespace Rtcr

open Fallible

/-! ## Objects in a list -/

theorem findByBadge_cons {α : Type} (key : α → Nat) (b : Nat) (x : α) (l : List α) :
    findByBadge key b (x :: l) = if key x = b then some x else findByBadge key b l := by
  unfold findByBadge
  by_cases h : key x = b
  · rw [if_pos h, List.find?_cons_of_pos (p := fun x => key x == b) (by simpa using h)]
  · rw [if_neg h, List.find?_cons_of_neg (p := fun x => key x == b) (by simpa using h)]

theorem findByBadge_modifyFirst_same {α : Type} {key : α → Nat} {l : List α} {c d : α}
    (h : findByBadge key (key d) l = some c) :
    findByBadge key (key d) (List.modifyFirst (fun x => key x == key d) (fun _ => d) l) = some d := by
  induction l with
  | nil => cases h
  | cons x l ih =>
      by_cases hx : key x = key d
      · rw [List.modifyFirst, if_pos (by simpa using hx), findByBadge_cons, if_pos rfl]
      · rw [findByBadge_cons, if_neg hx] at h
        rw [List.modifyFirst, if_neg (by simpa using hx), findByBadge_cons, if_neg hx]
        exact ih h

theorem findByBadge_modifyFirst_ne {α : Type} {key : α → Nat} {l : List α} {d : α} {b : Nat}
    (h : b ≠ key d) :
    findByBadge key b (List.modifyFirst (fun x => key x == key d) (fun _ => d) l) =
      findByBadge key b l := by
  induction l with
  | nil => rfl
  | cons x l ih =>
      by_cases hx : key x = key d
      · rw [List.modifyFirst, if_pos (by simpa using hx), findByBadge_cons, findByBadge_cons,
          if_neg (Ne.symm h), if_neg (hx ▸ Ne.symm h)]
      · rw [List.modifyFirst, if_neg (by simpa using hx), findByBadge_cons, findByBadge_cons, ih]

/-! ## Ahead -/

/-- Badges only go up, translations only come in front. -/
structure Restorer.Ahead (r r' : Restorer) : Prop where
  le : r.core.nextBadge ≤ r'.core.nextBadge
  suffix : r.ckptToRestoInfos <:+ r'.ckptToRestoInfos

theorem Restorer.Ahead.refl (r : Restorer) : r.Ahead r := ⟨Nat.le_refl _, List.suffix_refl _⟩

theorem Restorer.Ahead.trans {r r₁ r₂ : Restorer} (h : r.Ahead r₁) (h' : r₁.Ahead r₂) :
    r.Ahead r₂ := ⟨h.le.trans h'.le, h.suffix.trans h'.suffix⟩

/-! ## Lookups -/

section Lookups

variable {r : Restorer}

theorem Restorer.translate_congr {r' : Restorer} (h : r'.ckptToRestoInfos = r.ckptToRestoInfos)
    (badge : Nat) : r'.translate badge = r.translate badge := by
  unfold Restorer.translate
  rw [h]

/-- Different badges: every entry of the translation is found. -/
def Restorer.Unambiguous (r : Restorer) : Prop := (r.ckptToRestoInfos.map (·.ckptBadge)).Nodup

theorem Restorer.Unambiguous.translate (h : r.Unambiguous) {e : CkptRestoBadgeInfo}
    (he : e ∈ r.ckptToRestoInfos) : r.translate e.ckptBadge = some e.restoCap := by
  unfold Restorer.translate
  cases hfind : findByBadge (·.ckptBadge) e.ckptBadge r.ckptToRestoInfos with
  | none => exact absurd (List.mem_map_of_mem he) (findByBadge_eq_none.mp hfind)
  | some e' =>
      obtain ⟨he', hbadge⟩ := findByBadge_some hfind
      rw [List.inj_on_of_nodup_map h he' he hbadge]
      rfl

theorem Restorer.Unambiguous.congr {r' : Restorer} (h : r.Unambiguous)
    (htable : r'.ckptToRestoInfos = r.ckptToRestoInfos) : r'.Unambiguous := by
  unfold Restorer.Unambiguous
  rw [htable]
  exact h

end Lookups

/-! ## One turn -/

namespace RestoKind

variable {τ χ : Type} {k : RestoKind τ χ} {stored : List τ} {objects objects' : List χ}
  {r r' : Restorer}

/-- The child's object with a capability. -/
def find (k : RestoKind τ χ) (cap : Cap) (objects : List χ) : Option χ :=
  findByBadge (fun c => (k.cap c).localName) cap.localName objects

/-- A new object has a new capability; its parts leave it alone. -/
structure Lawful (k : RestoKind τ χ) : Prop where
  recreate : ∀ t r c r₁, k.recreate t r = .ok (c, r₁) →
    r.core.nextBadge ≤ (k.cap c).localName ∧ (k.cap c).localName < r₁.core.nextBadge ∧
      r₁.ckptToRestoInfos = r.ckptToRestoInfos
  parts : ∀ t c r c' r', k.parts t c r = .ok (c', r') → k.cap c' = k.cap c ∧ r.Ahead r'

/-- The object of `t` was there. -/
structure Identified (k : RestoKind τ χ) (t : τ) (x x' : List χ × Restorer) (c c' : χ) : Prop where
  identify : k.identify t x.1 = .ok (some (k.cap c))
  before : k.find (k.cap c) x.1 = some c
  objects : x'.1 =
    List.modifyFirst (fun d => (k.cap d).localName == (k.cap c).localName) (fun _ => c') x.1

/-- The object of `t` is a new one. -/
structure Recreated (k : RestoKind τ χ) (t : τ) (x x' : List χ × Restorer) (c c' : χ) : Prop where
  identify : k.identify t x.1 = .ok none
  recreate : ∃ r₁, k.recreate t x.2 = .ok (c, r₁)
  fresh : x.2.core.nextBadge ≤ (k.cap c).localName
  below : (k.cap c).localName < x'.2.core.nextBadge
  objects : x'.1 = c' :: x.1

/-- The turn of `t`: its object `c`, and what its parts make of it. -/
structure Turn (k : RestoKind τ χ) (t : τ) (x x' : List χ × Restorer) (c c' : χ) : Prop where
  origin : k.Identified t x x' c c' ∨ k.Recreated t x x' c c'
  parts : ∃ r₁, x.2.Ahead r₁ ∧ k.parts t c r₁ = .ok (c', x'.2)
  ahead : x.2.Ahead x'.2
  entry : ⟨k.badge t, k.cap c⟩ ∈ x'.2.ckptToRestoInfos
  cap : k.cap c' = k.cap c
  after : k.find (k.cap c) x'.1 = some c'

theorem Lawful.step (hk : k.Lawful) {t : τ} {x x' : List χ × Restorer} (h : k.step t x = .ok x') :
    ∃ c c', k.Turn t x x' c c' := by
  obtain ⟨objects, r⟩ := x
  obtain ⟨objects', r'⟩ := x'
  rcases k.step_cases h with ⟨c, c', hid, hfind, hp, rfl⟩ | ⟨c, c', r₁, hid, hr, hp, rfl⟩
  · obtain ⟨hcap, hahead⟩ := hk.parts t c _ c' r' hp
    have hentry : r.Ahead (r.addTranslation (k.badge t) (k.cap c)) :=
      ⟨Nat.le_refl _, List.suffix_cons _ _⟩
    refine ⟨c, c', .inl ⟨hid, hfind, rfl⟩, ⟨_, hentry, hp⟩, hentry.trans hahead,
      hahead.suffix.subset List.mem_cons_self, hcap, ?_⟩
    show k.find (k.cap c) (List.modifyFirst _ _ objects) = some c'
    rw [← hcap] at hfind ⊢
    exact @findByBadge_modifyFirst_same _ (fun c => (k.cap c).localName) _ _ _ hfind
  · obtain ⟨hlo, hhi, htable⟩ := hk.recreate t r c r₁ hr
    obtain ⟨hcap, hahead⟩ := hk.parts t c _ c' r' hp
    have hentry : r.Ahead ((r₁.addKcap (k.kcap t) (k.cap c)).addTranslation (k.badge t) (k.cap c)) := by
      refine ⟨(by show r.core.nextBadge ≤ r₁.core.nextBadge; omega), ?_⟩
      show r.ckptToRestoInfos <:+ _ :: r₁.ckptToRestoInfos
      rw [htable]
      exact List.suffix_cons _ _
    refine ⟨c, c', .inr ⟨hid, ⟨r₁, hr⟩, hlo, hhi.trans_le hahead.le, rfl⟩, ⟨_, hentry, hp⟩,
      hentry.trans hahead, hahead.suffix.subset List.mem_cons_self, hcap, ?_⟩
    show findByBadge _ _ (c' :: objects) = some c'
    rw [findByBadge_cons, if_pos (congrArg Cap.localName hcap)]

theorem Lawful.run_ahead (hk : k.Lawful) (h : k.run stored objects r = .ok (objects', r')) :
    r.Ahead r' := by
  refine loop_rel (I := fun _ _ => True) (R := fun _ (x x' : List χ × Restorer) => x.2.Ahead x'.2)
    (fun x _ => .refl x.2) (fun _ _ _ _ _ _ => trivial) ?_ h trivial
  intro t ts x x₁ x' _ hstep hrest
  obtain ⟨c, c', hturn⟩ := hk.step hstep
  exact hturn.ahead.trans hrest

/-- The turn of `t` leaves the object with this capability alone. -/
def Spares (k : RestoKind τ χ) (cap : Cap) (t : τ) : Prop :=
  (∀ objects, k.identify t objects ≠ .ok (some cap)) ∨
    ∀ c r c' r', k.parts t c r = .ok (c', r') → c' = c

theorem Turn.others {t : τ} {x x' : List χ × Restorer} {c c' : χ} (h : k.Turn t x x' c c')
    {cap : Cap} (hcap : cap.localName < x.2.core.nextBadge) (hsp : k.Spares cap t) :
    k.find cap x'.1 = k.find cap x.1 := by
  rcases h.origin with hid | hnew
  · rw [hid.objects]
    by_cases he : cap = k.cap c
    · rcases hsp with hsp | hsp
      · exact absurd (he ▸ hid.identify) (hsp x.1)
      · obtain ⟨r₁, -, hp⟩ := h.parts
        obtain rfl := hsp c r₁ c' _ hp
        rw [List.modifyFirst_find hid.before]
    · have hne : cap.localName ≠ (k.cap c').localName := by
        rw [h.cap]
        exact fun hname => he (Cap.ext_localName hname)
      rw [← h.cap]
      exact @findByBadge_modifyFirst_ne _ (fun c => (k.cap c).localName) _ _ _ hne
  · rw [hnew.objects]
    have hlo := hnew.fresh
    unfold find
    rw [findByBadge_cons, if_neg]
    intro he
    rw [h.cap] at he
    omega

theorem Lawful.run_others (hk : k.Lawful) (h : k.run stored objects r = .ok (objects', r'))
    {cap : Cap} (hcap : cap.localName < r.core.nextBadge) (hsp : ∀ t ∈ stored, k.Spares cap t) :
    k.find cap objects' = k.find cap objects := by
  refine loop_rel
    (I := fun ts (x : List χ × Restorer) =>
      cap.localName < x.2.core.nextBadge ∧ ∀ t ∈ ts, k.Spares cap t)
    (R := fun _ (x x' : List χ × Restorer) => k.find cap x'.1 = k.find cap x.1)
    (fun _ _ => rfl) ?_ ?_ h ⟨hcap, hsp⟩
  · intro t ts x x₁ ⟨hx, hts⟩ hstep
    obtain ⟨c, c', hturn⟩ := hk.step hstep
    exact ⟨hx.trans_le hturn.ahead.le, fun u hu => hts u (List.mem_cons_of_mem _ hu)⟩
  · intro t ts x x₁ x' ⟨hx, hts⟩ hstep hrest
    obtain ⟨c, c', hturn⟩ := hk.step hstep
    exact hrest.trans (hturn.others hx (hts t List.mem_cons_self))

/-- All objects of the list have been handed out. -/
def Below (k : RestoKind τ χ) (x : List χ × Restorer) : Prop :=
  ∀ c ∈ x.1, (k.cap c).localName < x.2.core.nextBadge

theorem Turn.cap_below {t : τ} {x x' : List χ × Restorer} {c c' : χ} (h : k.Turn t x x' c c')
    (hx : k.Below x) : (k.cap c).localName < x'.2.core.nextBadge := by
  rcases h.origin with hid | hnew
  · exact (hx c (findByBadge_some hid.before).1).trans_le h.ahead.le
  · exact hnew.below

theorem Turn.keeps_below {t : τ} {x x' : List χ × Restorer} {c c' : χ} (h : k.Turn t x x' c c')
    (hx : k.Below x) : k.Below x' := by
  intro d hd
  have hc := h.cap_below hx
  rw [← h.cap] at hc
  rcases h.origin with hid | hnew
  · rw [hid.objects] at hd
    obtain ⟨y, hy, rfl | rfl⟩ := List.mem_modifyFirst hd
    · exact (hx d hy).trans_le h.ahead.le
    · exact hc
  · rw [hnew.objects] at hd
    rcases List.mem_cons.mp hd with rfl | hd
    · exact hc
    · exact (hx d hd).trans_le h.ahead.le

theorem Lawful.run_below (hk : k.Lawful) (h : k.run stored objects r = .ok (objects', r'))
    (hx : k.Below (objects, r)) : k.Below (objects', r') := by
  refine loop_keeps (I := k.Below) ?_ h hx
  intro t _ x x' hx hstep
  obtain ⟨c, c', hturn⟩ := hk.step hstep
  exact hturn.keeps_below hx

/-- **One stored object in a whole run**: after its turn, what became of
its object is found in the list to the end, if the later ones spare it. -/
theorem Lawful.run_turn (hk : k.Lawful) (h : k.run stored objects r = .ok (objects', r'))
    (hx : k.Below (objects, r)) {t : τ} (ht : t ∈ stored)  :
    ∃ before after x₁ x₂ c c', stored = before ++ t :: after ∧
      k.run before objects r = .ok x₁ ∧ k.Turn t x₁ x₂ c c' ∧ r.Ahead x₁.2 ∧ x₂.2.Ahead r' ∧
      ((∀ u ∈ after, k.Spares (k.cap c) u) → k.find (k.cap c) objects' = some c') := by
  obtain ⟨before, after, x₁, x₂, rfl, hbefore, hstep, hafter⟩ := loop_turn h ht
  obtain ⟨c, c', hturn⟩ := hk.step hstep
  refine ⟨before, after, x₁, x₂, c, c', rfl, hbefore, hturn, hk.run_ahead hbefore,
    hk.run_ahead hafter, fun hsp => ?_⟩
  rw [hk.run_others hafter (hturn.cap_below (hk.run_below hbefore hx)) hsp]
  exact hturn.after

/-- Sessions: at most one stored session is the one of bootstrap, and that
one is `first`. -/
theorem Lawful.run_session (hk : k.Lawful) {boot : τ → Bool} {first : χ}
    (hid : ∀ t objects, k.identify t objects = .ok (if boot t then some (k.cap first) else none))
    (hone : stored.Pairwise fun a b => ¬(boot a = true ∧ boot b = true))
    (hfirst : k.find (k.cap first) objects = some first)
    (h : k.run stored objects r = .ok (objects', r')) (hx : k.Below (objects, r)) {t : τ}
    (ht : t ∈ stored) :
    ∃ x₁ x₂ c c', k.Turn t x₁ x₂ c c' ∧ r.Ahead x₁.2 ∧ x₂.2.Ahead r' ∧
      k.find (k.cap c) objects' = some c' ∧ (boot t = true → c = first) ∧
      (boot t = false → r.core.nextBadge ≤ (k.cap c).localName) := by
  have hlt : (k.cap first).localName < r.core.nextBadge := hx _ (findByBadge_some hfirst).1
  have hspares : ∀ u cap, (cap = k.cap first → boot u = false) → k.Spares cap u := by
    intro u cap hu
    refine .inl fun objects he => ?_
    rw [hid] at he
    split at he
    · rename_i hb
      rw [hu (Option.some.inj (Except.ok.inj he)).symm] at hb
      cases hb
    · cases he
  obtain ⟨before, after, x₁, x₂, c, c', rfl, hbefore, hturn, hahead, hahead', hfind⟩ :=
    hk.run_turn h hx ht
  obtain ⟨-, hlater, hearlier⟩ := List.pairwise_append.mp hone
  have hlater := (List.pairwise_cons.mp hlater).1
  cases hb : boot t with
  | true =>
      -- the lookup takes the bootstrapped session, and no earlier turn was for it
      have hcap : k.cap c = k.cap first := by
        rcases hturn.origin with hold | hnew
        · have he := hold.identify
          rw [hid, hb, if_pos rfl] at he
          exact (Option.some.inj (Except.ok.inj he)).symm
        · have he := hnew.identify
          rw [hid, hb, if_pos rfl] at he
          cases he
      have hc : c = first := by
        rcases hturn.origin with hold | hnew
        · have hstill : k.find (k.cap first) x₁.1 = some first := by
            rw [hk.run_others hbefore hlt fun u hu => hspares u _ fun _ => ?_, hfirst]
            have hnot := hearlier u hu t List.mem_cons_self
            simpa [hb] using hnot
          have hbefore := hold.before
          rw [hcap, hstill] at hbefore
          exact (Option.some.inj hbefore).symm
        · have he := hnew.identify
          rw [hid, hb, if_pos rfl] at he
          cases he
      refine ⟨x₁, x₂, c, c', hturn, hahead, hahead', hfind fun u hu => hspares u _ fun _ => ?_,
        fun _ => hc, fun he => by cases he⟩
      have hnot := hlater u hu
      simpa [hb] using hnot
  | false =>
      -- a recreated session has a new badge, so no later turn finds it
      have hlo : r.core.nextBadge ≤ (k.cap c).localName := by
        rcases hturn.origin with hold | hnew
        · have he := hold.identify
          rw [hid, hb, if_neg Bool.false_ne_true] at he
          cases he
        · exact hahead.le.trans hnew.fresh
      refine ⟨x₁, x₂, c, c', hturn, hahead, hahead', hfind fun u hu => hspares u _ fun he => ?_,
        fun he => (by cases he), fun _ => hlo⟩
      rw [he] at hlo
      omega

/-- Objects of which none is there yet. -/
theorem Lawful.run_new (hk : k.Lawful) (hid : ∀ t objects, k.identify t objects = .ok none)
    (h : k.run stored objects r = .ok (objects', r')) (hx : k.Below (objects, r)) {t : τ}
    (ht : t ∈ stored) :
    ∃ x₁ x₂ c c', k.Turn t x₁ x₂ c c' ∧ r.Ahead x₁.2 ∧ x₂.2.Ahead r' ∧
      k.find (k.cap c) objects' = some c' ∧ k.Recreated t x₁ x₂ c c' := by
  obtain ⟨before, after, x₁, x₂, c, c', rfl, hbefore, hturn, hahead, hahead', hfind⟩ :=
    hk.run_turn h hx ht
  refine ⟨x₁, x₂, c, c', hturn, hahead, hahead', hfind fun u _ => .inl fun objects he => ?_, ?_⟩
  · rw [hid] at he
    cases he
  · rcases hturn.origin with hold | hnew
    · have he := hold.identify
      rw [hid] at he
      cases he
    · exact hnew

end RestoKind

section Heads

variable {g : Genode} {inBootstrap : Bool} {granularity : Nat} {r r' : Restorer}

theorem identifyRecreateRamSessions_head {stored : List StoredRamSessionInfo}
    {ramRoot ramRoot' : List RamSessionComponent}
    (h : identifyRecreateRamSessions g granularity inBootstrap stored ramRoot r =
      .ok (ramRoot', r')) :
    ∃ b, ramRoot.head? = some b ∧
      (ramSessionKind g granularity inBootstrap b).run stored ramRoot r = .ok (ramRoot', r') := by
  cases ramRoot with
  | nil => cases h
  | cons b _ => exact ⟨b, rfl, h⟩

theorem identifyRecreatePdSessions_head {stored : List StoredPdSessionInfo}
    {pdRoot pdRoot' : List PdSessionComponent}
    (h : identifyRecreatePdSessions g inBootstrap stored pdRoot r = .ok (pdRoot', r')) :
    ∃ b, pdRoot.head? = some b ∧
      (pdSessionKind g inBootstrap b).run stored pdRoot r = .ok (pdRoot', r') := by
  cases pdRoot with
  | nil => cases h
  | cons b _ => exact ⟨b, rfl, h⟩

theorem identifyRecreateCpuSessions_head {stored : List StoredCpuSessionInfo}
    {pdSessions : List PdSessionComponent} {cpuRoot cpuRoot' : List CpuSessionComponent}
    (h : identifyRecreateCpuSessions g inBootstrap stored pdSessions cpuRoot r =
      .ok (cpuRoot', r')) :
    ∃ b, cpuRoot.head? = some b ∧
      (cpuSessionKind g inBootstrap pdSessions b).run stored cpuRoot r = .ok (cpuRoot', r') := by
  cases cpuRoot with
  | nil => cases h
  | cons b _ => exact ⟨b, rfl, h⟩

end Heads

end Rtcr
