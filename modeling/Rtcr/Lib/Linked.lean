import Mathlib

/-!
# Linked — singly linked lists over cells with addresses

A cell holds a link word: the address of the next cell, or `null`.
`splice` inserts cells one after the other behind a moving predecessor,
as code does that never looks at what else the cells are linked to.
`splice_walk` is the intended use; `splice_iff` says for any use whether
the list survives it.
-/

namespace Linked

variable {κ ω : Type}

/-! ## Walks -/

/-- Following the links from the word `w` on meets the cells `l`, and then
`null`. -/
inductive Walk (null : ω) (addr link : κ → ω) : ω → List κ → Prop
  | nil : Walk null addr link null []
  | cons {c : κ} {l : List κ} (h : Walk null addr link (link c) l) :
      Walk null addr link (addr c) (c :: l)

/-- Different cells have different addresses, and none is `null`. -/
structure Addresses (null : ω) (addr : κ → ω) : Prop where
  injective : Function.Injective addr
  ne_null : ∀ c, addr c ≠ null

variable {null : ω} {addr link link' : κ → ω} {w : ω}

namespace Walk

theorem unique (ha : Addresses null addr) {l l' : List κ} (h : Walk null addr link w l)
    (h' : Walk null addr link w l') : l = l' := by
  induction h generalizing l' with
  | nil =>
      generalize hn : null = w at h'
      cases h' with
      | nil => rfl
      | cons => exact absurd hn.symm (ha.ne_null _)
  | @cons c l _ ih =>
      generalize hn : addr c = w at h'
      cases h' with
      | nil => exact absurd hn (ha.ne_null c)
      | cons h' =>
          obtain rfl := ha.injective hn
          rw [ih h']

theorem of_addr (ha : Addresses null addr) {l : List κ} {c : κ}
    (h : Walk null addr link (addr c) l) : ∃ l', l = c :: l' ∧ Walk null addr link (link c) l' := by
  generalize hn : addr c = w at h
  cases h with
  | nil => exact absurd hn (ha.ne_null c)
  | @cons c' l' h =>
      obtain rfl := ha.injective hn
      exact ⟨l', rfl, h⟩

/-- The walk from one of its cells on. -/
theorem drop {before l : List κ} {c : κ} (h : Walk null addr link w (before ++ c :: l)) :
    Walk null addr link (addr c) (c :: l) := by
  induction before generalizing w with
  | nil =>
      cases h with
      | cons h => exact .cons h
  | cons b before ih =>
      cases h with
      | cons h => exact ih h

theorem next {before l : List κ} {c : κ} (h : Walk null addr link w (before ++ c :: l)) :
    Walk null addr link (link c) l := by
  generalize hcl : c :: l = cl at h
  induction before generalizing w with
  | nil =>
      cases h with
      | nil => cases hcl
      | cons h =>
          cases hcl
          exact h
  | cons b before ih =>
      cases h with
      | cons h => exact ih h

/-- Only the last cell holds `null`. -/
theorem link_ne_null (ha : Addresses null addr) {before l : List κ} {c : κ}
    (h : Walk null addr link w (before ++ c :: l)) (hl : l ≠ []) : link c ≠ null := by
  intro hnull
  have hnext := h.next
  rw [hnull] at hnext
  exact hl (hnext.unique ha .nil)

/-- **No cell twice**: a walk that comes back to a cell does not end. -/
theorem nodup (ha : Addresses null addr) {l : List κ} (h : Walk null addr link w l) :
    l.Nodup := by
  induction h with
  | nil => exact List.nodup_nil
  | @cons c l h ih =>
      refine List.nodup_cons.mpr ⟨fun hc => ?_, ih⟩
      obtain ⟨before, after, rfl⟩ := List.append_of_mem hc
      have hlen := congrArg List.length (h.unique ha h.next)
      simp only [List.length_append, List.length_cons] at hlen
      omega

theorem congr {l : List κ} (hsame : ∀ c ∈ l, link' c = link c) (h : Walk null addr link w l) :
    Walk null addr link' w l := by
  induction h with
  | nil => exact .nil
  | @cons c l _ ih =>
      refine .cons ?_
      rw [hsame c (by simp)]
      exact ih fun x hx => hsame x (by simp [hx])

/-- The walk goes on otherwise from a cell on. -/
theorem divert {before l l' : List κ} {c : κ} (h : Walk null addr link w (before ++ c :: l))
    (hsame : ∀ x ∈ before, link' x = link x) (h' : Walk null addr link' (addr c) l') :
    Walk null addr link' w (before ++ l') := by
  induction before generalizing w with
  | nil =>
      cases h with
      | cons => exact h'
  | cons b before ih =>
      cases h with
      | cons h =>
          refine .cons ?_
          rw [hsame b (by simp)]
          exact ih h fun x hx => hsame x (by simp [hx])

end Walk

/-! ## Insertion -/

/-- The last cell of the row. -/
def lastOf (p : κ) (cs : List κ) : κ := (p :: cs).getLast (List.cons_ne_nil p cs)

theorem lastOf_cons (p c : κ) (cs : List κ) : lastOf p (c :: cs) = lastOf c cs :=
  List.getLast_cons (List.cons_ne_nil c cs)

theorem lastOf_eq {p y : κ} {cs before : List κ} (h : p :: cs = before ++ [y]) : lastOf p cs = y := by
  unfold lastOf
  simp only [h, List.getLast_append_singleton]

section Splice

variable [DecidableEq κ]

/-- The cell `c` takes over the link of `p`, and `p` links to `c`. -/
def insertAfter (addr : κ → ω) (p c : κ) (link : κ → ω) : κ → ω :=
  Function.update (Function.update link c (link p)) p (addr c)

/-- Insert cells one by one, each behind the one before. -/
def splice (addr : κ → ω) : κ → List κ → (κ → ω) → κ → ω
  | _, [], link => link
  | p, c :: cs, link => splice addr c cs (insertAfter addr p c link)

theorem insertAfter_self (p c : κ) : insertAfter addr p c link p = addr c :=
  Function.update_self ..

theorem insertAfter_new {p c : κ} (h : c ≠ p) : insertAfter addr p c link c = link p := by
  unfold insertAfter
  rw [Function.update_of_ne h, Function.update_self]

theorem insertAfter_other {p c x : κ} (hp : x ≠ p) (hc : x ≠ c) :
    insertAfter addr p c link x = link x := by
  unfold insertAfter
  rw [Function.update_of_ne hp, Function.update_of_ne hc]

/-- **The intended use**: new cells end up behind the predecessor, in
their order. -/
theorem splice_walk {cs before after : List κ} {p : κ}
    (h : Walk null addr link w (before ++ p :: after)) (hcs : cs.Nodup)
    (hnew : ∀ c ∈ cs, c ∉ before ++ p :: after) (ha : Addresses null addr) :
    Walk null addr (splice addr p cs link) w (before ++ p :: (cs ++ after)) := by
  induction cs generalizing before p link with
  | nil => exact h
  | cons c cs ih =>
      obtain ⟨hc, hcs⟩ := List.nodup_cons.mp hcs
      have hcnew := hnew c (by simp)
      have hcp : c ≠ p := fun he => hcnew (by simp [he])
      have hnodup := h.nodup ha
      have hpbefore : p ∉ before := fun hp =>
        (List.nodup_append.mp hnodup).2.2 p hp p (by simp) rfl
      have hpafter : p ∉ after :=
        (List.nodup_cons.mp (List.nodup_append.mp hnodup).2.1).1
      have hone : Walk null addr (insertAfter addr p c link) w (before ++ p :: c :: after) := by
        refine h.divert (fun x hx => insertAfter_other ?_ ?_) (.cons ?_)
        · exact fun he => hpbefore (he ▸ hx)
        · exact fun he => hcnew (by simp [← he, hx])
        · rw [insertAfter_self]
          refine .cons ?_
          rw [insertAfter_new hcp]
          refine h.next.congr fun x hx => insertAfter_other ?_ ?_
          · exact fun he => hpafter (he ▸ hx)
          · exact fun he => hcnew (by simp [← he, hx])
      rw [List.append_cons] at hone
      have hrest := ih hone hcs fun x hx hmem => by
        simp only [List.mem_append, List.mem_cons, List.not_mem_nil, or_false] at hmem
        rcases hmem with (hb | rfl) | rfl | hafter
        · exact hnew x (by simp [hx]) (by simp [hb])
        · exact hnew x (by simp [hx]) (by simp)
        · exact hc hx
        · exact hnew x (by simp [hx]) (by simp [hafter])
      rw [List.append_assoc] at hrest
      exact hrest

/-! ## Any use -/

theorem splice_other {cs : List κ} {p x : κ} (hx : x ∉ p :: cs) :
    splice addr p cs link x = link x := by
  induction cs generalizing p link with
  | nil => rfl
  | cons c cs ih =>
      rw [splice, ih fun h => hx (List.mem_cons_of_mem p h)]
      exact insertAfter_other (fun he => hx (by simp [he])) (fun he => hx (by simp [he]))

/-- A cell links to what has followed it the last time. -/
theorem splice_follow {cs before after : List κ} {p x y : κ}
    (h : p :: cs = before ++ x :: y :: after) (hx : x ∉ y :: after) :
    splice addr p cs link x = addr y := by
  induction cs generalizing p link before with
  | nil =>
      have hlen := congrArg List.length h
      simp only [List.length_append, List.length_cons, List.length_nil] at hlen
      omega
  | cons c cs ih =>
      cases before with
      | nil =>
          rw [List.nil_append, List.cons.injEq, List.cons.injEq] at h
          obtain ⟨rfl, rfl, rfl⟩ := h
          rw [splice, splice_other hx]
          exact insertAfter_self ..
      | cons b before =>
          rw [List.cons_append, List.cons.injEq] at h
          exact ih h.2

/-- The last cell takes over the link of the predecessor, as long as no
cell comes twice in a row. -/
theorem splice_last {cs : List κ} {p : κ} (h : (p :: cs).IsChain (· ≠ ·)) :
    splice addr p cs link (lastOf p cs) = link p := by
  induction cs generalizing p link with
  | nil => rfl
  | cons c cs ih =>
      rw [List.isChain_cons_cons] at h
      rw [splice, lastOf_cons, ih h.2]
      exact insertAfter_new h.1.symm

/-- Otherwise it links back into the row. -/
theorem splice_last_back {cs : List κ} {p : κ} (h : ¬(p :: cs).IsChain (· ≠ ·)) :
    ∃ y ∈ p :: cs, splice addr p cs link (lastOf p cs) = addr y := by
  induction cs generalizing p link with
  | nil => exact absurd (List.isChain_singleton p) h
  | cons c cs ih =>
      rw [List.isChain_cons_cons] at h
      rw [splice, lastOf_cons]
      by_cases hcs : (c :: cs).IsChain (· ≠ ·)
      · have hcp : c = p := by
          by_contra hne
          exact h ⟨Ne.symm hne, hcs⟩
        refine ⟨p, by simp, ?_⟩
        rw [splice_last hcs, hcp]
        exact insertAfter_self ..
      · obtain ⟨y, hy, he⟩ := ih hcs
        exact ⟨y, List.mem_cons_of_mem p hy, he⟩

/-- From the cell `x` on along the row `q`: what has followed a cell the
last time comes next. -/
def trailFrom : List κ → κ → List κ
  | [], _ => []
  | y :: q, x =>
      if x ∈ q then trailFrom q x
      else if x = y then
        y :: match q with
          | [] => []
          | z :: _ => trailFrom q z
      else []

theorem self_mem_trailFrom {q : List κ} {x : κ} (hx : x ∈ q) : x ∈ trailFrom q x := by
  induction q with
  | nil => cases hx
  | cons y q ih =>
      unfold trailFrom
      by_cases h : x ∈ q
      · rw [if_pos h]
        exact ih h
      · have hy : x = y := (List.mem_cons.mp hx).resolve_right h
        rw [if_neg h, if_pos hy, hy]
        simp

section Row

variable {cs : List κ} {p : κ}

/-- The walk from a cell of the row on, if the row has an end. -/
theorem walk_trailFrom {rest : List κ}
    (hlast : splice addr p cs link (lastOf p cs) = link p)
    (hrest : Walk null addr (splice addr p cs link) (link p) rest) {before q : List κ} {x : κ}
    (hq : p :: cs = before ++ q) (hx : x ∈ q) :
    Walk null addr (splice addr p cs link) (addr x) (trailFrom q x ++ rest) := by
  induction q generalizing before x with
  | nil => cases hx
  | cons y q ih =>
      have hq' : p :: cs = (before ++ [y]) ++ q := by rw [hq, List.append_cons]
      unfold trailFrom
      by_cases h : x ∈ q
      · rw [if_pos h]
        exact ih hq' h
      · obtain rfl : x = y := (List.mem_cons.mp hx).resolve_right h
        rw [if_neg h, if_pos rfl]
        refine .cons ?_
        cases q with
        | nil =>
            rw [lastOf_eq hq] at hlast
            rw [hlast]
            exact hrest
        | cons z q =>
            rw [splice_follow hq h]
            exact ih hq' (by simp)

/-- Who gets into the row gets to its last cell. -/
theorem lastOf_mem (ha : Addresses null addr) {l before q : List κ} {x : κ}
    (h : Walk null addr (splice addr p cs link) (addr x) l) (hq : p :: cs = before ++ q)
    (hx : x ∈ q) : lastOf p cs ∈ l := by
  induction q generalizing before x l with
  | nil => cases hx
  | cons y q ih =>
      have hq' : p :: cs = (before ++ [y]) ++ q := by rw [hq, List.append_cons]
      by_cases hmem : x ∈ q
      · exact ih h hq' hmem
      · obtain rfl : x = y := (List.mem_cons.mp hx).resolve_right hmem
        obtain ⟨l', rfl, hl'⟩ := h.of_addr ha
        cases q with
        | nil =>
            rw [lastOf_eq hq]
            simp
        | cons z q =>
            rw [splice_follow hq hmem] at hl'
            exact List.mem_cons_of_mem x (ih hl' hq' (by simp))

end Row

/-- The list `l` survives the insertion of `cs` behind `p`: it does not
meet the row at all, or no cell comes twice in a row, the list behind
`p` is clear of the row, and every cell from the first one in the row on
lies on the trail from there or behind `p`. -/
def Spliceable (null : ω) (addr link : κ → ω) (p : κ) (cs l : List κ) : Prop :=
  (∀ c ∈ l, c ∉ p :: cs) ∨
    (p :: cs).IsChain (· ≠ ·) ∧ ∃ rest, Walk null addr link (link p) rest ∧
      (∀ c ∈ rest, c ∉ p :: cs) ∧
      ∀ before x after, l = before ++ x :: after → (∀ c ∈ before, c ∉ p :: cs) → x ∈ p :: cs →
        ∀ c ∈ after, c ∈ trailFrom (p :: cs) x ∨ c ∈ rest

theorem exists_first {l : List κ} {q : List κ} (h : ¬∀ c ∈ l, c ∉ q) :
    ∃ before x after, l = before ++ x :: after ∧ (∀ c ∈ before, c ∉ q) ∧ x ∈ q := by
  have hsome : (l.find? fun c => decide (c ∈ q)).isSome = true := by
    rw [List.find?_isSome]
    simp only [not_forall, not_not] at h
    obtain ⟨c, hc, hq⟩ := h
    exact ⟨c, hc, by simpa using hq⟩
  obtain ⟨x, hfind⟩ := Option.isSome_iff_exists.mp hsome
  obtain ⟨hx, before, after, hl, hbefore⟩ := List.find?_eq_some_iff_append.mp hfind
  exact ⟨before, x, after, hl, fun c hc => by simpa using hbefore c hc, by simpa using hx⟩

theorem splice_survives {l cs : List κ} {p : κ}
    (h : Walk null addr link w l) (hs : Spliceable null addr link p cs l) :
    ∃ l', Walk null addr (splice addr p cs link) w l' ∧ ∀ c ∈ l, c ∈ l' := by
  by_cases hclear : ∀ c ∈ l, c ∉ p :: cs
  · exact ⟨l, h.congr fun c hc => splice_other (hclear c hc), fun _ hc => hc⟩
  · obtain ⟨hchain, rest, hrest, hrestclear, hcover⟩ := hs.resolve_left hclear
    obtain ⟨before, x, after, rfl, hbefore, hx⟩ := exists_first hclear
    have hrest' := hrest.congr fun c hc => @splice_other _ _ addr link _ cs p c (hrestclear c hc)
    have htrail := walk_trailFrom (splice_last hchain) hrest' (List.nil_append _).symm hx
    refine ⟨_, h.divert (fun c hc => splice_other (hbefore c hc)) htrail, fun c hc => ?_⟩
    simp only [List.mem_append, List.mem_cons] at hc ⊢
    rcases hc with hc | rfl | hc
    · exact .inl hc
    · exact .inr (.inl (self_mem_trailFrom hx))
    · exact .inr (hcover before x after rfl hbefore hx c hc)

/-- **Any use**: the list still ends and has lost no cell, exactly where
it is spliceable. -/
theorem splice_iff (ha : Addresses null addr) {l cs : List κ} {p : κ}
    (h : Walk null addr link w l) :
    (∃ l', Walk null addr (splice addr p cs link) w l' ∧ ∀ c ∈ l, c ∈ l') ↔
      Spliceable null addr link p cs l := by
  refine ⟨fun ⟨l', hl', hsub⟩ => ?_, splice_survives h⟩
  by_cases hclear : ∀ c ∈ l, c ∉ p :: cs
  · exact .inl hclear
  · obtain ⟨before₀, x₀, after₀, hl, -, hx₀⟩ := exists_first hclear
    have hrow : p :: cs = [] ++ (p :: cs) := (List.nil_append _).symm
    -- whatever the walk does, in the row it gets to the last cell
    have hreach : ∀ c ∈ l', c ∈ p :: cs → ∃ u v, l' = u ++ c :: v ∧ lastOf p cs ∈ c :: v := by
      intro c hc hq
      obtain ⟨u, v, rfl⟩ := List.append_of_mem hc
      exact ⟨u, v, rfl, lastOf_mem ha hl'.drop hrow hq⟩
    obtain ⟨u, v, rfl, hlast⟩ := hreach x₀ (hsub x₀ (by simp [hl])) hx₀
    have hmem : lastOf p cs ∈ u ++ x₀ :: v := List.mem_append_right u hlast
    obtain ⟨a, rest, hsplit⟩ := List.append_of_mem hmem
    rw [hsplit] at hl' hsub
    have hnodup := hl'.nodup ha
    have hnotrest : lastOf p cs ∉ rest :=
      (List.nodup_cons.mp (List.nodup_append.mp hnodup).2.1).1
    -- and from there never into the row again
    have hclear' : ∀ c ∈ rest, c ∉ p :: cs := by
      intro c hc hq
      obtain ⟨r₁, r₂, rfl⟩ := List.append_of_mem hc
      rw [List.append_cons, ← List.append_assoc] at hl'
      exact hnotrest (List.mem_append_right r₁ (lastOf_mem ha hl'.drop hrow hq))
    have hchain : (p :: cs).IsChain (· ≠ ·) := by
      by_contra hno
      obtain ⟨y, hy, he⟩ := @splice_last_back _ _ addr link _ cs p hno
      have hback := hl'.next
      rw [he] at hback
      exact hnotrest (lastOf_mem ha hback hrow hy)
    have hrest := hl'.next
    rw [splice_last hchain] at hrest
    have hrest' : Walk null addr link (link p) rest :=
      hrest.congr fun c hc => (splice_other (hclear' c hc)).symm
    refine .inr ⟨hchain, rest, hrest', hclear', fun before x after hl hbefore hx c hc => ?_⟩
    subst hl
    have htrail := walk_trailFrom (splice_last hchain) hrest hrow hx
    have hwalk := h.divert (fun c hc => splice_other (hbefore c hc)) htrail
    have hc' := hsub c (by simp [hc])
    rw [hl'.unique ha hwalk, List.mem_append, List.mem_append] at hc'
    refine hc'.resolve_left fun hcb => ?_
    exact (List.nodup_append.mp (h.nodup ha)).2.2 c hcb c (by simp [hc]) rfl

end Splice

end Linked
