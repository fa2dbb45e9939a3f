import Mathlib

/-!
# Lists — lists that are searched, changed and compared

The first element that a test accepts is what a search finds, a removal
takes out and `modifyFirst` changes. `Forall₂` compares two lists element
by element.
-/

namespace List

variable {α β γ δ : Type*}

/-! ## Searching and removing -/

/-- What a search finds is what a removal by the same test takes out. -/
theorem perm_cons_eraseP_of_find? {p : α → Bool} {l : List α} {x : α}
    (h : l.find? p = some x) : l.Perm (x :: l.eraseP p) := by
  induction l with
  | nil => cases h
  | cons a l ih =>
      by_cases ha : p a = true
      · rw [List.find?_cons_of_pos ha] at h
        obtain rfl := Option.some.inj h
        rw [List.eraseP_cons_of_pos ha]
      · rw [List.find?_cons_of_neg ha] at h
        rw [List.eraseP_cons_of_neg ha]
        exact ((ih h).cons a).trans (.swap x a _)

/-- A removal by another test does not disturb a search. -/
theorem find?_eraseP_of_disjoint {p q : α → Bool} (h : ∀ x, p x = true → q x = false)
    (l : List α) : (l.eraseP q).find? p = l.find? p := by
  induction l with
  | nil => rfl
  | cons x l ih =>
      by_cases hq : q x = true
      · have hp : ¬p x = true := fun hp => by simp [h x hp] at hq
        rw [List.eraseP_cons_of_pos hq, List.find?_cons_of_neg hp]
      · rw [List.eraseP_cons_of_neg hq, List.find?_cons, List.find?_cons, ih]

/-- Where keys are distinct, removing the first element with a key
removes every element with it. -/
theorem eraseP_key {κ : Type*} [DecidableEq κ] {key : α → κ} {l : List α} (x : κ)
    (hnd : (l.map key).Nodup) :
    l.eraseP (fun a => key a == x) = l.filter fun a => key a ≠ x := by
  induction l with
  | nil => rfl
  | cons a l ih =>
      rw [List.map_cons, List.nodup_cons] at hnd
      by_cases h : key a = x
      · rw [List.eraseP_cons_of_pos (by simpa using h), List.filter_cons_of_neg (by simpa using h)]
        refine (List.filter_eq_self.mpr fun b hb => ?_).symm
        have hne : key b ≠ x := fun he => hnd.1 (by rw [h, ← he]; exact List.mem_map_of_mem hb)
        simpa using hne
      · rw [List.eraseP_cons_of_neg (by simpa using h), List.filter_cons_of_pos (by simpa using h),
          ih hnd.2]

theorem mem_eraseP_of_countP_le_one {p : α → Bool} {l : List α}
    (h : l.countP p ≤ 1) (x : α) : x ∈ l.eraseP p ↔ x ∈ l ∧ p x = false := by
  induction l with
  | nil => simp
  | cons a l ih =>
      by_cases ha : p a = true
      · rw [List.countP_cons_of_pos ha] at h
        have hnone : ∀ y ∈ l, p y = false := fun y hy => by
          have := (List.countP_eq_zero (p := p)).mp (by omega) y hy
          simpa using this
        rw [List.eraseP_cons_of_pos ha, List.mem_cons]
        constructor
        · exact fun hx => ⟨.inr hx, hnone x hx⟩
        · rintro ⟨rfl | hx, hp⟩
          · rw [ha] at hp
            cases hp
          · exact hx
      · rw [List.countP_cons_of_neg ha] at h
        rw [List.eraseP_cons_of_neg ha, List.mem_cons, List.mem_cons, ih h]
        constructor
        · rintro (rfl | ⟨hx, hp⟩)
          · exact ⟨.inl rfl, by simpa using ha⟩
          · exact ⟨.inr hx, hp⟩
        · rintro ⟨rfl | hx, hp⟩
          · exact .inl rfl
          · exact .inr ⟨hx, hp⟩

/-- Where keys are distinct, a search no longer finds an element that has
been taken out, and finds any other. -/
theorem find?_erase_key [DecidableEq α] [DecidableEq β] {key : α → β} {l : List α} {a : α}
    (hnd : (l.map key).Nodup) (ha : a ∈ l) (b : β) :
    (l.erase a).find? (fun x => key x == b) =
      if b = key a then none else l.find? fun x => key x == b := by
  by_cases hb : b = key a
  · rw [if_pos hb, List.find?_eq_none]
    intro x hx he
    have hxa : x = a :=
      List.inj_on_of_nodup_map hnd (List.mem_of_mem_erase hx) ha ((beq_iff_eq.mp he).trans hb)
    rw [hxa] at hx
    exact absurd hx (hnd.of_map key).not_mem_erase
  · rw [if_neg hb, List.erase_eq_eraseP]
    apply find?_eraseP_of_disjoint
    intro x hx
    by_contra hne
    have hax : a = x := by simpa using hne
    exact hb ((beq_iff_eq.mp hx).symm.trans (congrArg key hax.symm))

/-- The last index below `n` that `p` accepts. -/
theorem find?_reverse_range {n s : Nat} {p : Nat → Bool} (hs : s < n) (hp : p s = true)
    (hlast : ∀ t, s < t → t < n → p t = false) : (List.range n).reverse.find? p = some s := by
  induction n with
  | zero => omega
  | succ n ih =>
      rw [List.range_succ, List.reverse_append, List.reverse_singleton, List.singleton_append]
      by_cases he : s = n
      · rw [List.find?_cons_of_pos (by rwa [← he]), he]
      · have hn : p n = false := hlast n (by omega) (by omega)
        rw [List.find?_cons_of_neg (by simp [hn])]
        exact ih (by omega) fun t hst htn => hlast t hst (by omega)

/-! ## Changing the first element -/

/-- Apply `f` to the first element that `p` accepts. -/
def modifyFirst (p : α → Bool) (f : α → α) : List α → List α
  | [] => []
  | x :: xs => if p x then f x :: xs else x :: modifyFirst p f xs

theorem mem_modifyFirst {p : α → Bool} {f : α → α} {l : List α} {y : α}
    (h : y ∈ modifyFirst p f l) : ∃ x ∈ l, y = x ∨ y = f x := by
  induction l with
  | nil => cases h
  | cons x l ih =>
      unfold modifyFirst at h
      split at h
      · rcases List.mem_cons.mp h with rfl | h
        · exact ⟨x, by simp, .inr rfl⟩
        · exact ⟨y, by simp [h], .inl rfl⟩
      · rcases List.mem_cons.mp h with rfl | h
        · exact ⟨_, by simp, .inl rfl⟩
        · obtain ⟨z, hz, he⟩ := ih h
          exact ⟨z, by simp [hz], he⟩

/-- The elements of a list in which `b` has taken the place of `a`. -/
theorem mem_replace {l₁ l₂ : List α} {a b x : α} (h : x ∈ l₁ ++ b :: l₂) :
    x = b ∨ x ∈ l₁ ++ a :: l₂ := by
  rcases List.mem_append.mp h with h | h
  · exact .inr (List.mem_append_left _ h)
  · rcases List.mem_cons.mp h with rfl | h
    · exact .inl rfl
    · exact .inr (List.mem_append_right _ (List.mem_cons_of_mem _ h))

theorem find?_modifyFirst_of_disjoint {p q : α → Bool} {f : α → α}
    (h : ∀ x, p x = true → q x = false) (hf : ∀ x, p (f x) = p x) (l : List α) :
    (modifyFirst q f l).find? p = l.find? p := by
  induction l with
  | nil => rfl
  | cons x l ih =>
      unfold modifyFirst
      by_cases hq : q x = true
      · have hp : ¬p x = true := fun hp => by simp [h x hp] at hq
        rw [if_pos hq, List.find?_cons_of_neg (by rwa [hf]), List.find?_cons_of_neg hp]
      · rw [if_neg hq, List.find?_cons, List.find?_cons, ih]

theorem find?_modifyFirst_self {p : α → Bool} {f : α → α} (hf : ∀ x, p (f x) = p x)
    (l : List α) : (modifyFirst p f l).find? p = (l.find? p).map f := by
  induction l with
  | nil => rfl
  | cons x l ih =>
      unfold modifyFirst
      by_cases hp : p x = true
      · rw [if_pos hp, List.find?_cons_of_pos (by rwa [hf]), List.find?_cons_of_pos hp]
        rfl
      · rw [if_neg hp, List.find?_cons_of_neg hp, List.find?_cons_of_neg hp, ih]

/-- What is changed is what a search by the same test finds. -/
theorem modifyFirst_split {p : α → Bool} {f : α → α} {l : List α} {x : α}
    (h : l.find? p = some x) :
    ∃ before after, l = before ++ x :: after ∧ (∀ y ∈ before, p y = false) ∧
      modifyFirst p f l = before ++ f x :: after := by
  induction l with
  | nil => cases h
  | cons y l ih =>
      by_cases hp : p y = true
      · rw [List.find?_cons_of_pos hp] at h
        obtain rfl := Option.some.inj h
        exact ⟨[], l, rfl, by simp, by simp [modifyFirst, hp]⟩
      · rw [List.find?_cons_of_neg hp] at h
        obtain ⟨before, after, hl, hbefore, hmod⟩ := ih h
        refine ⟨y :: before, after, by rw [hl]; rfl, ?_, by simp [modifyFirst, hp, hmod]⟩
        intro z hz
        rcases List.mem_cons.mp hz with rfl | hz
        · simpa using hp
        · exact hbefore z hz

theorem modifyFirst_find {p : α → Bool} {l : List α} {c : α} (h : l.find? p = some c) :
    modifyFirst p (fun _ => c) l = l := by
  induction l with
  | nil => rfl
  | cons x l ih =>
      by_cases hx : p x = true
      · rw [List.find?_cons_of_pos hx, Option.some.injEq] at h
        subst h
        simp [modifyFirst, hx]
      · rw [List.find?_cons_of_neg hx] at h
        simp [modifyFirst, hx, ih h]

theorem modifyFirst_eq_self {p : α → Bool} {f : α → α} {l : List α}
    (h : ∀ x ∈ l, p x = true → f x = x) : modifyFirst p f l = l := by
  induction l with
  | nil => rfl
  | cons y l ih =>
      unfold modifyFirst
      split
      · rename_i hp
        rw [h y (by simp) hp]
      · rw [ih fun x hx => h x (by simp [hx])]

/-- A change that `g` does not see. -/
theorem map_modifyFirst {p : α → Bool} {f : α → α} {g : α → β}
    (hg : ∀ x, p x = true → g (f x) = g x) (l : List α) :
    (modifyFirst p f l).map g = l.map g := by
  induction l with
  | nil => rfl
  | cons x l ih =>
      unfold modifyFirst
      split
      · rename_i hp
        rw [List.map_cons, List.map_cons, hg x hp]
      · rw [List.map_cons, List.map_cons, ih]

/-- A change that neither the search nor `g` sees. -/
theorem map_find?_modifyFirst {p q : α → Bool} {f : α → α} {g : α → β}
    (hq : ∀ x, q (f x) = q x) (hg : ∀ x, g (f x) = g x) (l : List α) :
    ((modifyFirst p f l).find? q).map g = (l.find? q).map g := by
  induction l with
  | nil => rfl
  | cons x l ih =>
      unfold modifyFirst
      by_cases hp : p x = true
      · rw [if_pos hp, List.find?_cons, List.find?_cons, hq]
        cases q x with
        | true => simp [hg]
        | false => rfl
      · rw [if_neg hp, List.find?_cons, List.find?_cons]
        cases q x with
        | true => rfl
        | false => exact ih

/-- Where keys are distinct, changing the first element with a key
changes every element with it. -/
theorem modifyFirst_key {κ : Type*} [DecidableEq κ] {key : α → κ} {l : List α} (x : κ)
    (f : α → α) (hnd : (l.map key).Nodup) :
    modifyFirst (fun a => key a == x) f l = l.map fun a => if key a = x then f a else a := by
  induction l with
  | nil => rfl
  | cons a l ih =>
      rw [List.map_cons, List.nodup_cons] at hnd
      by_cases h : key a = x
      · have hrest : l.map (fun b => if key b = x then f b else b) = l.map id := by
          refine List.map_congr_left fun b hb => if_neg fun he => hnd.1 ?_
          rw [h, ← he]
          exact List.mem_map_of_mem hb
        simp [modifyFirst, h, hrest]
      · simp [modifyFirst, h, ih hnd.2]

/-! ## Element by element -/

theorem forall₂_trans {R : α → β → Prop} {S : β → γ → Prop} {T : α → γ → Prop}
    (h : ∀ a b c, R a b → S b c → T a c) {as : List α} {bs : List β} {cs : List γ}
    (hab : List.Forall₂ R as bs) (hbc : List.Forall₂ S bs cs) : List.Forall₂ T as cs := by
  induction hab generalizing cs with
  | nil =>
      cases hbc
      exact .nil
  | cons hr _ ih =>
      cases hbc with
      | cons hs hrest => exact .cons (h _ _ _ hr hs) (ih hrest)

theorem exists_of_forall₂_right {R : α → β → Prop} {l : List α} {l' : List β}
    (h : List.Forall₂ R l l') {y : β} (hy : y ∈ l') : ∃ x ∈ l, R x y := by
  induction h with
  | nil => cases hy
  | cons hxy _ ih =>
      rcases List.mem_cons.mp hy with rfl | hy
      · exact ⟨_, by simp, hxy⟩
      · obtain ⟨x, hx, hr⟩ := ih hy
        exact ⟨x, by simp [hx], hr⟩

theorem exists_of_forall₂_left {R : α → β → Prop} {l : List α} {l' : List β}
    (h : List.Forall₂ R l l') {x : α} (hx : x ∈ l) : ∃ y ∈ l', R x y :=
  exists_of_forall₂_right (R := fun y x => R x y) h.flip hx

/-- In lists without duplicates the first element goes with the first. -/
theorem exists_of_forall₂_head {R : α → β → Prop} {l : List α} {l' : List β}
    (h : Forall₂ R l l') (hl : l.Nodup) (hl' : l'.Nodup) {x : α} (hx : x ∈ l) :
    ∃ y ∈ l', R x y ∧ (l'.head? = some y ↔ l.head? = some x) := by
  cases h with
  | nil => cases hx
  | cons hab hrest =>
      rcases List.mem_cons.mp hx with rfl | hx
      · exact ⟨_, by simp, hab, by simp⟩
      · obtain ⟨y, hy, hr⟩ := exists_of_forall₂_left hrest hx
        refine ⟨y, by simp [hy], hr, ?_⟩
        have hne := ne_of_mem_of_not_mem hx (List.nodup_cons.mp hl).1
        have hne' := ne_of_mem_of_not_mem hy (List.nodup_cons.mp hl').1
        simp [hne.symm, hne'.symm]

theorem map_eq_of_forall₂ {R : α → β → Prop} {f : α → γ} {g : β → γ}
    (hR : ∀ x y, R x y → g y = f x) {l : List α} {l' : List β} (h : List.Forall₂ R l l') :
    l'.map g = l.map f := by
  induction h with
  | nil => rfl
  | cons hxy _ ih => rw [List.map_cons, List.map_cons, hR _ _ hxy, ih]

theorem forall₂_flatMap {R : α → β → Prop} {S : γ → δ → Prop} {f : α → List γ}
    {g : β → List δ} (hfg : ∀ x y, R x y → Forall₂ S (f x) (g y)) {l : List α} {l' : List β}
    (h : Forall₂ R l l') : Forall₂ S (l.flatMap f) (l'.flatMap g) :=
  List.rel_flatMap h fun x y hxy => hfg x y hxy

theorem forall₂_map_self {R : α → α → Prop} {f : α → α} {l : List α} (h : ∀ x ∈ l, R x (f x)) :
    Forall₂ R l (l.map f) := by
  rw [List.forall₂_map_right_iff]
  exact List.forall₂_same.mpr h

theorem forall₂_modifyFirst {R : α → α → Prop} {p : α → Bool} {f : α → α} {l : List α}
    (hrefl : ∀ x ∈ l, R x x) (h : ∀ x ∈ l, R x (f x)) : Forall₂ R l (modifyFirst p f l) := by
  induction l with
  | nil => exact .nil
  | cons x l ih =>
      have hrest := fun y hy => hrefl y (List.mem_cons_of_mem x hy)
      unfold modifyFirst
      split
      · exact .cons (h x (by simp)) (List.forall₂_same.mpr hrest)
      · exact .cons (hrefl x (by simp)) (ih hrest fun y hy => h y (by simp [hy]))

/-! ## Equal images -/

theorem exists_of_map_eq {f : α → β} {l l' : List α} (h : l'.map f = l.map f)
    {x' : α} (hx : x' ∈ l') : ∃ x ∈ l, f x' = f x := by
  obtain ⟨x, hx', he⟩ := List.mem_map.mp (h ▸ List.mem_map_of_mem hx)
  exact ⟨x, hx', he.symm⟩

/-- What factors through `f` is the same on lists that `f` does not
tell apart. -/
theorem map_eq_of_map_eq {f : α → β} {g : α → γ} (hg : ∀ x y, f x = f y → g x = g y)
    {l l' : List α} (h : l'.map f = l.map f) : l'.map g = l.map g := by
  have h2 : List.Forall₂ (fun x' x => f x' = f x) l' l := by
    rw [← List.forall₂_map_left_iff (R := fun y x => y = f x),
      ← List.forall₂_map_right_iff (R := fun y x => y = x), h]
    exact List.forall₂_refl _
  rw [← List.forall₂_eq_eq_eq, List.forall₂_map_left_iff, List.forall₂_map_right_iff]
  exact h2.imp fun x' x he => hg x' x he

/-! ## One element -/

theorem exists_singleton {p : α → Bool} {l : List α} (hone : l.countP p = 1)
    (hall : ∀ x ∈ l, p x = true) : ∃ x, l = [x] :=
  List.length_eq_one_iff.mp ((List.countP_eq_length.mpr hall).symm.trans hone)

theorem length_filter_le_one {p : α → Bool} {l : List α} (h : l.countP p = 1) :
    (l.filter p).length ≤ 1 := by
  rw [← List.countP_eq_length_filter, h]

theorem filter_eq_singleton {p : α → Bool} {l : List α} {a : α} (hnd : l.Nodup)
    (ha : a ∈ l) (hp : ∀ b ∈ l, p b = true ↔ b = a) : l.filter p = [a] := by
  refine List.perm_singleton.mp
    ((List.perm_ext_iff_of_nodup (hnd.filter _) (List.nodup_singleton a)).mpr fun b => ?_)
  rw [List.mem_filter, List.mem_singleton]
  constructor
  · intro ⟨hb, hpb⟩
    exact (hp b hb).mp hpb
  · rintro rfl
    exact ⟨ha, (hp b ha).mpr rfl⟩

theorem pairwise_of_one {p : α → Bool} {l : List α} (hone : (l.filter p).length ≤ 1) :
    l.Pairwise fun a b => ¬(p a = true ∧ p b = true) := by
  induction l with
  | nil => exact .nil
  | cons a l ih =>
      rw [List.pairwise_cons]
      by_cases ha : p a = true
      · rw [List.filter_cons_of_pos ha, List.length_cons] at hone
        have hnil : l.filter p = [] := List.length_eq_zero_iff.mp (by omega)
        refine ⟨fun b hb h => List.filter_eq_nil_iff.mp hnil b hb h.2, ih (by simp [hnil])⟩
      · rw [List.filter_cons_of_neg ha] at hone
        exact ⟨fun b _ h => ha h.1, ih hone⟩

theorem pairwise_of_split {R : α → α → Prop} {l : List α}
    (h : ∀ before t after, l = before ++ t :: after → ∀ u ∈ before, R u t) : l.Pairwise R := by
  induction l using List.reverseRecOn with
  | nil => exact .nil
  | append_singleton l a ih =>
      refine List.pairwise_append.mpr ⟨ih fun before t after hl => ?_, List.pairwise_singleton _ _,
        fun u hu t ht => ?_⟩
      · exact h before t (after ++ [a]) (by rw [hl]; simp)
      · obtain rfl := List.mem_singleton.mp ht
        exact h l t [] rfl u hu

/-! ## Lists of lists -/

theorem sublist_flatMap {f : α → List β} {l : List α} {a : α} (ha : a ∈ l) :
    (f a).Sublist (l.flatMap f) := by
  rw [List.flatMap_def]
  exact List.sublist_flatten_of_mem (List.mem_map_of_mem ha)

theorem map_sublist_flatMap {f : α → β} {g : α → List β} (h : ∀ a, [f a].Sublist (g a))
    (l : List α) : (l.map f).Sublist (l.flatMap g) := by
  rw [List.map_eq_flatMap]
  exact List.Sublist.flatMap_right l fun a _ => h a

/-- Parts of one element. -/
theorem parts_sublist {f : α → List β} {all parts : List β} {l : List α}
    (hl : (l.flatMap f).Sublist all) {a : α} (ha : a ∈ l) (h : parts.Sublist (f a)) :
    parts.Sublist all :=
  (h.trans (sublist_flatMap ha)).trans hl

/-! ## Sums -/

theorem forall_eq_of_sum_eq {f g : α → Nat} {l : List α} (hle : ∀ x ∈ l, f x ≤ g x)
    (hsum : (l.map f).sum = (l.map g).sum) : ∀ x ∈ l, f x = g x := by
  induction l with
  | nil => simp
  | cons x l ih =>
      have hrest : (l.map f).sum ≤ (l.map g).sum :=
        List.sum_le_sum fun y hy => hle y (by simp [hy])
      have hx := hle x (by simp)
      simp only [List.map_cons, List.sum_cons] at hsum
      intro y hy
      rcases List.mem_cons.mp hy with rfl | hy
      · omega
      · exact ih (fun z hz => hle z (by simp [hz])) (by omega) y hy

theorem forall_sum_eq_iff {n : Nat} {l : List Nat} :
    (∀ x ∈ l, n + l.sum = x) ↔ (l ≠ [] → n = 0) ∧ l.Pairwise fun a b => a = 0 ∧ b = 0 := by
  cases l with
  | nil => simp
  | cons a l =>
      rw [List.sum_cons, List.pairwise_cons]
      constructor
      · intro h
        have ha := h a List.mem_cons_self
        have hzero : ∀ b ∈ l, a = 0 ∧ b = 0 := by
          intro b hb
          have hle := List.le_sum_of_mem hb
          have hb' := h b (List.mem_cons_of_mem _ hb)
          omega
        exact ⟨fun _ => by omega, hzero, List.pairwise_of_forall_mem_list fun b hb c hc =>
          ⟨(hzero b hb).2, (hzero c hc).2⟩⟩
      · intro ⟨hn, hzero, _⟩ x hx
        have hsum : l.sum = 0 := List.sum_eq_zero fun b hb => (hzero b hb).2
        rw [hsum, hn (by simp)]
        rcases List.mem_cons.mp hx with rfl | hx
        · omega
        · have := hzero x hx
          omega

end List
