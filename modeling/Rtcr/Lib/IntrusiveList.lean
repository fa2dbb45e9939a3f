import Rtcr.Lib.Linked
import Rtcr.Lib.While

/-!
# IntrusiveList — a list whose links lie in its elements

A list is a pointer to its first cell, and every cell has room for one
link, in the list or not. `insert` does not ask whether a cell is in the
list already; `insert_ends_iff` says what follows if it is.
-/

namespace Intrusive

open Linked While

structure IList (κ : Type) where
  first : Option κ
  next : κ → Option κ

variable {κ : Type}

/-- The cells of the list, from the first one on. -/
def IList.Holds (l : IList κ) (cells : List κ) : Prop := Walk none some l.next l.first cells

theorem addresses : Addresses (none : Option κ) some :=
  ⟨Option.some_injective κ, fun _ => Option.some_ne_none _⟩

/-! ## Searching -/

/-- One cell of a search. -/
def findTurn (next : κ → Option κ) (p : κ → Bool) : Option κ → Option κ ⊕ Option κ
  | none => .inl none
  | some c => if p c then .inl (some c) else .inr (next c)

namespace IList

/-- The first cell that `p` accepts. The fuel is no part of the search:
`none` means that it is still running. -/
def find (fuel : Nat) (p : κ → Bool) (l : IList κ) : Option (Option κ) :=
  run (findTurn l.next p) fuel l.first

/-- Every search ends. -/
def Ends (l : IList κ) : Prop := ∀ p, ∃ c, EndsIn (findTurn l.next p) l.first c

variable {l l' : IList κ} {cells cells' : List κ} {p : κ → Bool} {c : κ}

theorem Holds.unique (h : l.Holds cells) (h' : l.Holds cells') : cells = cells' :=
  Walk.unique addresses h h'

theorem Holds.nodup (h : l.Holds cells) : cells.Nodup := Walk.nodup addresses h

/-- A list whose links are addresses. -/
theorem holds_of_walk {ω : Type} {null : ω} {addr link : κ → ω} {at' : ω → Option κ} {w : ω}
    (hnull : at' null = none) (haddr : ∀ c, at' (addr c) = some c)
    (h : Walk null addr link w cells) :
    IList.Holds ⟨at' w, fun c => at' (link c)⟩ cells := by
  induction h with
  | nil =>
      unfold Holds
      rw [hnull]
      exact .nil
  | @cons c l _ ih =>
      unfold Holds
      rw [haddr c]
      exact .cons ih

end IList

theorem run_findTurn {next : κ → Option κ} {w : Option κ} {cells : List κ}
    (h : Walk none some next w cells) (p : κ → Bool) {fuel : Nat} (hfuel : cells.length < fuel) :
    run (findTurn next p) fuel w = some (cells.find? p) := by
  induction h generalizing fuel with
  | nil =>
      cases fuel with
      | zero => omega
      | succ fuel => rfl
  | @cons c cells _ ih =>
      cases fuel with
      | zero => omega
      | succ fuel =>
          by_cases hp : p c = true
          · simp [run, findTurn, hp]
          · have hrest := ih (show cells.length < fuel by simpa using hfuel)
            simp only [run, findTurn, if_neg hp]
            rw [hrest, List.find?_cons_of_neg hp]

namespace IList

variable {l l' : IList κ} {cells cells' : List κ} {p : κ → Bool} {c : κ}

/-- **A search** ends, with what is to be found. -/
theorem Holds.find (h : l.Holds cells) (p : κ → Bool) {fuel : Nat} (hfuel : cells.length < fuel) :
    l.find fuel p = some (cells.find? p) := run_findTurn h p hfuel

theorem Holds.endsIn (h : l.Holds cells) (p : κ → Bool) :
    EndsIn (findTurn l.next p) l.first (cells.find? p) :=
  ⟨cells.length + 1, h.find p (Nat.lt_succ_self _)⟩

theorem Holds.ends (h : l.Holds cells) : l.Ends := fun p => ⟨_, h.endsIn p⟩

/-- A search that has ended has found what is to be found. -/
theorem Holds.of_find (h : l.Holds cells) {fuel : Nat} {o : Option κ}
    (hfind : l.find fuel p = some o) : o = cells.find? p :=
  EndsIn.unique ⟨fuel, hfind⟩ (h.endsIn p)

end IList

/-! ## Insertion -/

section Insert

variable [DecidableEq κ]

namespace IList

/-- Insert a cell in front. -/
def insert (c : κ) (l : IList κ) : IList κ where
  first := some c
  next := Function.update l.next c l.first

/-- The cell is constructed anew, in the list or not. -/
def reset (c : κ) (l : IList κ) : IList κ := { l with next := Function.update l.next c none }

variable {l l' : IList κ} {cells cells' : List κ} {p : κ → Bool} {c : κ}

theorem walk_update {next : κ → Option κ} {w v : Option κ} {c : κ} (h : Walk none some next w cells)
    (hc : c ∉ cells) : Walk none some (Function.update next c v) w cells := by
  refine h.congr fun x hx => Function.update_of_ne ?_ _ _
  intro he
  exact hc (he ▸ hx)

theorem Holds.reset (h : l.Holds cells) (hc : c ∉ cells) : (l.reset c).Holds cells :=
  walk_update h hc

theorem Holds.insert (h : l.Holds cells) (hc : c ∉ cells) : (l.insert c).Holds (c :: cells) := by
  apply Walk.cons
  show Walk none some _ (Function.update l.next c l.first c) cells
  rw [Function.update_self]
  exact walk_update h hc

/-- **Insertion twice**: a cell of the list that is inserted again closes
a cycle, which a search for nothing in it never leaves. -/
theorem not_endsIn_insert (h : l.Holds cells) (hc : c ∈ cells) {r : Option κ} :
    ¬EndsIn (findTurn (l.insert c).next fun _ => false) (l.insert c).first r := by
  obtain ⟨before, after, rfl⟩ := List.append_of_mem hc
  have hbefore : ∀ x ∈ before, x ≠ c := fun x hx he =>
    (List.nodup_append.mp h.nodup).2.2 x hx c (by simp) he
  intro hends
  -- the search is at `c` or at a cell in front of it, and from `c` it starts again
  refine EndsIn.spec (P := fun _ _ => False)
    (I := fun w => ∃ q, Walk none some l.next w (q ++ c :: after) ∧ ∀ x ∈ q, x ≠ c) hends
    ⟨[], h.drop, by simp⟩ ?_ ?_
  · rintro w r ⟨q, hq, -⟩ hturn
    cases q with
    | nil =>
        cases hq
        cases hturn
    | cons x q =>
        cases hq
        cases hturn
  · rintro w w' ⟨q, hq, hne⟩ hturn
    refine ⟨?_, fun _ => id⟩
    cases q with
    | nil =>
        cases hq
        have hlink : Function.update l.next c l.first c = w' := Sum.inr.inj hturn
        rw [Function.update_self] at hlink
        exact ⟨before, hlink ▸ h, hbefore⟩
    | cons x q =>
        cases hq with
        | cons hrest =>
            have hlink : Function.update l.next c l.first x = w' := Sum.inr.inj hturn
            rw [Function.update_of_ne (hne x (by simp))] at hlink
            exact ⟨q, hlink ▸ hrest, fun y hy => hne y (by simp [hy])⟩

/-- After an insertion every search ends if and only if the cell was not
in the list. -/
theorem insert_ends_iff (h : l.Holds cells) : (l.insert c).Ends ↔ c ∉ cells := by
  constructor
  · intro hends hc
    obtain ⟨r, hr⟩ := hends fun _ => false
    exact not_endsIn_insert h hc hr
  · intro hc
    exact (h.insert hc).ends

/-- A cell that is constructed anew is the last one of its list. -/
theorem Holds.reset_mem {before after : List κ} (h : l.Holds (before ++ c :: after)) :
    (l.reset c).Holds (before ++ [c]) := by
  have hbefore : ∀ x ∈ before, x ≠ c := fun x hx he =>
    (List.nodup_append.mp h.nodup).2.2 x hx c (by simp) he
  refine Walk.divert h (fun x hx => Function.update_of_ne (hbefore x hx) _ _) (.cons ?_)
  show Walk none some _ (Function.update l.next c none c) []
  rw [Function.update_self]
  exact .nil

/-- The same for a cell that is constructed anew before. -/
theorem reset_insert_ends_iff (h : l.Holds cells) : ((l.reset c).insert c).Ends ↔ c ∉ cells := by
  by_cases hc : c ∈ cells
  · obtain ⟨before, after, rfl⟩ := List.append_of_mem hc
    rw [insert_ends_iff h.reset_mem]
    simp
  · rw [insert_ends_iff (h.reset hc)]

/-! ## Removal -/

/-- One cell of the search for the predecessor of `c`. -/
def predTurn (next : κ → Option κ) (c e : κ) : Option κ ⊕ κ :=
  match next e with
  | none => .inl none
  | some d => if d = c then .inl (some e) else .inr d

/-- Behind the predecessor, if there is one. -/
def unlink (c : κ) (l : IList κ) : Option κ → IList κ
  | none => l
  | some e => { l with next := Function.update (Function.update l.next e (l.next c)) c none }

/-- Remove a cell; one that is not in the list changes nothing. -/
def remove (fuel : Nat) (c : κ) (l : IList κ) : Option (IList κ) :=
  match l.first with
  | none => some l
  | some d =>
      if d = c then some ⟨l.next c, Function.update l.next c none⟩
      else (run (predTurn l.next c) fuel d).map (unlink c l)

theorem run_predTurn {next : κ → Option κ} {before after : List κ} {d : κ}
    (h : Walk none some next (some d) (d :: (before ++ c :: after)))
    (hbefore : ∀ x ∈ before, x ≠ c) {fuel : Nat} (hfuel : before.length < fuel) :
    ∃ q e, d :: before = q ++ [e] ∧ run (predTurn next c) fuel d = some (some e) := by
  induction before generalizing d fuel with
  | nil =>
      cases fuel with
      | zero => omega
      | succ fuel =>
          obtain ⟨rest, hcells, hnext⟩ := Walk.of_addr addresses h
          obtain rfl := (List.cons.inj hcells).2
          obtain ⟨w, hw⟩ : ∃ w, next d = w := ⟨_, rfl⟩
          rw [hw] at hnext
          cases hnext with
          | cons hrest =>
              refine ⟨[], d, rfl, ?_⟩
              simp [run, predTurn, hw]
  | cons x before ih =>
      cases fuel with
      | zero => omega
      | succ fuel =>
          obtain ⟨rest, hcells, hnext⟩ := Walk.of_addr addresses h
          obtain rfl := (List.cons.inj hcells).2
          obtain ⟨w, hw⟩ : ∃ w, next d = w := ⟨_, rfl⟩
          rw [hw] at hnext
          cases hnext with
          | cons hrest =>
              have hx : x ≠ c := hbefore x (by simp)
              obtain ⟨q, e, hq, hrun⟩ := ih (.cons hrest) (fun y hy => hbefore y (by simp [hy]))
                (show before.length < fuel by simpa using hfuel)
              refine ⟨d :: q, e, by rw [hq]; rfl, ?_⟩
              simp only [run, predTurn, hw, if_neg hx]
              exact hrun

/-- The predecessor takes over the link. -/
theorem Holds.unlink {q after : List κ} {e : κ} (h : l.Holds (q ++ e :: c :: after)) :
    (l.unlink c (some e)).Holds (q ++ e :: after) := by
  obtain ⟨-, hrest, hq⟩ := List.nodup_append.mp h.nodup
  have he : e ∉ q := fun hmem => hq e hmem e (by simp) rfl
  have hc : c ∉ q := fun hmem => hq c hmem c (by simp) rfl
  obtain ⟨heafter, hcafter⟩ := List.nodup_cons.mp hrest
  have hec : e ≠ c := fun heq => heafter (by simp [heq])
  have hnext : Walk none some l.next (l.next c) after := by
    have hback : Walk none some l.next l.first ((q ++ [e]) ++ c :: after) := by
      rw [List.append_assoc]
      exact h
    exact hback.next
  show Walk none some (Function.update (Function.update l.next e (l.next c)) c none) l.first
    (q ++ e :: after)
  refine Walk.divert h (fun x hx => ?_) (.cons ?_)
  · have hxc : x ≠ c := fun heq => hc (heq ▸ hx)
    have hxe : x ≠ e := fun heq => he (heq ▸ hx)
    rw [Function.update_of_ne hxc, Function.update_of_ne hxe]
  · rw [Function.update_of_ne hec, Function.update_self]
    exact walk_update (walk_update hnext fun hmem => heafter (by simp [hmem]))
      (List.nodup_cons.mp hrest.of_cons).1

/-- **A removal** ends, without the cell. -/
theorem Holds.remove (h : l.Holds cells) (hc : c ∈ cells) {fuel : Nat}
    (hfuel : cells.length ≤ fuel) : ∃ l', l.remove fuel c = some l' ∧ l'.Holds (cells.erase c) := by
  obtain ⟨w, hw⟩ : ∃ w, l.first = w := ⟨_, rfl⟩
  have hwalk : Walk none some l.next w cells := hw ▸ h
  cases hwalk with
  | nil => cases hc
  | @cons d rest hrest =>
      unfold IList.remove
      rw [hw]
      dsimp only
      by_cases hdc : d = c
      · subst hdc
        rw [if_pos rfl, List.erase_cons_head]
        exact ⟨_, rfl, walk_update hrest (List.nodup_cons.mp h.nodup).1⟩
      · obtain ⟨before, after, rfl⟩ :=
          List.append_of_mem ((List.mem_cons.mp hc).resolve_left (Ne.symm hdc))
        have hne : ∀ x ∈ d :: before, x ≠ c := fun x hx heq =>
          (List.nodup_append.mp (show (d :: before ++ c :: after).Nodup from h.nodup)).2.2 x hx c
            (by simp) heq
        have hlen : (d :: before).length ≤ fuel := by
          simp at hfuel ⊢
          omega
        obtain ⟨q, e, hq, hrun⟩ := run_predTurn (.cons hrest) (fun x hx => hne x (by simp [hx])) hlen
        have hsplit : d :: (before ++ c :: after) = q ++ e :: c :: after := by
          rw [← List.cons_append, hq, List.append_assoc]
          rfl
        rw [hq] at hne
        have herase : (d :: (before ++ c :: after)).erase c = q ++ e :: after := by
          rw [hsplit, List.erase_append_right _ (fun hmem => hne c (by simp [hmem]) rfl),
            List.erase_cons_tail (by simpa using hne e (by simp)), List.erase_cons_head]
        rw [if_neg hdc, hrun, herase]
        rw [hsplit] at h
        exact ⟨_, rfl, h.unlink⟩

/-- A removal that has ended has removed the cell. -/
theorem Holds.of_remove (h : l.Holds cells) (hc : c ∈ cells) {fuel : Nat}
    (hremove : l.remove fuel c = some l') : l'.Holds (cells.erase c) := by
  obtain ⟨l₁, hl₁, hholds⟩ := h.remove hc (Nat.le_refl _)
  obtain rfl : l' = l₁ := by
    unfold IList.remove at hremove hl₁
    cases hfirst : l.first with
    | none =>
        rw [hfirst] at hremove hl₁
        exact Option.some.inj (hremove.symm.trans hl₁)
    | some d =>
        rw [hfirst] at hremove hl₁
        dsimp only at hremove hl₁
        by_cases hdc : d = c
        · rw [if_pos hdc] at hremove hl₁
          exact Option.some.inj (hremove.symm.trans hl₁)
        · rw [if_neg hdc] at hremove hl₁
          obtain ⟨e, hrun, rfl⟩ := Option.map_eq_some_iff.mp hremove
          obtain ⟨e', hrun', rfl⟩ := Option.map_eq_some_iff.mp hl₁
          rw [EndsIn.unique ⟨fuel, hrun⟩ ⟨_, hrun'⟩]
  exact hholds

end IList

end Insert

end Intrusive
