import Rtcr.Lib.Charge

/-!
# Turns — the last user of a shared value, list by list

Records use shared values, and a table counts the users of each. Lists of
records are brought up to date one after the other; a `Turn` says of one
list whose values its new records use and whose those used that go.
`Lasts` says that no value runs out of users.

`Plays` says of a process that the table follows the turns, and that it
costs nothing exactly if the values last. The rules put processes one
after the other (`Plays.append`) and together to the passes of a
reconciliation (`Plays.list`, `PlaysKind.reconcile`).
-/

namespace Reconcile

/-- One list: new records come, then records go. -/
structure Turn (κ : Type) where
  made : List κ
  /-- values that get no entry in the table -/
  barred : List κ
  gone : List κ

variable {κ : Type} [DecidableEq κ]

/-- The users of a value when the new records are there. -/
def Turn.withNew (t : Turn κ) (users : κ → Nat) (k : κ) : Nat :=
  if k ∈ t.barred ∧ users k = 0 then 0 else users k + t.made.count k

/-- The users at the end of the turn. -/
def Turn.after (t : Turn κ) (users : κ → Nat) (k : κ) : Nat :=
  t.withNew users k - t.gone.count k

/-- A value whose users go keeps one. -/
def Turn.Lasts (t : Turn κ) (users : κ → Nat) : Prop :=
  ∀ k ∈ t.gone, 0 < t.withNew users k → 0 < t.after users k

instance (t : Turn κ) (users : κ → Nat) : Decidable (t.Lasts users) :=
  inferInstanceAs (Decidable (∀ k ∈ t.gone, _))

/-- The users after some turns. -/
def usersAfter (ts : List (Turn κ)) (users : κ → Nat) : κ → Nat :=
  ts.foldl (fun users t => t.after users) users

/-- **No value runs out of users** in any of the turns. -/
def Lasts : (κ → Nat) → List (Turn κ) → Prop
  | _, [] => True
  | users, t :: ts => t.Lasts users ∧ Lasts (t.after users) ts

instance decidableLasts : (users : κ → Nat) → (ts : List (Turn κ)) → Decidable (Lasts users ts)
  | _, [] => inferInstanceAs (Decidable True)
  | users, t :: ts =>
      haveI := decidableLasts (t.after users) ts
      inferInstanceAs (Decidable (_ ∧ _))

theorem usersAfter_append (ts us : List (Turn κ)) (users : κ → Nat) :
    usersAfter (ts ++ us) users = usersAfter us (usersAfter ts users) := List.foldl_append ..

theorem lasts_append {ts us : List (Turn κ)} {users : κ → Nat} :
    Lasts users (ts ++ us) ↔ Lasts users ts ∧ Lasts (usersAfter ts users) us := by
  induction ts generalizing users with
  | nil => simp [Lasts, usersAfter]
  | cons t ts ih =>
      rw [List.cons_append, Lasts, Lasts, ih, and_assoc]
      rfl

/-! ## One user more, one user less -/

/-- A new user. A `barred` value gets none unless it has some. -/
def addUser (barred : List κ) (x : κ) (users : κ → Nat) : κ → Nat := fun k =>
  if k = x then (if x ∈ barred ∧ users x = 0 then 0 else users x + 1) else users k

def dropUser (x : κ) (users : κ → Nat) : κ → Nat := fun k =>
  if k = x then users x - 1 else users k

/-- New users one by one. -/
theorem withNew_addUser (x : κ) (made barred gone : List κ) (users : κ → Nat) :
    (Turn.mk made barred gone).withNew (addUser barred x users) =
      (Turn.mk (x :: made) barred gone).withNew users := by
  ext k
  unfold Turn.withNew addUser
  by_cases hk : k = x
  · subst hk
    by_cases hbar : k ∈ barred ∧ users k = 0
    · simp [hbar]
    · simp only [if_true, if_neg hbar, List.count_cons_self]
      rw [if_neg (fun h => Nat.succ_ne_zero _ h.2)]
      omega
  · have hcount : (x :: made).count k = made.count k :=
      List.count_cons_of_ne (Ne.symm hk)
    simp only [if_neg hk, hcount]

/-- Users that go one by one: each but the last leaves another. -/
theorem forall_dropUser_iff (x : κ) (gone : List κ) (users : κ → Nat) :
    (∀ k ∈ x :: gone, 0 < users k → (x :: gone).count k < users k) ↔
      users x ≠ 1 ∧ ∀ k ∈ gone, 0 < dropUser x users k → gone.count k < dropUser x users k := by
  have hdrop : ∀ k, k ≠ x → dropUser x users k = users k := fun k hk => if_neg hk
  have hself : dropUser x users x = users x - 1 := if_pos rfl
  have hcount : ∀ k, k ≠ x → (x :: gone).count k = gone.count k :=
    fun k hk => List.count_cons_of_ne (Ne.symm hk)
  constructor
  · intro h
    have hx := h x List.mem_cons_self
    rw [List.count_cons_self] at hx
    refine ⟨by omega, fun k hk => ?_⟩
    by_cases hkx : k = x
    · rw [hkx, hself]
      omega
    · rw [hdrop k hkx, ← hcount k hkx]
      exact h k (List.mem_cons_of_mem _ hk)
  · intro ⟨hx, h⟩ k hk
    by_cases hkx : k = x
    · rw [hkx, List.count_cons_self]
      by_cases hmem : x ∈ gone
      · have hrest := h x hmem
        rw [hself] at hrest
        omega
      · rw [List.count_eq_zero_of_not_mem hmem]
        omega
    · rw [hcount k hkx, ← hdrop k hkx]
      exact h k ((List.mem_cons.mp hk).resolve_left hkx)

/-! ## Processes -/

variable {σ χ τ ρ C : Type} [AddCommMonoid C] [Subsingleton (AddUnits C)]

/-- The table `users` follows the turns, and the process is free exactly
if the values last. `I` is what has to hold of the state. -/
structure Plays (I : σ → Prop) (users : σ → κ → Nat) (ts : List (Turn κ)) (run : σ → σ)
    (cost : σ → C) : Prop where
  keeps : ∀ s, I s → I (run s)
  follows : ∀ s, I s → users (run s) = usersAfter ts (users s)
  lasts : ∀ s, I s → (cost s = 0 ↔ Lasts (users s) ts)

variable {I : σ → Prop} {users : σ → κ → Nat} {ts us : List (Turn κ)} {run run' : σ → σ}
  {cost cost' : σ → C}

omit [Subsingleton (AddUnits C)] in
/-- A process that leaves the table alone. -/
theorem Plays.idle (hrun : ∀ s, I s → I (run s) ∧ users (run s) = users s) :
    Plays I users [] run (fun _ => (0 : C)) where
  keeps s hs := (hrun s hs).1
  follows s hs := (hrun s hs).2
  lasts _ _ := by simp [Lasts]

/-- **One process after the other.** -/
theorem Plays.append (h : Plays I users ts run cost) (h' : Plays I users us run' cost') :
    Plays I users (ts ++ us) (fun s => run' (run s)) (fun s => cost s + cost' (run s)) where
  keeps s hs := h'.keeps _ (h.keeps s hs)
  follows s hs := by rw [h'.follows _ (h.keeps s hs), h.follows s hs, usersAfter_append]
  lasts s hs := by
    rw [add_eq_zero, h.lasts s hs, h'.lasts _ (h.keeps s hs), h.follows s hs, lasts_append]

/-- What is done to the state alone, before a process and after it. -/
theorem Plays.afterIdle (h' : Plays I users [] run' fun _ => (0 : C))
    (h : Plays I users ts run cost) :
    Plays I users ts (fun s => run (run' s)) (fun s => cost (run' s)) := by
  have happend := h'.append h
  simp only [zero_add] at happend
  exact happend

theorem Plays.thenIdle (h : Plays I users ts run cost)
    (h' : Plays I users [] run' fun _ => (0 : C)) :
    Plays I users ts (fun s => run' (run s)) cost := by
  have happend := h.append h'
  simp only [add_zero, List.append_nil] at happend
  exact happend

/-- Records destroyed one after the other. -/
theorem Plays.destroyAll {destroy : τ → σ → σ} {price : τ → σ → C}
    {endTurn : τ → List (Turn κ)} (h : ∀ t, Plays I users (endTurn t) (destroy t) (price t))
    (l : List τ) :
    Plays I users (l.flatMap endTurn) (destroyAll destroy l)
      (destroyAllCost destroy price l) := by
  induction l with
  | nil => exact .idle fun _ hs => ⟨hs, rfl⟩
  | cons t l ih => exact (h t).append ih

/-! ## One list of records that are not updated -/

section Leaf

variable {k : Kind σ χ τ} {charge : Charge σ χ τ C} {cs : List χ}

theorem updateFirst_same {p : τ → Bool} {f : τ → σ → τ × σ} (hf : ∀ t s, f t s = (t, s))
    (l : List τ) (s : σ) : updateFirst p f l s = (l, s) := by
  induction l with
  | nil => rfl
  | cons t l ih =>
      unfold updateFirst
      split
      · rw [hf]
      · rw [ih]

omit [Subsingleton (AddUnits C)] in
theorem updateFirstCost_free {p : τ → Bool} {price : τ → σ → C} (hfree : ∀ t s, price t s = 0)
    (l : List τ) (s : σ) : updateFirstCost p price l s = 0 := by
  induction l with
  | nil => rfl
  | cons t l ih =>
      unfold updateFirstCost
      split
      · exact hfree t s
      · exact ih

/-- **The second pass** destroys the records without an object. -/
theorem dropObsolete_snd (l : List τ) (s : σ) : (dropObsolete k cs l s).2 =
    Reconcile.destroyAll k.destroy (l.filter fun t => !cs.any (k.present t)) s := by
  induction l generalizing s with
  | nil => rfl
  | cons t l ih =>
      by_cases hp : cs.any (k.present t) = true
      · rw [dropObsolete, if_pos hp, ih, List.filter_cons_of_neg (by simp [hp])]
      · rw [dropObsolete, if_neg hp, ih, List.filter_cons_of_pos (by simp [hp])]
        rfl

omit [Subsingleton (AddUnits C)] in
theorem dropObsoleteCost_eq (l : List τ) (s : σ) : dropObsoleteCost k charge cs l s =
    destroyAllCost k.destroy charge.destroy (l.filter fun t => !cs.any (k.present t)) s := by
  induction l generalizing s with
  | nil => rfl
  | cons t l ih =>
      by_cases hp : cs.any (k.present t) = true
      · rw [dropObsoleteCost, if_pos hp, ih, List.filter_cons_of_neg (by simp [hp])]
      · rw [dropObsoleteCost, if_neg hp, ih, List.filter_cons_of_pos (by simp [hp])]
        rfl

/-- The objects that get a new record: those that no record `meets` when
their turn has come. A new record has this `shape`. -/
def newcomers (meets : χ → ρ → Bool) (shape : χ → ρ) : List χ → List ρ → List χ
  | [], _ => []
  | c :: cs, rs =>
      if rs.any (meets c) then newcomers meets shape cs rs
      else c :: newcomers meets shape cs (shape c :: rs)

theorem newcomers_map {χ' : Type} (meets : χ' → ρ → Bool) (shape : χ' → ρ) (f : χ → χ')
    (cs : List χ) (rs : List ρ) : newcomers meets shape (cs.map f) rs =
      (newcomers (fun c => meets (f c)) (fun c => shape (f c)) cs rs).map f := by
  induction cs generalizing rs with
  | nil => rfl
  | cons c cs ih =>
      rw [List.map_cons, newcomers, newcomers]
      split
      · exact ih rs
      · rw [ih, List.map_cons]

/-- Records that each use one value, under `key`. They are looked up by
their `view`; the price is paid with the last user. -/
structure SharedKind (k : Kind σ χ τ) (charge : Charge σ χ τ C) (view : τ → ρ)
    (meets : χ → ρ → Bool) (shape : χ → ρ) (key : τ → κ) (ckey : χ → κ) (barred : List κ)
    (I : σ → Prop) (users : σ → κ → Nat) : Prop where
  stored : ∀ c t, k.stored c t = meets c (view t)
  view_create : ∀ c s, view (k.create c s).1 = shape c
  update : ∀ c t s, k.update c t s = (t, s)
  free : ∀ c t s, charge.update c t s = 0
  present_create : ∀ c s, k.present (k.create c s).1 c = true
  create : ∀ c s, I s → I (k.create c s).2 ∧
    users (k.create c s).2 = addUser barred (ckey c) (users s)
  destroy : ∀ t s, I s → I (k.destroy t s) ∧ users (k.destroy t s) = dropUser (key t) (users s)
  last : ∀ t s, I s → (charge.destroy t s = 0 ↔ users s (key t) ≠ 1)

variable {view : τ → ρ} {meets : χ → ρ → Bool} {shape : χ → ρ} {key : τ → κ} {ckey : χ → κ}
  {barred : List κ} (h : SharedKind k charge view meets shape key ckey barred I users)

include h

omit [Subsingleton (AddUnits C)] in
/-- **The first pass** is free. New records come to the head of the list,
each with an object, and the table counts them. -/
theorem SharedKind.addMissing (cs : List χ) (l : List τ) {s : σ} (hs : I s) :
    addMissingCost k charge cs l s = 0 ∧ I (Reconcile.addMissing k cs l s).2 ∧
      (∀ gone, users (Reconcile.addMissing k cs l s).2 =
        Turn.withNew ⟨(newcomers meets shape cs (l.map view)).map ckey, barred, gone⟩ (users s)) ∧
      ∃ news, (Reconcile.addMissing k cs l s).1 = news ++ l ∧
        ∀ t ∈ news, cs.any (k.present t) = true := by
  induction cs generalizing l s with
  | nil =>
      refine ⟨rfl, hs, fun gone => ?_, [], rfl, List.forall_mem_nil _⟩
      ext x
      simp only [Reconcile.addMissing, newcomers, Turn.withNew, List.map_nil, List.count_nil,
        Nat.add_zero]
      split
      · rename_i hbar
        exact hbar.2
      · rfl
  | cons c cs ih =>
      have hstored : (l.map view).any (meets c) = l.any (k.stored c) := by
        rw [List.any_map]
        exact congrArg (List.any l) (funext fun t => (h.stored c t).symm)
      by_cases hany : l.any (k.stored c) = true
      · obtain ⟨hcost, hI, husers, news, heq, hnews⟩ := ih l hs
        have htrack : track k c l s = (l, s) := by
          rw [track, if_pos hany, updateFirst_same (h.update c)]
        rw [addMissingCost, Reconcile.addMissing, htrack, trackCost, if_pos hany,
          updateFirstCost_free (h.free c), zero_add, newcomers, hstored, if_pos hany]
        refine ⟨hcost, hI, husers, news, heq, fun t ht => ?_⟩
        rw [List.any_cons, hnews t ht, Bool.or_true]
      · obtain ⟨hI, hadd⟩ := h.create c s hs
        obtain ⟨hcost, hI, husers, news, heq, hnews⟩ := ih ((k.create c s).1 :: l) hI
        have htrack : track k c l s = ((k.create c s).1 :: l, (k.create c s).2) := by
          rw [track, if_neg hany]
          simp only [h.update]
        rw [addMissingCost, Reconcile.addMissing, htrack, trackCost, if_neg hany, h.free, zero_add,
          newcomers, hstored, if_neg hany]
        refine ⟨hcost, hI, fun gone => ?_, news ++ [(k.create c s).1], by rw [heq]; simp,
          fun t ht => ?_⟩
        · rw [husers gone, hadd, List.map_cons, h.view_create, List.map_cons, withNew_addUser]
        · rcases List.mem_append.mp ht with ht | ht
          · rw [List.any_cons, hnews t ht, Bool.or_true]
          · rw [List.mem_singleton.mp ht, List.any_cons, h.present_create, Bool.true_or]

/-- Records that are destroyed. -/
theorem SharedKind.destroyAll (l : List τ) {s : σ} (hs : I s) :
    I (Reconcile.destroyAll k.destroy l s) ∧
      (∀ x, users (Reconcile.destroyAll k.destroy l s) x = users s x - (l.map key).count x) ∧
      (destroyAllCost k.destroy charge.destroy l s = 0 ↔
        ∀ x ∈ l.map key, 0 < users s x → (l.map key).count x < users s x) := by
  induction l generalizing s with
  | nil => exact ⟨hs, fun _ => rfl, by simp [destroyAllCost]⟩
  | cons t l ih =>
      obtain ⟨hI, hdrop⟩ := h.destroy t s hs
      obtain ⟨hI, husers, hcost⟩ := ih hI
      refine ⟨hI, fun x => ?_, ?_⟩
      · show users (Reconcile.destroyAll k.destroy l (k.destroy t s)) x = _
        rw [husers, hdrop, List.map_cons, dropUser]
        by_cases hx : x = key t
        · rw [if_pos hx, ← hx, List.count_cons_self]
          omega
        · rw [if_neg hx, List.count_cons_of_ne (Ne.symm hx)]
      · rw [destroyAllCost, add_eq_zero, h.last t s hs, hcost, hdrop, List.map_cons,
          forall_dropUser_iff]

/-- **One list** is one turn. -/
theorem Plays.list (l : List τ) (cs : List χ) :
    Plays I users
      [⟨(newcomers meets shape cs (l.map view)).map ckey, barred,
        (l.filter fun t => !cs.any (k.present t)).map key⟩]
      (fun s => (reconcile k l cs s).2) (reconcileCost k charge l cs) := by
  have hrun : ∀ s, I s →
      (reconcile k l cs s).2 = Reconcile.destroyAll k.destroy
          (l.filter fun t => !cs.any (k.present t)) (Reconcile.addMissing k cs l s).2 ∧
        reconcileCost k charge l cs s = destroyAllCost k.destroy charge.destroy
          (l.filter fun t => !cs.any (k.present t)) (Reconcile.addMissing k cs l s).2 := by
    intro s hs
    obtain ⟨hcost, -, -, news, heq, hnews⟩ := h.addMissing cs l hs
    have hnone : (news.filter fun t => !cs.any (k.present t)) = [] :=
      List.filter_eq_nil_iff.mpr fun t ht => by simp [hnews t ht]
    rw [reconcile, reconcileCost, dropObsolete_snd, dropObsoleteCost_eq, hcost, heq,
      List.filter_append, hnone, zero_add, List.nil_append]
    exact ⟨rfl, rfl⟩
  constructor
  · intro s hs
    obtain ⟨-, hI, -⟩ := h.addMissing cs l hs
    rw [(hrun s hs).1]
    exact (h.destroyAll _ hI).1
  · intro s hs
    obtain ⟨-, hI, husers, -⟩ := h.addMissing cs l hs
    ext x
    rw [(hrun s hs).1, (h.destroyAll _ hI).2.1, husers]
    rfl
  · intro s hs
    obtain ⟨-, hI, husers, -⟩ := h.addMissing cs l hs
    rw [(hrun s hs).2, (h.destroyAll _ hI).2.2,
      husers ((l.filter fun t => !cs.any (k.present t)).map key)]
    simp only [Lasts, and_true, Turn.Lasts, Turn.after, Nat.sub_pos_iff_lt]

/-- **A list that is destroyed as a whole** is one turn, too. -/
theorem Plays.listEnd (l : List τ) :
    Plays I users [⟨[], barred, l.map key⟩] (Reconcile.destroyAll k.destroy l)
      (destroyAllCost k.destroy charge.destroy l) := by
  have hlist := Plays.list h l []
  have hrun : (fun s => (reconcile k l [] s).2) = Reconcile.destroyAll k.destroy l := by
    ext s
    rw [reconcile, dropObsolete_snd]
    simp [Reconcile.addMissing]
  have hcost : reconcileCost k charge l [] = destroyAllCost k.destroy charge.destroy l := by
    ext s
    rw [reconcileCost, dropObsoleteCost_eq]
    simp [Reconcile.addMissing, addMissingCost]
  rw [hrun, hcost] at hlist
  simpa [newcomers] using hlist

end Leaf

/-! ## Records with lists in them -/

section Passes

variable {k : Kind σ χ τ} {charge : Charge σ χ τ C} {Q : τ → Prop} {cs : List χ}
  {turn : χ → Option τ → List (Turn κ)} {endTurn : τ → List (Turn κ)}

/-- The turn of an object, with the record that is stored of it. -/
def turned (k : Kind σ χ τ) (c : χ) (o : Option τ) (s : σ) : τ × σ :=
  match o with
  | some t => k.update c t s
  | none => k.update c (k.create c s).1 (k.create c s).2

/-- What it costs. -/
def turnedCost (k : Kind σ χ τ) (charge : Charge σ χ τ C) (c : χ) (o : Option τ) (s : σ) : C :=
  match o with
  | some t => charge.update c t s
  | none => charge.update c (k.create c s).1 (k.create c s).2

/-- What the records of a kind play, as long as they are `Q`: `turn` for
an object and the record stored of it, `endTurn` for a record that is
destroyed. -/
structure PlaysKind (k : Kind σ χ τ) (charge : Charge σ χ τ C) (I : σ → Prop)
    (users : σ → κ → Nat) (Q : τ → Prop) (cs : List χ)
    (turn : χ → Option τ → List (Turn κ)) (endTurn : τ → List (Turn κ)) : Prop where
  found : ∀ c ∈ cs, ∀ t, Q t →
    Plays I users (turn c (some t)) (fun s => (k.update c t s).2) (charge.update c t)
  fresh : ∀ c ∈ cs,
    Plays I users (turn c none) (fun s => (turned k c none s).2) (turnedCost k charge c none)
  destroyed : ∀ t, Plays I users (endTurn t) (k.destroy t) (charge.destroy t)

/-- The turns of both passes: the objects, then the records without an
object. -/
def passTurns (stored : χ → τ → Bool) (present : τ → χ → Bool)
    (turn : χ → Option τ → List (Turn κ)) (endTurn : τ → List (Turn κ)) (l : List τ)
    (cs : List χ) : List (Turn κ) :=
  cs.flatMap (fun c => turn c (l.find? (stored c))) ++
    (l.filter fun t => !cs.any (present t)).flatMap endTurn

/-- A new record is created and updated. It is enough to know what the
update plays for the records there can be. -/
theorem Plays.fresh {c : χ}
    (hcreate : Plays I users [] (fun s => (k.create c s).2) fun _ => (0 : C))
    (hupdate : ∀ s₀, Plays I users ts (fun s => (k.update c (k.create c s₀).1 s).2)
      (charge.update c (k.create c s₀).1)) :
    Plays I users ts (fun s => (turned k c none s).2) (turnedCost k charge c none) where
  keeps s := (hcreate.afterIdle (hupdate s)).keeps s
  follows s := (hcreate.afterIdle (hupdate s)).follows s
  lasts s := (hcreate.afterIdle (hupdate s)).lasts s

omit [Subsingleton (AddUnits C)] in
theorem PlaysKind.turned (h : PlaysKind k charge I users Q cs turn endTurn) {c : χ}
    (hc : c ∈ cs) {o : Option τ} (ho : ∀ t, o = some t → Q t) :
    Plays I users (turn c o) (fun s => (Reconcile.turned k c o s).2)
      (turnedCost k charge c o) := by
  cases o with
  | none => exact h.fresh c hc
  | some t => exact h.found c hc t (ho t rfl)

theorem updateFirst_append {p : τ → Bool} {l₁ : List τ} (hl : ∀ t ∈ l₁, p t = false) {t : τ}
    (ht : p t = true) (f : τ → σ → τ × σ) (l₂ : List τ) (s : σ) :
    updateFirst p f (l₁ ++ t :: l₂) s = (l₁ ++ (f t s).1 :: l₂, (f t s).2) := by
  induction l₁ with
  | nil => rw [List.nil_append, updateFirst, if_pos ht, List.nil_append]
  | cons u l₁ ih =>
      have hu := hl u (by simp)
      rw [List.cons_append, updateFirst, if_neg (by simp [hu]), ih fun v hv => hl v (by simp [hv])]
      rfl

omit [Subsingleton (AddUnits C)] in
theorem updateFirstCost_append {p : τ → Bool} {l₁ : List τ} (hl : ∀ t ∈ l₁, p t = false) {t : τ}
    (ht : p t = true) (price : τ → σ → C) (l₂ : List τ) (s : σ) :
    updateFirstCost p price (l₁ ++ t :: l₂) s = price t s := by
  induction l₁ with
  | nil => rw [List.nil_append, updateFirstCost, if_pos ht]
  | cons u l₁ ih =>
      have hu := hl u (by simp)
      rw [List.cons_append, updateFirstCost, if_neg (by simp [hu]), ih fun v hv => hl v (by simp [hv])]

variable {ι : Type} [DecidableEq ι] {key : τ → ι} {ckey : χ → ι}

omit [Subsingleton (AddUnits C)] in
/-- **One object of the first pass**, for records with distinct keys: its
record is replaced, or a new one comes to the head. -/
theorem Keyed.track_split (hk : Keyed k key ckey) (charge : Charge σ χ τ C) (c : χ) {l : List τ}
    (hl : (l.map key).Nodup) (s : σ) : ∃ l₁ l₂,
      l = l₁ ++ (l.find? (k.stored c)).toList ++ l₂ ∧ (∀ t ∈ l₁ ++ l₂, key t ≠ ckey c) ∧
      track k c l s = (l₁ ++ (turned k c (l.find? (k.stored c)) s).1 :: l₂,
        (turned k c (l.find? (k.stored c)) s).2) ∧
      trackCost k charge c l s = turnedCost k charge c (l.find? (k.stored c)) s := by
  have hkey : ∀ t, k.stored c t = true ↔ key t = ckey c := fun t => by rw [hk.stored, beq_iff_eq]
  cases hfind : l.find? (k.stored c) with
  | none =>
      have hnone : ∀ t ∈ l, key t ≠ ckey c := fun t ht he =>
        List.find?_eq_none.mp hfind t ht ((hkey t).mpr he)
      have hany : ¬l.any (k.stored c) = true := by
        rw [List.any_eq_true]
        rintro ⟨t, ht, hp⟩
        exact hnone t ht ((hkey t).mp hp)
      exact ⟨[], l, rfl, hnone, by rw [track, if_neg hany]; rfl, by rw [trackCost, if_neg hany]; rfl⟩
  | some t =>
      obtain ⟨hp, l₁, l₂, rfl, hbefore⟩ := List.find?_eq_some_iff_append.mp hfind
      have hl₁ : ∀ u ∈ l₁, k.stored c u = false := fun u hu => by simpa using hbefore u hu
      have hany : (l₁ ++ t :: l₂).any (k.stored c) = true :=
        List.any_eq_true.mpr ⟨t, by simp, hp⟩
      refine ⟨l₁, l₂, by simp, fun u hu he => ?_, ?_, ?_⟩
      · -- the keys of the others are different
        have hperm : ((l₁ ++ t :: l₂).map key).Perm (key t :: (l₁ ++ l₂).map key) :=
          List.perm_middle.map key
        have hnot := (List.nodup_cons.mp (hperm.nodup_iff.mp hl)).1
        rw [(hkey t).mp hp, ← he] at hnot
        exact hnot (List.mem_map_of_mem hu)
      · rw [track, if_pos hany, updateFirst_append hl₁ hp]
        rfl
      · rw [trackCost, if_pos hany, updateFirstCost_append hl₁ hp]
        rfl

omit [AddCommMonoid C] [Subsingleton (AddUnits C)] in
theorem Keyed.turned_key (hk : Keyed k key ckey) {c : χ} {o : Option τ}
    (ho : ∀ t, o = some t → k.stored c t = true) (s : σ) : key (turned k c o s).1 = ckey c := by
  cases o with
  | none => exact (hk.update ..).trans (hk.create ..)
  | some t => exact (hk.update ..).trans (beq_iff_eq.mp ((hk.stored c t).symm.trans (ho t rfl)))

/-- The turn of an object leaves the records of the others alone. -/
theorem Keyed.filter_track (hk : Keyed k key ckey) {c : χ} {l : List τ} (hl : (l.map key).Nodup)
    (s : σ) {q : ι → Bool} (hq : q (ckey c) = false) :
    (track k c l s).1.filter (fun t => q (key t)) = l.filter fun t => q (key t) := by
  obtain ⟨l₁, l₂, hsplit, -, htrack, -⟩ := hk.track_split (C := ℕ) ⟨fun _ _ _ => 0, fun _ _ => 0⟩ c
    hl s
  have hold : ∀ t ∈ (l.find? (k.stored c)).toList, q (key t) = false := by
    intro t ht
    have hp := List.find?_some (Option.mem_toList.mp ht)
    rw [hk.stored, beq_iff_eq] at hp
    rw [hp, hq]
  have hnew : q (key (turned k c (l.find? (k.stored c)) s).1) = false := by
    rw [hk.turned_key (fun t ht => List.find?_some ht), hq]
  have hnil : (l.find? (k.stored c)).toList.filter (fun t => q (key t)) = [] :=
    List.filter_eq_nil_iff.mpr fun t ht => by simp [hold t ht]
  rw [htrack, List.filter_append, List.filter_cons_of_neg (by simpa using hnew)]
  conv_rhs => rw [hsplit]
  rw [List.filter_append, List.filter_append, hnil, List.append_nil]

/-- It changes nothing about what is stored of another. -/
theorem Keyed.find_track (hk : Keyed k key ckey) {c d : χ} {l : List τ} (hl : (l.map key).Nodup)
    (s : σ) (hne : ckey c ≠ ckey d) :
    (track k c l s).1.find? (k.stored d) = l.find? (k.stored d) := by
  have hp : k.stored d = fun t => key t == ckey d := funext (hk.stored d)
  have hfilter := hk.filter_track hl s (q := fun x => x == ckey d) (by simpa using hne)
  rw [hp, ← List.head?_filter, ← List.head?_filter, hfilter]

/-- **The first pass**, for distinct keys: the objects have their turns
with what was stored of them beforehand. The records without an object
are left alone. -/
theorem PlaysKind.addMissing (h : PlaysKind k charge I users Q cs turn endTurn)
    (hk : Keyed k key ckey) {cs' : List χ} (hsub : ∀ c ∈ cs', c ∈ cs)
    (hcs : (cs'.map ckey).Nodup) {l : List τ} (hl : (l.map key).Nodup)
    (hQ : ∀ c ∈ cs', ∀ t, l.find? (k.stored c) = some t → Q t) :
    Plays I users (cs'.flatMap fun c => turn c (l.find? (k.stored c)))
        (fun s => (Reconcile.addMissing k cs' l s).2) (addMissingCost k charge cs' l) ∧
      ∀ s, ((Reconcile.addMissing k cs' l s).1.filter fun t => !cs.any (k.present t)) =
        l.filter fun t => !cs.any (k.present t) := by
  have hpresent : ∀ t, (!cs.any (k.present t)) = decide (key t ∉ cs.map ckey) := by
    intro t
    rw [Bool.eq_iff_iff, Bool.not_eq_true', ← Bool.not_eq_true, hk.any_present, decide_eq_true_iff]
  simp only [hpresent]
  induction cs' generalizing l with
  | nil => exact ⟨.idle fun _ hs => ⟨hs, rfl⟩, fun _ => rfl⟩
  | cons c cs' ih =>
      rw [List.map_cons, List.nodup_cons] at hcs
      have hc : c ∈ cs := hsub c (by simp)
      have hfind : ∀ s, ∀ d ∈ cs',
          (track k c l s).1.find? (k.stored d) = l.find? (k.stored d) := fun s d hd =>
        hk.find_track hl s fun he => hcs.1 (he ▸ List.mem_map_of_mem hd)
      have hrest : ∀ s, _ := fun s => ih (fun d hd => hsub d (by simp [hd])) hcs.2
        (hk.nodup_track c s hl) (fun d hd t ht => hQ d (by simp [hd]) t (by rwa [← hfind s d hd]))
      have hturn := h.turned hc (hQ c (by simp))
      have hall : ∀ s, (cs'.flatMap fun d => turn d ((track k c l s).1.find? (k.stored d))) =
          cs'.flatMap fun d => turn d (l.find? (k.stored d)) := fun s =>
        List.flatMap_congr fun d hd => by rw [hfind s d hd]
      have hstep : ∀ s, (track k c l s).2 = (Reconcile.turned k c (l.find? (k.stored c)) s).2 ∧
          trackCost k charge c l s = turnedCost k charge c (l.find? (k.stored c)) s := by
        intro s
        obtain ⟨_, _, -, -, htrack, hcost⟩ := hk.track_split charge c hl s
        exact ⟨by rw [htrack], hcost⟩
      have hplays : ∀ s, Plays I users
          ((c :: cs').flatMap fun d => turn d (l.find? (k.stored d))) _ _ := fun s =>
        hturn.append (hall s ▸ (hrest s).1)
      refine ⟨⟨fun s hs => ?_, fun s hs => ?_, fun s hs => ?_⟩, fun s => ?_⟩
      · rw [Reconcile.addMissing, (hstep s).1]
        exact (hplays s).keeps s hs
      · rw [Reconcile.addMissing, (hstep s).1]
        exact (hplays s).follows s hs
      · rw [addMissingCost, (hstep s).1, (hstep s).2]
        exact (hplays s).lasts s hs
      · rw [Reconcile.addMissing, (hrest s).2]
        exact hk.filter_track hl s (q := fun x => decide (x ∉ cs.map ckey))
          (by simpa using ⟨c, hc, rfl⟩)

/-- **Both passes**, for distinct keys. -/
theorem PlaysKind.reconcile (h : PlaysKind k charge I users Q cs turn endTurn)
    (hk : Keyed k key ckey) (hcs : (cs.map ckey).Nodup) {l : List τ} (hl : (l.map key).Nodup)
    (hQ : ∀ t ∈ l, Q t) :
    Plays I users (passTurns k.stored k.present turn endTurn l cs)
      (fun s => (reconcile k l cs s).2) (reconcileCost k charge l cs) := by
  obtain ⟨hfirst, hothers⟩ := h.addMissing hk (fun _ hc => hc) hcs hl
    fun c _ t ht => hQ t (List.mem_of_find?_eq_some ht)
  have hsecond := Plays.destroyAll h.destroyed (l.filter fun t => !cs.any (k.present t))
  have hboth := hfirst.append hsecond
  have hrun : ∀ s, (Reconcile.reconcile k l cs s).2 = Reconcile.destroyAll k.destroy
        (l.filter fun t => !cs.any (k.present t)) (Reconcile.addMissing k cs l s).2 ∧
      reconcileCost k charge l cs s = addMissingCost k charge cs l s +
        destroyAllCost k.destroy charge.destroy (l.filter fun t => !cs.any (k.present t))
          (Reconcile.addMissing k cs l s).2 := by
    intro s
    rw [Reconcile.reconcile, reconcileCost, dropObsolete_snd, dropObsoleteCost_eq, hothers]
    exact ⟨rfl, rfl⟩
  refine ⟨fun s hs => ?_, fun s hs => ?_, fun s hs => ?_⟩
  · rw [(hrun s).1]
    exact hboth.keeps s hs
  · rw [(hrun s).1]
    exact hboth.follows s hs
  · rw [(hrun s).2]
    exact hboth.lasts s hs

end Passes

end Reconcile
