import Mathlib
import Rtcr.Util

/-!
# Restorer.Sort — `merge_sort`

The merge of `util/sort.h` works on two halves with one cursor each and
never tests for the end of a half: a cursor that has run through its
half goes on to the last element of the other one, which is at least as
big as anything the other cursor will still meet.
-/

namespace Rtcr

/-- `pos1` or `pos2`: which half it points into, and where. -/
structure Cursor where
  second : Bool
  index : Nat
deriving DecidableEq, Repr

/-- `*pos`. -/
def Cursor.read (half1 half2 : List Nat) (pos : Cursor) : Except Err Nat :=
  match (if pos.second then half2 else half1)[pos.index]? with
  | some x => .ok x
  | none => .error .outOfBounds

/-- The last element of a half. -/
def lastOf (half : List Nat) (second : Bool) : Cursor := ⟨second, half.length - 1⟩

def advancePos1 (half1 half2 : List Nat) (pos1 : Cursor) : Cursor :=
  if pos1 = lastOf half2 true then pos1
  else if pos1 = lastOf half1 false then lastOf half2 true
  else { pos1 with index := pos1.index + 1 }

def advancePos2 (half1 half2 : List Nat) (pos2 : Cursor) : Cursor :=
  if pos2 = lastOf half2 true then lastOf half1 false
  else { pos2 with index := pos2.index + 1 }

/-- The loop that fills `array`, `n` elements of it. -/
def mergeHalves (half1 half2 : List Nat) : Nat → Cursor → Cursor → Except Err (List Nat)
  | 0, _, _ => .ok []
  | n + 1, pos1, pos2 => do
      let x ← pos1.read half1 half2
      let y ← pos2.read half1 half2
      if x ≤ y then
        let rest ← mergeHalves half1 half2 n (advancePos1 half1 half2 pos1) pos2
        return x :: rest
      else
        let rest ← mergeHalves half1 half2 n pos1 (advancePos2 half1 half2 pos2)
        return y :: rest

/-- The recursion, for arrays of at most `n` elements. -/
def sortUpTo : Nat → List Nat → Except Err (List Nat)
  | 0, array => .ok array
  | n + 1, array =>
      if array.length > 1 then do
        let half1 ← sortUpTo n (array.take (array.length / 2))
        let half2 ← sortUpTo n (array.drop (array.length / 2))
        mergeHalves half1 half2 array.length ⟨false, 0⟩ ⟨true, 0⟩
      else .ok array

/-- `merge_sort`. -/
def mergeSort (array : List Nat) : Except Err (List Nat) := sortUpTo array.length array

/-! ## Correctness -/

theorem read_first {half1 half2 : List Nat} {i : Nat} (hi : i < half1.length) :
    Cursor.read half1 half2 ⟨false, i⟩ = .ok half1[i] := by
  simp [Cursor.read, hi]

theorem read_second {half1 half2 : List Nat} {i : Nat} (hi : i < half2.length) :
    Cursor.read half1 half2 ⟨true, i⟩ = .ok half2[i] := by
  simp [Cursor.read, hi]

theorem read_lastFirst {half1 half2 : List Nat} (h : half1.length - 1 < half1.length) :
    (lastOf half1 false).read half1 half2 = .ok half1[half1.length - 1] := read_first h

theorem read_lastSecond {half1 half2 : List Nat} (h : half2.length - 1 < half2.length) :
    (lastOf half2 true).read half1 half2 = .ok half2[half2.length - 1] := read_second h

section Merge

variable {half1 half2 : List Nat}

/-- One turn of the loop. -/
theorem mergeHalves_succ {n : Nat} {pos1 pos2 : Cursor} {x y : Nat}
    (hx : pos1.read half1 half2 = .ok x) (hy : pos2.read half1 half2 = .ok y) :
    mergeHalves half1 half2 (n + 1) pos1 pos2 =
      if x ≤ y then
        (mergeHalves half1 half2 n (advancePos1 half1 half2 pos1) pos2).map (x :: ·)
      else (mergeHalves half1 half2 n pos1 (advancePos2 half1 half2 pos2)).map (y :: ·) := by
  rw [mergeHalves, hx, hy]
  rfl

/-- The first half is used up. -/
theorem mergeHalves_firstDone (h2 : half2.Pairwise (· ≤ ·)) {n j : Nat}
    (hn : j + n = half2.length) (hj : 0 < n) :
    mergeHalves half1 half2 n (lastOf half2 true) ⟨true, j⟩ = .ok (half2.drop j) := by
  induction n generalizing j with
  | zero => omega
  | succ n ih =>
      have hlast : half2.length - 1 < half2.length := by omega
      have hjlt : j < half2.length := by omega
      have hmono : half2[j] ≤ half2[half2.length - 1] := by
        rcases Nat.lt_or_ge j (half2.length - 1) with hlt | hge
        · exact List.pairwise_iff_getElem.mp h2 _ _ hjlt hlast hlt
        · exact le_of_eq (by congr 1; omega)
      rw [mergeHalves_succ (read_lastSecond hlast) (read_second hjlt), List.drop_eq_getElem_cons hjlt]
      by_cases hle : half2[half2.length - 1] ≤ half2[j]
      · -- everything from `j` on is the same
        rw [if_pos hle]
        have hsame : half2[half2.length - 1] = half2[j] := le_antisymm hle hmono
        have hstay : advancePos1 half1 half2 (lastOf half2 true) = lastOf half2 true := if_pos rfl
        have hrest : ∀ m ≤ n, mergeHalves half1 half2 m (lastOf half2 true) ⟨true, j⟩ =
            .ok (List.replicate m half2[j]) := by
          intro m hm
          induction m with
          | zero => rfl
          | succ m ihm =>
              rw [mergeHalves_succ (read_lastSecond hlast) (read_second hjlt), if_pos hle, hstay,
                ihm (by omega), hsame]
              rfl
        have hdrop : half2.drop (j + 1) = List.replicate n half2[j] := by
          refine List.eq_replicate_iff.mpr ⟨by rw [List.length_drop]; omega, fun x hx => ?_⟩
          obtain ⟨k, hk, rfl⟩ := List.mem_iff_getElem.mp hx
          rw [List.length_drop] at hk
          rw [List.getElem_drop]
          refine le_antisymm ?_ (List.pairwise_iff_getElem.mp h2 _ _ hjlt (by omega) (by omega))
          rw [← hsame]
          rcases Nat.lt_or_ge (j + 1 + k) (half2.length - 1) with hlt | hge
          · exact List.pairwise_iff_getElem.mp h2 _ _ (by omega) hlast hlt
          · exact le_of_eq (by congr 1; omega)
        rw [hstay, hrest n le_rfl, hdrop, hsame]
        rfl
      · rw [if_neg hle]
        have hne : j ≠ half2.length - 1 := fun he => hle (le_of_eq (by congr 1; exact he.symm))
        have hnext : advancePos2 half1 half2 ⟨true, j⟩ = ⟨true, j + 1⟩ :=
          if_neg fun he => hne (congrArg Cursor.index he)
        rw [hnext, ih (by omega) (by omega)]
        rfl

/-- The second half is used up. -/
theorem mergeHalves_secondDone (h1 : half1.Pairwise (· ≤ ·)) {n i : Nat}
    (hn : i + n = half1.length) :
    mergeHalves half1 half2 n ⟨false, i⟩ (lastOf half1 false) = .ok (half1.drop i) := by
  induction n generalizing i with
  | zero =>
      rw [List.drop_eq_nil_of_le (by omega)]
      rfl
  | succ n ih =>
      have hlast : half1.length - 1 < half1.length := by omega
      have hilt : i < half1.length := by omega
      have hle : half1[i] ≤ half1[half1.length - 1] := by
        rcases Nat.lt_or_ge i (half1.length - 1) with hlt | hge
        · exact List.pairwise_iff_getElem.mp h1 _ _ hilt hlast hlt
        · exact le_of_eq (by congr 1; omega)
      rw [mergeHalves_succ (read_first hilt) (read_lastFirst hlast), if_pos hle,
        List.drop_eq_getElem_cons hilt]
      by_cases hend : i = half1.length - 1
      · have hzero : n = 0 := by omega
        subst hzero
        rw [List.drop_eq_nil_of_le (by omega)]
        rfl
      · have hnext : advancePos1 half1 half2 ⟨false, i⟩ = ⟨false, i + 1⟩ := by
          unfold advancePos1
          rw [if_neg (by simp [lastOf]), if_neg (by simp [lastOf, hend])]
        rw [hnext, ih (by omega)]
        rfl

/-- **The merge**, from two elements on that are both still in their own
half. -/
theorem mergeHalves_eq (h1 : half1.Pairwise (· ≤ ·)) (h2 : half2.Pairwise (· ≤ ·)) {n i j : Nat}
    (hi : i < half1.length) (hj : j < half2.length)
    (hn : i + j + n = half1.length + half2.length) :
    mergeHalves half1 half2 n ⟨false, i⟩ ⟨true, j⟩ =
      .ok (List.merge (half1.drop i) (half2.drop j)) := by
  induction n generalizing i j with
  | zero => omega
  | succ n ih =>
      rw [mergeHalves_succ (read_first hi) (read_second hj), List.drop_eq_getElem_cons hi,
        List.drop_eq_getElem_cons hj]
      by_cases hle : half1[i] ≤ half2[j]
      · rw [if_pos hle, List.cons_merge_cons_pos _ _ _ (by simpa using hle),
          ← List.drop_eq_getElem_cons hj]
        by_cases hend : i = half1.length - 1
        · have hnext : advancePos1 half1 half2 ⟨false, i⟩ = lastOf half2 true := by
            unfold advancePos1
            rw [if_neg (by simp [lastOf]), if_pos (by simp [lastOf, hend])]
          rw [hnext, mergeHalves_firstDone h2 (by omega) (by omega),
            List.drop_eq_nil_of_le (show half1.length ≤ i + 1 by omega), List.nil_merge]
          rfl
        · have hnext : advancePos1 half1 half2 ⟨false, i⟩ = ⟨false, i + 1⟩ := by
            unfold advancePos1
            rw [if_neg (by simp [lastOf]), if_neg (by simp [lastOf, hend])]
          rw [hnext, ih (by omega) hj (by omega)]
          rfl
      · rw [if_neg hle, List.cons_merge_cons_neg _ _ _ (by simpa using hle),
          ← List.drop_eq_getElem_cons hi]
        by_cases hend : j = half2.length - 1
        · have hnext : advancePos2 half1 half2 ⟨true, j⟩ = lastOf half1 false :=
            if_pos (by rw [hend]; rfl)
          rw [hnext, mergeHalves_secondDone h1 (by omega),
            List.drop_eq_nil_of_le (show half2.length ≤ j + 1 by omega), List.merge_right]
          rfl
        · have hnext : advancePos2 half1 half2 ⟨true, j⟩ = ⟨true, j + 1⟩ :=
            if_neg fun he => hend (congrArg Cursor.index he)
          rw [hnext, ih hi (by omega) (by omega)]
          rfl

end Merge

theorem sortUpTo_sorted {n : Nat} {array : List Nat} (h : array.length ≤ n) :
    ∃ sorted, sortUpTo n array = .ok sorted ∧ sorted.Pairwise (· ≤ ·) ∧ sorted.Perm array := by
  induction n generalizing array with
  | zero =>
      obtain rfl := List.length_eq_zero_iff.mp (by omega : array.length = 0)
      exact ⟨[], rfl, .nil, .refl _⟩
  | succ n ih =>
      unfold sortUpTo
      by_cases hlen : array.length > 1
      · rw [if_pos hlen]
        have hlen₁ : (array.take (array.length / 2)).length ≤ n := by
          rw [List.length_take]
          omega
        have hlen₂ : (array.drop (array.length / 2)).length ≤ n := by
          rw [List.length_drop]
          omega
        obtain ⟨half1, hok1, hs1, hp1⟩ := ih hlen₁
        obtain ⟨half2, hok2, hs2, hp2⟩ := ih hlen₂
        have hlen1 := hp1.length_eq
        have hlen2 := hp2.length_eq
        rw [List.length_take] at hlen1
        rw [List.length_drop] at hlen2
        rw [hok1, hok2]
        refine ⟨List.merge half1 half2, ?_, ?_, ?_⟩
        · have hmerge := mergeHalves_eq (n := array.length) hs1 hs2 (i := 0) (j := 0) (by omega)
            (by omega) (by omega)
          simpa [bind, Except.bind] using hmerge
        · refine (@List.pairwise_merge _ (fun a b => decide (a ≤ b)) ?_ ?_ _ _ ?_ ?_).imp ?_
          · intro a b c
            simpa using le_trans
          · intro a b
            simpa using le_total a b
          · simpa using hs1
          · simpa using hs2
          · intro a b hab
            simpa using hab
        · refine (List.merge_perm_append _).trans ((hp1.append hp2).trans ?_)
          rw [List.take_append_drop]
      · rw [if_neg hlen]
        refine ⟨array, rfl, ?_, .refl _⟩
        match array, hlen with
        | [], _ => exact .nil
        | [x], _ => exact List.pairwise_singleton ..
        | _ :: _ :: _, hlen => exact absurd (by simp) hlen

/-- **`merge_sort` sorts**, and stays inside its arrays. -/
theorem mergeSort_sorted (array : List Nat) :
    ∃ sorted, mergeSort array = .ok sorted ∧ sorted.Pairwise (· ≤ ·) ∧ sorted.Perm array :=
  sortUpTo_sorted le_rfl

end Rtcr
