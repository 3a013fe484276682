import Mathlib

/-!
# Shuffling

The Fisher–Yates shuffle: from the last position down to the second, the element
there changes places with one at or below it. The random numbers are an argument,
one 64-bit word for each position, reduced modulo the number of choices.

`shuffleVector` is the same loop as it is written on vectors, with an unsigned index
and checked accesses; `shuffleVector_eq` says that it is `shuffle` on every vector with
an element.
-/

namespace Cashew.Lib

variable {α : Type}

/-- `for (; i > 0; --i) swap(l[i], l[draw % (i + 1)])`. -/
def shuffleFrom (draws : Nat → UInt64) : Nat → List α → List α
  | 0, l => l
  | i + 1, l => shuffleFrom draws i (l.swap (i + 1) ((draws (i + 1)).toNat % (i + 2)))

/-- The whole loop, for a list that is not empty. -/
def shuffle (draws : Nat → UInt64) (l : List α) : List α := shuffleFrom draws (l.length - 1) l

theorem shuffleFrom_perm (draws : Nat → UInt64) (i : Nat) (l : List α) :
    (shuffleFrom draws i l).Perm l := by
  induction i generalizing l with
  | zero => exact List.Perm.refl l
  | succ i ih => exact (ih _).trans (List.swap_perm l _ _)

theorem shuffle_perm (draws : Nat → UInt64) (l : List α) : (shuffle draws l).Perm l :=
  shuffleFrom_perm draws _ l

/-! ## On an unsigned index -/

/-- What may go wrong in the loop. -/
inductive LoopError where
  | divisionByZero
  | outOfBounds
  deriving DecidableEq

theorem toNat_pred {i : UInt64} (h : i ≠ 0) : (i - 1).toNat + 1 = i.toNat := by
  have hne : i.toNat ≠ 0 := fun hzero => h (UInt64.toNat_inj.mp hzero)
  have hone : (1 : UInt64) ≤ i := by
    rw [UInt64.le_iff_toNat_le, UInt64.toNat_one]
    omega
  rw [UInt64.toNat_sub_of_le _ _ hone, UInt64.toNat_one]
  omega

/-- `swap(l[i], l[j])`, checked. -/
def swapChecked (l : List α) (i j : UInt64) : Except LoopError (List α) :=
  if i.toNat < l.length ∧ j.toNat < l.length then .ok (l.swap i.toNat j.toNat)
  else .error .outOfBounds

/-- `for (; i > 0; --i) swap(l[i], l[draw % (i + 1)])`, where `i + 1` may wrap to zero. -/
def shuffleLoop (draws : Nat → UInt64) (i : UInt64) (l : List α) : Except LoopError (List α) :=
  if i = 0 then .ok l
  else if i + 1 = 0 then .error .divisionByZero
  else
    match swapChecked l i (draws i.toNat % (i + 1)) with
    | .ok l' => shuffleLoop draws (i - 1) l'
    | .error e => .error e
termination_by i.toNat
decreasing_by
  have hpred := toNat_pred ‹¬ i = 0›
  omega

/-- The loop from `size() - 1` on. -/
def shuffleVector (draws : Nat → UInt64) (l : List α) : Except LoopError (List α) :=
  shuffleLoop draws (UInt64.ofNat l.length - 1) l

/-- From an index of the vector on, every access is in bounds. -/
theorem shuffleLoop_eq (draws : Nat → UInt64) {n : Nat} {i : UInt64} (hi : i.toNat = n)
    {l : List α} (hlen : n < l.length) (hsize : l.length < 2 ^ 64) :
    shuffleLoop draws i l = .ok (shuffleFrom draws n l) := by
  induction n generalizing i l with
  | zero =>
    have hzero : i = 0 := UInt64.toNat_inj.mp hi
    rw [shuffleLoop, if_pos hzero]
    rfl
  | succ n ih =>
    have hzero : i ≠ 0 := by
      rintro rfl
      cases hi
    have hsucc : (i + 1).toNat = n + 2 := by
      rw [UInt64.toNat_add, UInt64.toNat_one, hi, Nat.mod_eq_of_lt (by omega)]
    have hnext : i + 1 ≠ 0 := by
      intro h
      rw [h] at hsucc
      cases hsucc
    have hpred : (i - 1).toNat = n := by
      have hstep := toNat_pred hzero
      omega
    -- the draw is at or below the index
    have hdraw : (draws i.toNat % (i + 1)).toNat = (draws (n + 1)).toNat % (n + 2) := by
      rw [UInt64.toNat_mod, hsucc, hi]
    have hlt : (draws (n + 1)).toNat % (n + 2) < l.length :=
      Nat.lt_of_lt_of_le (Nat.mod_lt _ (by omega)) (by omega)
    rw [shuffleLoop, if_neg hzero, if_neg hnext, swapChecked, hdraw, hi, if_pos ⟨hlen, hlt⟩]
    dsimp only
    rw [ih hpred (by rw [List.length_swap]; omega) (by rw [List.length_swap]; exact hsize)]
    rfl

/-- With an element to start from, the loop is the shuffle. -/
theorem shuffleVector_eq (draws : Nat → UInt64) {l : List α} (h : l ≠ [])
    (hsize : l.length < 2 ^ 64) : shuffleVector draws l = .ok (shuffle draws l) := by
  have hpos : 0 < l.length := List.length_pos_iff.mpr h
  have hlen : (UInt64.ofNat l.length).toNat = l.length := UInt64.toNat_ofNat_of_lt' hsize
  have hne : UInt64.ofNat l.length ≠ 0 := by
    intro hzero
    rw [hzero] at hlen
    exact Nat.ne_of_gt hpos hlen.symm
  have hlast : (UInt64.ofNat l.length - 1).toNat = l.length - 1 := by
    have hstep := toNat_pred hne
    omega
  exact shuffleLoop_eq draws hlast (by omega) hsize

/-- Without one, `size() - 1` is the largest index there is, and its successor zero. -/
theorem shuffleVector_nil (draws : Nat → UInt64) :
    shuffleVector draws ([] : List α) = .error .divisionByZero := by
  have hlast : UInt64.ofNat ([] : List α).length - 1 = 18446744073709551615 := rfl
  rw [shuffleVector, hlast, shuffleLoop, if_neg (by decide), if_pos (by decide)]

/-! ## Reaching the front -/

theorem getElem?_swap_of_ne {l : List α} {i j k : Nat} (hi : k ≠ i) (hj : k ≠ j) :
    (l.swap i j)[k]? = l[k]? := by
  rw [List.swap_eq]
  split
  · rw [List.getElem?_set_ne hj.symm, List.getElem?_set_ne hi.symm]
  · rfl

theorem getElem?_swap_right {l : List α} {i j : Nat} (hi : i < l.length) (hj : j < l.length) :
    (l.swap i j)[j]? = l[i]? := by
  rw [List.swap_eq_of_lt hi hj, List.getElem?_set_self (by simpa using hj),
    List.getElem?_eq_getElem hi]

/-- Draws that bring position `k` to the front: below it the second position is
swapped, from it on the first one. -/
def drawsToFront (k i : Nat) : UInt64 := if i < k ∨ k = 0 then 1 else 0

/-- Below `k` the front stays where it is. -/
theorem shuffleFrom_front_of_lt {k : Nat} (i : Nat) (h : i < k ∨ k = 0) (l : List α) :
    (shuffleFrom (drawsToFront k) i l)[0]? = l[0]? := by
  induction i generalizing l with
  | zero => rfl
  | succ i ih =>
    have hdraw : (drawsToFront k (i + 1)).toNat % (i + 2) = 1 := by
      rw [drawsToFront, if_pos h]
      exact Nat.mod_eq_of_lt (show 1 < i + 2 by omega)
    rw [shuffleFrom, ih (by omega), hdraw]
    exact getElem?_swap_of_ne (Nat.succ_ne_zero i).symm Nat.zero_ne_one

/-- From `k` on the front takes what is at `k`. -/
theorem shuffleFrom_front_of_le {k : Nat} (hk : k ≠ 0) (i : Nat) (h : k ≤ i) {l : List α}
    (hlen : i < l.length) : (shuffleFrom (drawsToFront k) i l)[0]? = l[k]? := by
  induction i generalizing l with
  | zero => exact absurd (Nat.le_zero.mp h) hk
  | succ i ih =>
    have hdraw : (drawsToFront k (i + 1)).toNat % (i + 2) = 0 := by
      rw [drawsToFront, if_neg (by omega)]
      exact Nat.zero_mod _
    rw [shuffleFrom, hdraw]
    by_cases hlt : k ≤ i
    · rw [ih hlt (by rw [List.length_swap]; omega)]
      exact getElem?_swap_of_ne (by omega) hk
    · have hki : k = i + 1 := by omega
      rw [shuffleFrom_front_of_lt i (by omega), getElem?_swap_right hlen (by omega), hki]

/-- Every element can come out first. -/
theorem exists_shuffle_front {l : List α} {a : α} (h : a ∈ l) :
    ∃ draws, (shuffle draws l)[0]? = some a := by
  obtain ⟨k, hk⟩ := List.getElem?_of_mem h
  refine ⟨drawsToFront k, ?_⟩
  unfold shuffle
  by_cases hzero : k = 0
  · rw [shuffleFrom_front_of_lt _ (.inr hzero), ← hzero, hk]
  · have hlt : k < l.length := (List.getElem?_eq_some_iff.mp hk).1
    rw [shuffleFrom_front_of_le hzero _ (by omega) (by omega), hk]

end Cashew.Lib
