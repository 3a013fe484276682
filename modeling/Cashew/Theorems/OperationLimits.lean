import Cashew.Utils.TimeUtils

/-!
# Operations that are allowed

The limiter keeps part of the times it has seen, but for any cutoff not before those it
has used the part from the cutoff on is all there (`kept_of_cutoff`). So the length of its
list is the number of operations in the window.
-/

namespace Cashew.Theorems.OperationLimits

open Cashew Cashew.Lib

/-- The readings of a run in the order in which they are taken. -/
def readings (inputs : List AllowReadings) : List Int :=
  inputs.flatMap fun i => [i.cleanup, i.stamp]

/-- The number of times in a closed window. -/
def countIn (first last : Int) (times : List Int) : Nat :=
  times.countP fun t => decide (first ≤ t ∧ t ≤ last)

section Run

variable (maxOperations windowSeconds : UInt32)

/-- The limiter after these calls. -/
def limiter (inputs : List AllowReadings) : OperationLimiter :=
  (operationMachine.run (.create maxOperations windowSeconds) inputs).1

/-- The times of the operations that these calls allow. -/
def allowed (inputs : List AllowReadings) : List Int :=
  (operationMachine.run (.create maxOperations windowSeconds) inputs).2

/-- The length of the window. -/
def window : Int := windowSeconds.toNat * 1000000000

variable {maxOperations windowSeconds} {past : List AllowReadings} {i : AllowReadings}

theorem limiter_concat :
    limiter maxOperations windowSeconds (past ++ [i]) =
      ((limiter maxOperations windowSeconds past).allow i).1 := by
  unfold limiter
  rw [Machine.run_append]
  rfl

theorem allowed_concat :
    allowed maxOperations windowSeconds (past ++ [i]) =
      allowed maxOperations windowSeconds past ++
        if ((limiter maxOperations windowSeconds past).allow i).2 then [i.stamp] else [] := by
  unfold allowed
  rw [Machine.run_append_outputs]
  exact congrArg _ (List.append_nil _)

/-- The limits stay. -/
theorem limiter_limits (inputs : List AllowReadings) :
    (limiter maxOperations windowSeconds inputs).maxOperations = maxOperations ∧
      (limiter maxOperations windowSeconds inputs).window = window windowSeconds := by
  refine operationMachine.run_invariant
    (P := fun l => l.maxOperations = maxOperations ∧ l.window = window windowSeconds) ?_
    ⟨rfl, rfl⟩ inputs
  intro l i hlimits
  show (l.allow i).1.maxOperations = _ ∧ (l.allow i).1.window = _
  unfold OperationLimiter.allow
  dsimp only
  split <;> exact hlimits

/-! ## What is kept -/

/-- From a cutoff that is not before the ones used, nothing is forgotten. -/
theorem kept_of_cutoff (inputs : List AllowReadings) (cutoff : Int)
    (h : ∀ i ∈ inputs, i.cleanup - window windowSeconds ≤ cutoff) :
    (limiter maxOperations windowSeconds inputs).timestamps.filter (fun t => !(t < cutoff)) =
      (allowed maxOperations windowSeconds inputs).filter fun t => !(t < cutoff) := by
  induction inputs using List.reverseRecOn with
  | nil => rfl
  | append_singleton past i ih =>
    have hpast := ih fun j hj => h j (List.mem_append_left _ hj)
    have hcutoff := h i (List.mem_append_right _ List.mem_cons_self)
    -- the cleanup drops only times before this cutoff
    have hcleaned : (((limiter maxOperations windowSeconds past).cleanupOldTimestamps
        i.cleanup).timestamps).filter (fun t => !(t < cutoff)) =
          (allowed maxOperations windowSeconds past).filter fun t => !(t < cutoff) := by
      rw [← hpast, OperationLimiter.cleanupOldTimestamps, (limiter_limits past).2,
        List.filter_filter]
      refine List.filter_congr fun t _ => ?_
      by_cases ht : t < cutoff
      · simp [ht]
      · have hkept : ¬ t < i.cleanup - window windowSeconds := by omega
        simp [ht, hkept]
    rw [limiter_concat, allowed_concat, List.filter_append, ← hcleaned]
    unfold OperationLimiter.allow
    dsimp only
    split
    · rw [List.filter_append]
      rfl
    · exact (List.append_nil _).symm

/-- No operation is allowed later than the readings say. -/
theorem allowed_le {last : Int} (inputs : List AllowReadings) (h : ∀ i ∈ inputs, i.stamp ≤ last) :
    ∀ t ∈ allowed maxOperations windowSeconds inputs, t ≤ last := by
  induction inputs using List.reverseRecOn with
  | nil => exact fun _ ht => nomatch ht
  | append_singleton past i ih =>
    intro t ht
    rw [allowed_concat] at ht
    rcases List.mem_append.mp ht with hbefore | hnow
    · exact ih (fun j hj => h j (List.mem_append_left _ hj)) t hbefore
    · split at hnow
      · rw [List.mem_singleton.mp hnow]
        exact h i (List.mem_append_right _ List.mem_cons_self)
      · cases hnow

/-- In the order of a clock that does not go back. -/
theorem readings_concat (h : (readings (past ++ [i])).Pairwise (· ≤ ·)) :
    (readings past).Pairwise (· ≤ ·) ∧
      (∀ j ∈ past, j.cleanup ≤ i.cleanup ∧ j.stamp ≤ i.cleanup) ∧ i.cleanup ≤ i.stamp := by
  unfold readings at h
  rw [List.flatMap_append, List.pairwise_append] at h
  obtain ⟨hpast, hnow, hacross⟩ := h
  refine ⟨hpast, fun j hj => ⟨?_, ?_⟩, ?_⟩
  · exact hacross _ (List.mem_flatMap.mpr ⟨j, hj, by simp⟩) _ (by simp)
  · exact hacross _ (List.mem_flatMap.mpr ⟨j, hj, by simp⟩) _ (by simp)
  · simpa using hnow

/-- The list a call looks at has the operations in the window before it. -/
theorem length_cleanup (h : (readings (past ++ [i])).Pairwise (· ≤ ·)) :
    ((limiter maxOperations windowSeconds past).cleanupOldTimestamps i.cleanup).timestamps.length =
      countIn (i.cleanup - window windowSeconds) i.cleanup
        (allowed maxOperations windowSeconds past) := by
  obtain ⟨-, hbefore, -⟩ := readings_concat h
  rw [OperationLimiter.cleanupOldTimestamps, (limiter_limits past).2]
  dsimp only
  rw [kept_of_cutoff past _ fun j hj => sub_le_sub_right (hbefore j hj).1 _,
    ← List.countP_eq_length_filter, countIn]
  refine List.countP_congr fun t ht => ?_
  have hle := allowed_le past (fun j hj => (hbefore j hj).2) t ht
  simp [hle]

/-- An operation is allowed while fewer than the maximum are in the window before it. -/
theorem allow_iff (h : (readings (past ++ [i])).Pairwise (· ≤ ·)) :
    ((limiter maxOperations windowSeconds past).allow i).2 = true ↔
      countIn (i.cleanup - window windowSeconds) i.cleanup
        (allowed maxOperations windowSeconds past) < maxOperations.toNat := by
  have hmax : (limiter maxOperations windowSeconds past).maxOperations = maxOperations :=
    (limiter_limits past).1
  rw [← length_cleanup h]
  unfold OperationLimiter.allow OperationLimiter.cleanupOldTimestamps
  dsimp only
  rw [hmax]
  split
  · exact iff_of_true rfl ‹_›
  · exact iff_of_false Bool.false_ne_true ‹_›

/-! ## Windows -/

/-- The operations of a window up to an allowed one are in the window before it. -/
theorem countIn_le_before {first stamp cleanup length : Int} {times : List Int}
    (htimes : ∀ t ∈ times, t ≤ cleanup) (hclock : cleanup ≤ stamp) (hin : stamp ≤ first + length) :
    countIn first (first + length) times ≤ countIn (cleanup - length) cleanup times := by
  refine List.countP_mono_left fun t ht hwithin => ?_
  have hle := htimes t ht
  rw [decide_eq_true_eq] at hwithin ⊢
  omega

/-- No closed window has more than the maximum. -/
theorem countIn_allowed_le (inputs : List AllowReadings)
    (h : (readings inputs).Pairwise (· ≤ ·)) (first : Int) :
    countIn first (first + window windowSeconds) (allowed maxOperations windowSeconds inputs) ≤
      maxOperations.toNat := by
  induction inputs using List.reverseRecOn with
  | nil => exact Nat.zero_le _
  | append_singleton past i ih =>
    obtain ⟨hpast, hbefore, hclock⟩ := readings_concat h
    have hrest := ih hpast
    rw [allowed_concat]
    by_cases hnow : ((limiter maxOperations windowSeconds past).allow i).2 = true
    · rw [if_pos hnow]
      unfold countIn at hrest ⊢
      rw [List.countP_append, List.countP_singleton]
      split
      · rename_i hwithin
        rw [decide_eq_true_eq] at hwithin
        have hfew := (allow_iff h).mp hnow
        have hfewer : countIn first (first + window windowSeconds)
            (allowed maxOperations windowSeconds past) ≤
              countIn (i.cleanup - window windowSeconds) i.cleanup
                (allowed maxOperations windowSeconds past) :=
          countIn_le_before (allowed_le past fun j hj => (hbefore j hj).2) hclock hwithin.2
        unfold countIn at hfew hfewer
        omega
      · exact hrest
    · rw [if_neg hnow, List.append_nil]
      exact hrest

end Run

/-- **Limited operations.** With a clock that does not go back, a call of `allow` answers
true just when fewer than the maximum were allowed in the closed window before it, and no
closed window of that length has more than the maximum. -/
theorem operations_limited (maxOperations windowSeconds : UInt32) (inputs : List AllowReadings)
    (hClock : (readings inputs).Pairwise (· ≤ ·)) :
    (∀ front i back, inputs = front ++ i :: back →
      (((limiter maxOperations windowSeconds front).allow i).2 = true ↔
        countIn (i.cleanup - window windowSeconds) i.cleanup
          (allowed maxOperations windowSeconds front) < maxOperations.toNat)) ∧
      ∀ first, countIn first (first + window windowSeconds)
        (allowed maxOperations windowSeconds inputs) ≤ maxOperations.toNat := by
  refine ⟨?_, countIn_allowed_le inputs hClock⟩
  rintro front i back rfl
  refine allow_iff ?_
  unfold readings at hClock ⊢
  rw [List.append_cons, List.flatMap_append] at hClock
  exact hClock.sublist (List.sublist_append_left _ _)

/-- Three operations in a second, and a fourth that is refused. -/
theorem fourth_refused :
    ((limiter 3 1 (List.replicate 3 ⟨0, 0⟩)).allow ⟨0, 0⟩).2 = false ∧
      countIn 0 (0 + window 1) (allowed 3 1 (List.replicate 4 ⟨0, 0⟩)) ≤ 3 := by
  have h := operations_limited 3 1 (List.replicate 4 ⟨0, 0⟩) (by decide)
  refine ⟨?_, h.2 0⟩
  rw [Bool.eq_false_iff, Ne, h.1 (List.replicate 3 ⟨0, 0⟩) ⟨0, 0⟩ [] rfl]
  decide

end Cashew.Theorems.OperationLimits
