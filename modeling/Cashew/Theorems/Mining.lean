import Cashew.Keys.ProofOfWork

/-!
# Solving puzzles

A node starts with a difficulty and changes it by the time a solution took. It stays in the
range that `generate_puzzle` would clamp it to (`inRange_adjusted`). The loop of `solve_puzzle`
returns the first of the nonces it draws that meets the difficulty, if it draws that far
(`solved_iff`, `exhausted_iff`).

What it returns verifies, and not only for the puzzle it was made for: neither the epoch nor the
time of a puzzle is hashed (`mined_verifies`).
-/

namespace Cashew.Theorems.Mining

open Cashew Cashew.Lib ProofOfWork

variable {a : Argon2} {puzzle : PowPuzzle} {maxAttempts : UInt64} {nonces elapsed : ℕ → UInt64}
  {rounds attempt : ℕ} {solution : PowSolution}

/-! ## Difficulties -/

/-- Within the range of difficulties. -/
def InRange (difficulty : UInt32) : Prop :=
  minDifficulty ≤ difficulty ∧ difficulty ≤ maxDifficulty

instance (difficulty : UInt32) : Decidable (InRange difficulty) :=
  inferInstanceAs (Decidable (_ ∧ _))

theorem inRange_iff {difficulty : UInt32} :
    InRange difficulty ↔ 4 ≤ difficulty.toNat ∧ difficulty.toNat ≤ 32 := by
  unfold InRange
  rw [UInt32.le_iff_toNat_le, UInt32.le_iff_toNat_le]
  exact Iff.rfl

theorem inRange_getStartingDifficulty (hashesPerSecond : UInt64) :
    InRange (getStartingDifficulty hashesPerSecond) := by
  unfold getStartingDifficulty
  split
  · decide
  · split
    · decide
    · split <;> decide

theorem toNat_minDifficulty (difficulty : UInt32) :
    (min difficulty maxDifficulty).toNat = min difficulty.toNat 32 := by
  show (if difficulty ≤ maxDifficulty then difficulty else maxDifficulty).toNat = _
  have hmax : maxDifficulty.toNat = 32 := rfl
  split <;> rename_i hle <;> rw [UInt32.le_iff_toNat_le] at hle <;> omega

theorem inRange_adjustDifficulty (time : UInt64) {difficulty : UInt32} (h : InRange difficulty) :
    InRange (adjustDifficulty time difficulty) := by
  rw [inRange_iff] at h ⊢
  unfold adjustDifficulty
  split
  · have hnext : (difficulty + 1).toNat = difficulty.toNat + 1 := by
      have hone : (1 : UInt32).toNat = 1 := rfl
      rw [UInt32.toNat_add, hone]
      omega
    rw [toNat_minDifficulty, hnext]
    omega
  · split
    · split
      · rename_i hgreater
        have hless : 4 < difficulty.toNat := UInt32.lt_iff_toNat_lt.mp hgreater
        have hone : (1 : UInt32).toNat = 1 := rfl
        have hle : (1 : UInt32) ≤ difficulty := by
          rw [UInt32.le_iff_toNat_le, hone]
          omega
        rw [UInt32.toNat_sub_of_le _ _ hle, hone]
        omega
      · exact ⟨Nat.le_refl 4, by decide⟩
    · exact h

/-- However long its solutions took, a node's difficulty is in range. -/
theorem inRange_adjusted (hashesPerSecond : UInt64) (times : List UInt64) :
    InRange (times.foldl (fun difficulty time => adjustDifficulty time difficulty)
      (getStartingDifficulty hashesPerSecond)) := by
  induction times using List.reverseRecOn with
  | nil => exact inRange_getStartingDifficulty hashesPerSecond
  | append_singleton times time ih =>
    rw [List.foldl_concat]
    exact inRange_adjustDifficulty time ih

/-- A difficulty in range is the puzzle's. -/
theorem difficulty_generatePuzzle (challenge : Bytes) (epoch timestamp : UInt64)
    {difficulty : UInt32} (h : InRange difficulty) :
    (generatePuzzle challenge epoch difficulty timestamp).difficulty = difficulty := by
  show max minDifficulty (min difficulty maxDifficulty) = difficulty
  have hmin : min difficulty maxDifficulty = difficulty := if_pos h.2
  rw [hmin]
  exact if_pos h.1

/-! ## The loop -/

/-- The attempt is made, if the loop comes so far. -/
def Allowed (maxAttempts : UInt64) (attempt : ℕ) : Prop :=
  maxAttempts = 0 ∨ attempt < maxAttempts.toNat

/-- The nonce that is drawn at an attempt meets the difficulty. -/
def Meets (a : Argon2) (puzzle : PowPuzzle) (nonces : ℕ → UInt64) (attempt : ℕ) : Prop :=
  meetsDifficulty (puzzleHash a puzzle (nonces attempt)) puzzle.difficulty = true

/-- The solution that is put together from an attempt. -/
def solutionAt (a : Argon2) (puzzle : PowPuzzle) (nonces elapsed : ℕ → UInt64) (attempt : ℕ) :
    PowSolution where
  solutionHash := puzzleHash a puzzle (nonces attempt)
  nonce := nonces attempt
  difficulty := puzzle.difficulty
  computeTimeMs := elapsed attempt

theorem solveLoop_of_meets (hallowed : Allowed maxAttempts attempt)
    (hmeets : Meets a puzzle nonces attempt) :
    solveLoop a puzzle maxAttempts nonces elapsed (rounds + 1) attempt =
      .solved (solutionAt a puzzle nonces elapsed attempt) :=
  (if_pos hallowed).trans (if_pos hmeets)

theorem solveLoop_of_not_meets (hallowed : Allowed maxAttempts attempt)
    (hmeets : ¬ Meets a puzzle nonces attempt) :
    solveLoop a puzzle maxAttempts nonces elapsed (rounds + 1) attempt =
      solveLoop a puzzle maxAttempts nonces elapsed rounds (attempt + 1) :=
  (if_pos hallowed).trans (if_neg hmeets)

theorem solveLoop_of_not_allowed (hallowed : ¬ Allowed maxAttempts attempt) :
    solveLoop a puzzle maxAttempts nonces elapsed (rounds + 1) attempt = .exhausted :=
  if_neg hallowed

/-- Where the loop has come to after these rounds. -/
theorem solveLoop_solved_iff :
    solveLoop a puzzle maxAttempts nonces elapsed rounds attempt = .solved solution ↔
      ∃ i, attempt ≤ i ∧ i < attempt + rounds ∧ Allowed maxAttempts i ∧
        Meets a puzzle nonces i ∧ (∀ j, attempt ≤ j → j < i → ¬ Meets a puzzle nonces j) ∧
        solution = solutionAt a puzzle nonces elapsed i := by
  induction rounds generalizing attempt with
  | zero =>
    refine iff_of_false (by simp [solveLoop]) ?_
    rintro ⟨i, hle, hlt, -⟩
    omega
  | succ rounds ih =>
    by_cases hallowed : Allowed maxAttempts attempt
    · by_cases hmeets : Meets a puzzle nonces attempt
      -- either this attempt is the first that meets
      · rw [solveLoop_of_meets hallowed hmeets]
        constructor
        · intro h
          refine ⟨attempt, Nat.le_refl _, by omega, hallowed, hmeets, by omega, ?_⟩
          injection h with h
          exact h.symm
        · rintro ⟨i, hle, -, -, -, hbefore, rfl⟩
          obtain rfl : i = attempt := by
            by_contra hne
            exact hbefore attempt (Nat.le_refl _) (by omega) hmeets
          rfl
      -- or the first comes later, and the rest of the loop finds it
      · rw [solveLoop_of_not_meets hallowed hmeets, ih]
        constructor
        · rintro ⟨i, hle, hlt, hi, hmeets', hbefore, hsolution⟩
          refine ⟨i, by omega, by omega, hi, hmeets', ?_, hsolution⟩
          intro j hj hji
          rcases Nat.eq_or_lt_of_le hj with rfl | hlater
          · exact hmeets
          · exact hbefore j hlater hji
        · rintro ⟨i, hle, hlt, hi, hmeets', hbefore, hsolution⟩
          have hne : i ≠ attempt := by
            rintro rfl
            exact hmeets hmeets'
          exact ⟨i, by omega, by omega, hi, hmeets',
            fun j hj hji => hbefore j (by omega) hji, hsolution⟩
    -- no attempt after a forbidden one is allowed
    · rw [solveLoop_of_not_allowed hallowed]
      refine iff_of_false (fun h => nomatch h) ?_
      rintro ⟨i, hle, -, hi, -⟩
      have hearlier : Allowed maxAttempts attempt := hi.imp_right fun hlt => by omega
      exact hallowed hearlier

theorem solveLoop_exhausted_iff (hattempt : Allowed maxAttempts attempt ∨
      attempt = maxAttempts.toNat) :
    solveLoop a puzzle maxAttempts nonces elapsed rounds attempt = .exhausted ↔
      maxAttempts ≠ 0 ∧ maxAttempts.toNat < attempt + rounds ∧
        ∀ j, attempt ≤ j → j < maxAttempts.toNat → ¬ Meets a puzzle nonces j := by
  induction rounds generalizing attempt with
  | zero =>
    refine iff_of_false (by simp [solveLoop]) ?_
    rintro ⟨hmax, hlt, -⟩
    rcases hattempt with (hzero | hless) | hsame
    · exact hmax hzero
    · omega
    · omega
  | succ rounds ih =>
    by_cases hallowed : Allowed maxAttempts attempt
    · by_cases hmeets : Meets a puzzle nonces attempt
      · rw [solveLoop_of_meets hallowed hmeets]
        refine iff_of_false (fun h => nomatch h) ?_
        rintro ⟨hmax, -, hnone⟩
        exact hnone attempt (Nat.le_refl _) (hallowed.resolve_left hmax) hmeets
      -- the next attempt is allowed or is the first that is not
      · have hnext : Allowed maxAttempts (attempt + 1) ∨ attempt + 1 = maxAttempts.toNat := by
          rcases hallowed with hzero | hless
          · exact .inl (.inl hzero)
          · rcases Nat.eq_or_lt_of_le (Nat.succ_le_of_lt hless) with hsame | hless
            · exact .inr hsame
            · exact .inl (.inr hless)
        rw [solveLoop_of_not_meets hallowed hmeets, ih hnext]
        refine and_congr_right fun hmax => and_congr (by omega) ?_
        constructor
        · intro hnone j hj hlt
          rcases Nat.eq_or_lt_of_le hj with rfl | hlater
          · exact hmeets
          · exact hnone j hlater hlt
        · intro hnone j hj hlt
          exact hnone j (by omega) hlt
    · rw [solveLoop_of_not_allowed hallowed]
      -- the loop ends at the bound itself, having tried all below
      have hover : attempt = maxAttempts.toNat := hattempt.resolve_left hallowed
      refine iff_of_true rfl ⟨?_, by omega, by omega⟩
      intro hzero
      exact hallowed (.inl hzero)

/-- Given enough rounds, the first nonce that meets the difficulty is found. -/
theorem solved_iff :
    (∃ rounds, ProofOfWork.solvePuzzle a puzzle maxAttempts nonces elapsed rounds =
        .solved solution) ↔
      ∃ i, Allowed maxAttempts i ∧ Meets a puzzle nonces i ∧
        (∀ j < i, ¬ Meets a puzzle nonces j) ∧
        solution = solutionAt a puzzle nonces elapsed i := by
  constructor
  · rintro ⟨rounds, h⟩
    obtain ⟨i, -, -, hallowed, hmeets, hbefore, hsolution⟩ := solveLoop_solved_iff.mp h
    exact ⟨i, hallowed, hmeets, fun j hj => hbefore j (Nat.zero_le j) hj, hsolution⟩
  · rintro ⟨i, hallowed, hmeets, hbefore, hsolution⟩
    refine ⟨i + 1, solveLoop_solved_iff.mpr ⟨i, Nat.zero_le i, by omega, hallowed, hmeets, ?_, ?_⟩⟩
    · intro j _ hj
      exact hbefore j hj
    · exact hsolution

theorem exhausted_iff :
    (∃ rounds, ProofOfWork.solvePuzzle a puzzle maxAttempts nonces elapsed rounds =
        .exhausted) ↔
      maxAttempts ≠ 0 ∧ ∀ j < maxAttempts.toNat, ¬ Meets a puzzle nonces j := by
  have hstart : Allowed maxAttempts 0 ∨ 0 = maxAttempts.toNat := by
    rcases Nat.eq_zero_or_pos maxAttempts.toNat with hzero | hpos
    · exact .inr hzero.symm
    · exact .inl (.inr hpos)
  constructor
  · rintro ⟨rounds, h⟩
    obtain ⟨hmax, -, hnone⟩ := (solveLoop_exhausted_iff hstart).mp h
    exact ⟨hmax, fun j hj => hnone j (Nat.zero_le j) hj⟩
  · rintro ⟨hmax, hnone⟩
    refine ⟨maxAttempts.toNat + 1, (solveLoop_exhausted_iff hstart).mpr ⟨hmax, by omega, ?_⟩⟩
    intro j _ hj
    exact hnone j hj

/-! ## Verification -/

theorem verifySolution_iff :
    verifySolution a puzzle solution = true ↔
      solution.difficulty = puzzle.difficulty ∧
        puzzleHash a puzzle solution.nonce = solution.solutionHash ∧
        meetsDifficulty solution.solutionHash puzzle.difficulty = true := by
  unfold verifySolution
  by_cases hdifficulty : solution.difficulty = puzzle.difficulty
  · by_cases hhash : puzzleHash a puzzle solution.nonce = solution.solutionHash
    · rw [if_neg (not_not.mpr hdifficulty)]
      dsimp only
      rw [if_neg (not_not.mpr hhash), hhash]
      simp [hdifficulty]
    · rw [if_neg (not_not.mpr hdifficulty)]
      dsimp only
      rw [if_pos hhash]
      simp [hhash]
  · rw [if_pos hdifficulty]
    simp [hdifficulty]

/-- **Mined solutions verify.** A node whose difficulty has been adjusted by any solve times is
given puzzles of just that difficulty, between the least and the greatest one. Solving such a
puzzle ends with the first nonce that meets it, or without one after the last attempt; and a
solution verifies for the puzzle of every epoch with the same challenge. -/
theorem mined_verifies (a : Argon2) (hashesPerSecond : UInt64) (times : List UInt64)
    (challenge : Bytes) (epoch timestamp maxAttempts : UInt64) (nonces elapsed : ℕ → UInt64) :
    let difficulty := times.foldl (fun difficulty time => adjustDifficulty time difficulty)
      (getStartingDifficulty hashesPerSecond)
    let puzzle := generatePuzzle challenge epoch difficulty timestamp
    (minDifficulty ≤ difficulty ∧ difficulty ≤ maxDifficulty ∧ puzzle.difficulty = difficulty) ∧
    (∀ solution,
      (∃ rounds, ProofOfWork.solvePuzzle a puzzle maxAttempts nonces elapsed rounds =
          .solved solution) ↔
        ∃ i, Allowed maxAttempts i ∧ Meets a puzzle nonces i ∧
          (∀ j < i, ¬ Meets a puzzle nonces j) ∧
          solution = solutionAt a puzzle nonces elapsed i) ∧
    ((∃ rounds, ProofOfWork.solvePuzzle a puzzle maxAttempts nonces elapsed rounds = .exhausted) ↔
      maxAttempts ≠ 0 ∧ ∀ j < maxAttempts.toNat, ¬ Meets a puzzle nonces j) ∧
    ∀ solution rounds,
      ProofOfWork.solvePuzzle a puzzle maxAttempts nonces elapsed rounds = .solved solution →
        ∀ epoch' timestamp',
          verifySolution a (generatePuzzle challenge epoch' difficulty timestamp') solution =
            true := by
  intro difficulty puzzle
  have hrange : InRange difficulty := inRange_adjusted hashesPerSecond times
  refine ⟨⟨hrange.1, hrange.2, difficulty_generatePuzzle challenge epoch timestamp hrange⟩,
    fun solution => solved_iff, exhausted_iff, ?_⟩
  intro solution rounds hsolved epoch' timestamp'
  obtain ⟨i, -, hmeets, -, rfl⟩ := solved_iff.mp ⟨rounds, hsolved⟩
  -- the two puzzles differ in their epochs and times alone
  exact verifySolution_iff.mpr ⟨rfl, rfl, hmeets⟩

end Cashew.Theorems.Mining
