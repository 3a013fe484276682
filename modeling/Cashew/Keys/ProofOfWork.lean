import Cashew.Common

/-!
# Proofs of work

The test whether a hash begins with enough zero bits. The source has it four times:
`ProofOfWork` in `core/pow/pow.cpp`, the hybrid coordinator, `AccessControl` and
`SybilDefense`. Each loop is kept as it is written; the ones of the coordinator and
of the access control are the same text.

A loop over the bits of a byte ends after eight rounds at most. The number of
rounds that are left stands in for the loop's end where that is a shift running
out.
-/

namespace Cashew

open Cashew.Lib

/-! ## `core::ProofOfWork` -/

/-- `PowSolution`. -/
structure PowSolution where
  solutionHash : Hash256
  nonce : UInt64
  difficulty : UInt32
  computeTimeMs : UInt64
  deriving DecidableEq

namespace ProofOfWork

def minDifficulty : UInt32 := 4

/-- `while ((b & mask) == 0 && mask != 0) { ++count; mask >>= 1; }`. -/
def maskLoop (b : UInt8) : Nat → UInt8 → Nat → Nat
  | 0, _, count => count
  | rounds + 1, mask, count =>
    if b &&& mask = 0 ∧ mask ≠ 0 then maskLoop b rounds (mask >>> 1) (count + 1) else count

/-- The loop of `count_leading_zeros` over the bytes. -/
def countFrom : Bytes → Nat → Nat
  | [], count => count
  | b :: rest, count => if b = 0 then countFrom rest (count + 8) else maskLoop b 8 0x80 count

/-- `ProofOfWork::count_leading_zeros`. -/
def countLeadingZeros (hash : Hash256) : Nat := countFrom hash.bytes 0

/-- `ProofOfWork::meets_difficulty`. -/
def meetsDifficulty (hash : Hash256) (difficulty : UInt32) : Bool :=
  difficulty.toNat ≤ countLeadingZeros hash

end ProofOfWork

/-! ## The coordinator and the access control -/

/-- `for (int bit = 7; bit >= 0; --bit)`: the count, and whether the function
returned in the loop. -/
def bitLoop (byte : UInt8) : Nat → Nat → Nat × Bool
  | 0, leading => (leading, false)
  | bit + 1, leading =>
    if byte >>> UInt8.ofNat bit &&& 0x1 = 0 then bitLoop byte bit (leading + 1)
    else (leading, true)

/-- The loop of `count_leading_zero_bits` over the bytes. -/
def countZeroBitsFrom : Bytes → Nat → Nat
  | [], leading => leading
  | byte :: rest, leading =>
    if byte = 0 then countZeroBitsFrom rest (leading + 8)
    else if (bitLoop byte 8 leading).2 then (bitLoop byte 8 leading).1
    else countZeroBitsFrom rest (bitLoop byte 8 leading).1

namespace HybridCoordinator

/-- `count_leading_zero_bits` of `hybrid_coordinator.cpp`. -/
def countLeadingZeroBits (hash : Hash256) : Nat := countZeroBitsFrom hash.bytes 0

/-- `pow_solution_meets_claimed_difficulty`. -/
def powSolutionMeetsClaimedDifficulty (solution : PowSolution) : Bool :=
  solution.difficulty.toNat ≤ countLeadingZeroBits solution.solutionHash

end HybridCoordinator

namespace AccessControl

/-- `count_leading_zero_bits` of `access.cpp`. -/
def countLeadingZeroBits (hash : Hash256) : Nat := countZeroBitsFrom hash.bytes 0

/-- The last test of `AccessControl::check_pow_requirements`. -/
def meetsPowDifficulty (proofHash : Hash256) (powDifficulty : UInt32) : Bool :=
  powDifficulty.toNat ≤ countLeadingZeroBits proofHash

end AccessControl

/-! ## `SybilDefense` -/

namespace SybilDefense

/-- `while ((b & 0x80) == 0 && leading_zeros < difficulty)`. -/
def shiftLoop (difficulty : Nat) : Nat → UInt8 → Nat → Nat
  | 0, _, leadingZeros => leadingZeros
  | rounds + 1, b, leadingZeros =>
    if b &&& 0x80 = 0 ∧ leadingZeros < difficulty then
      shiftLoop difficulty rounds (b <<< 1) (leadingZeros + 1)
    else leadingZeros

/-- The loop of `verify_pow_difficulty` over the bytes, which stops as soon as the
difficulty is reached. -/
def countUpTo (difficulty : Nat) : Bytes → Nat → Nat
  | [], leadingZeros => leadingZeros
  | byte :: rest, leadingZeros =>
    if byte = 0 then
      if difficulty ≤ leadingZeros + 8 then leadingZeros + 8
      else countUpTo difficulty rest (leadingZeros + 8)
    else shiftLoop difficulty 8 byte leadingZeros

/-- `SybilDefense::verify_pow_difficulty`. -/
def verifyPowDifficulty (powProof : Hash256) (difficulty : UInt32) : Bool :=
  difficulty.toNat ≤ countUpTo difficulty.toNat powProof.bytes 0

end SybilDefense

/-! ## Puzzles -/

/-- `Argon2::Params`. -/
structure Argon2Params where
  memoryCostKb : UInt32
  timeCost : UInt32
  parallelism : UInt32
  deriving DecidableEq

namespace Argon2Params

/-- `Params::interactive`. -/
def interactive : Argon2Params := ⟨65536, 2, 1⟩

/-- `Params::moderate`. -/
def moderate : Argon2Params := ⟨262144, 3, 1⟩

/-- `Params::sensitive`. -/
def sensitive : Argon2Params := ⟨1048576, 4, 1⟩

end Argon2Params

/-- `crypto::Argon2`, a wrapper around a library: its hash of a password under a salt, and the
salt that a challenge is hashed to, are parameters. Memory that runs out is left out. -/
structure Argon2 where
  hash : Bytes → Bytes → Argon2Params → Hash256
  salt : Bytes → Bytes

/-- `Argon2::solve_puzzle`. -/
def Argon2.solvePuzzle (a : Argon2) (challenge : Bytes) (nonce : UInt64) (params : Argon2Params) :
    Hash256 :=
  a.hash (challenge ++ u64Bytes nonce) (a.salt challenge) params

/-- `PowPuzzle`. -/
structure PowPuzzle where
  challenge : Bytes
  difficulty : UInt32
  params : Argon2Params
  epoch : UInt64
  timestamp : UInt64
  deriving DecidableEq

/-- How `solve_puzzle` stands after some rounds of its loop. -/
inductive MiningResult where
  | solved (solution : PowSolution)
  | exhausted
  | unfinished
  deriving DecidableEq

namespace ProofOfWork

def maxDifficulty : UInt32 := 32

def targetSolveTimeMs : UInt64 := 10 * 60 * 1000

/-- `ProofOfWork::generate_puzzle`. -/
def generatePuzzle (challengeData : Bytes) (epoch : UInt64) (nodeDifficulty : UInt32)
    (timestamp : UInt64) : PowPuzzle :=
  let difficulty := max minDifficulty (min nodeDifficulty maxDifficulty)
  { challenge := challengeData
    difficulty
    epoch
    timestamp
    params :=
      if difficulty ≤ 8 then .interactive
      else if difficulty ≤ 16 then .moderate
      else .sensitive }

/-- The hash of a puzzle under a nonce. -/
def puzzleHash (a : Argon2) (puzzle : PowPuzzle) (nonce : UInt64) : Hash256 :=
  a.solvePuzzle puzzle.challenge nonce puzzle.params

/-- The loop of `solve_puzzle`, for as many rounds as it is given: `nonces` are drawn at random,
`elapsed` are the times until a solution is put together. -/
def solveLoop (a : Argon2) (puzzle : PowPuzzle) (maxAttempts : UInt64)
    (nonces elapsed : ℕ → UInt64) : ℕ → ℕ → MiningResult
  | 0, _ => .unfinished
  | rounds + 1, attempt =>
    if maxAttempts = 0 ∨ attempt < maxAttempts.toNat then
      let hash := puzzleHash a puzzle (nonces attempt)
      if meetsDifficulty hash puzzle.difficulty then
        .solved
          { solutionHash := hash
            nonce := nonces attempt
            difficulty := puzzle.difficulty
            computeTimeMs := elapsed attempt }
      else solveLoop a puzzle maxAttempts nonces elapsed rounds (attempt + 1)
    else .exhausted

/-- `ProofOfWork::solve_puzzle`, after some rounds. -/
def solvePuzzle (a : Argon2) (puzzle : PowPuzzle) (maxAttempts : UInt64)
    (nonces elapsed : ℕ → UInt64) (rounds : ℕ) : MiningResult :=
  solveLoop a puzzle maxAttempts nonces elapsed rounds 0

/-- `ProofOfWork::verify_solution`. -/
def verifySolution (a : Argon2) (puzzle : PowPuzzle) (solution : PowSolution) : Bool :=
  if solution.difficulty ≠ puzzle.difficulty then false
  else
    let computedHash := puzzleHash a puzzle solution.nonce
    if computedHash ≠ solution.solutionHash then false
    else meetsDifficulty computedHash puzzle.difficulty

/-- `ProofOfWork::adjust_difficulty`. -/
def adjustDifficulty (previousSolveTimeMs : UInt64) (currentDifficulty : UInt32) : UInt32 :=
  if previousSolveTimeMs < targetSolveTimeMs / 2 then min (currentDifficulty + 1) maxDifficulty
  else if targetSolveTimeMs * 2 < previousSolveTimeMs then
    if minDifficulty < currentDifficulty then currentDifficulty - 1 else minDifficulty
  else currentDifficulty

/-- `ProofOfWork::get_starting_difficulty`. -/
def getStartingDifficulty (hashesPerSecond : UInt64) : UInt32 :=
  if hashesPerSecond < 10 then minDifficulty
  else if hashesPerSecond < 50 then minDifficulty + 2
  else if hashesPerSecond < 100 then minDifficulty + 4
  else minDifficulty + 6

end ProofOfWork

end Cashew
