import Cashew.Keys.ProofOfWork
import Cashew.Lib.BigEndian

/-!
# Four tests for one difficulty

Each of the four loops counts the zero bits a hash begins with, the last one only
as far as it has to. So all of them say whether the hash, read as a number, is
below a power of two.
-/

namespace Cashew.Theorems.ProofOfWork

open Cashew Cashew.Lib

/-! ## One byte -/

/-- The highest bit of the byte stands behind `z` zeros. -/
def TopBitAfter (b : UInt8) (z : Nat) : Prop :=
  z < 8 ∧ 2 ^ (7 - z) ≤ b.toNat ∧ b.toNat < 2 ^ (8 - z)

instance (b : UInt8) (z : Nat) : Decidable (TopBitAfter b z) :=
  inferInstanceAs (Decidable (_ ∧ _))

theorem forall_byte {P : UInt8 → Prop} (h : ∀ n : Fin 256, P (UInt8.ofNat n)) (b : UInt8) :
    P b := by
  have hb := h ⟨b.toNat, UInt8.toNat_lt b⟩
  rwa [UInt8.ofNat_toNat] at hb

theorem maskLoop_add (b : UInt8) (rounds : Nat) (mask : UInt8) (count : Nat) :
    ProofOfWork.maskLoop b rounds mask count = count + ProofOfWork.maskLoop b rounds mask 0 := by
  induction rounds generalizing mask count with
  | zero => rfl
  | succ rounds ih =>
    unfold ProofOfWork.maskLoop
    split
    · rw [ih _ (count + 1), ih _ (0 + 1)]
      omega
    · rfl

theorem maskLoop_topBit {b : UInt8} (h : b ≠ 0) :
    TopBitAfter b (ProofOfWork.maskLoop b 8 0x80 0) := by
  revert h
  refine forall_byte (P := fun b => b ≠ 0 → TopBitAfter b (ProofOfWork.maskLoop b 8 0x80 0)) ?_ b
  decide +kernel

theorem bitLoop_add (b : UInt8) (bits leading : Nat) :
    bitLoop b bits leading = (leading + (bitLoop b bits 0).1, (bitLoop b bits 0).2) := by
  induction bits generalizing leading with
  | zero => rfl
  | succ bits ih =>
    unfold bitLoop
    split
    · rw [ih (leading + 1), ih (0 + 1)]
      refine Prod.ext ?_ rfl
      dsimp only
      omega
    · rfl

theorem bitLoop_topBit {b : UInt8} (h : b ≠ 0) :
    (bitLoop b 8 0).2 = true ∧ TopBitAfter b (bitLoop b 8 0).1 := by
  revert h
  refine forall_byte
    (P := fun b => b ≠ 0 → (bitLoop b 8 0).2 = true ∧ TopBitAfter b (bitLoop b 8 0).1) ?_ b
  decide +kernel

/-- What the shifting loop counts when nothing stops it early. -/
def topZeros : Nat → UInt8 → Nat
  | 0, _ => 0
  | rounds + 1, b => if b &&& 0x80 = 0 then topZeros rounds (b <<< 1) + 1 else 0

theorem topZeros_topBit {b : UInt8} (h : b ≠ 0) : TopBitAfter b (topZeros 8 b) := by
  revert h
  refine forall_byte (P := fun b => b ≠ 0 → TopBitAfter b (topZeros 8 b)) ?_ b
  decide +kernel

/-- Stopping at the difficulty does not change whether it is reached. -/
theorem le_shiftLoop_iff (d rounds : Nat) (b : UInt8) (leading : Nat) :
    d ≤ SybilDefense.shiftLoop d rounds b leading ↔ d ≤ leading + topZeros rounds b := by
  induction rounds generalizing b leading with
  | zero => exact Iff.rfl
  | succ rounds ih =>
    unfold SybilDefense.shiftLoop topZeros
    by_cases hbit : b &&& 0x80 = 0
    · by_cases hlead : leading < d
      · rw [if_pos ⟨hbit, hlead⟩, if_pos hbit, ih]
        omega
      · -- stopped early, because the difficulty is reached
        rw [if_neg (fun h => hlead h.2), if_pos hbit]
        omega
    · rw [if_neg (fun h => hbit h.1), if_neg hbit, Nat.add_zero]

/-! ## All bytes -/

theorem TopBitAfter.leadingZeroBits {b : UInt8} {z : Nat} (h : TopBitAfter b z) (rest : Bytes) :
    leadingZeroBits (b :: rest) = z :=
  leadingZeroBits_cons h.1 h.2.1 h.2.2 rest

theorem countFrom_eq (bytes : Bytes) (count : Nat) :
    ProofOfWork.countFrom bytes count = count + leadingZeroBits bytes := by
  induction bytes generalizing count with
  | nil => rfl
  | cons b rest ih =>
    unfold ProofOfWork.countFrom
    split
    · rename_i hzero
      rw [ih, hzero, leadingZeroBits_zero_cons, Nat.add_assoc]
    · rename_i hzero
      rw [maskLoop_add, (maskLoop_topBit hzero).leadingZeroBits]

theorem countZeroBitsFrom_eq (bytes : Bytes) (leading : Nat) :
    countZeroBitsFrom bytes leading = leading + leadingZeroBits bytes := by
  induction bytes generalizing leading with
  | nil => rfl
  | cons b rest ih =>
    unfold countZeroBitsFrom
    split
    · rename_i hzero
      rw [ih, hzero, leadingZeroBits_zero_cons, Nat.add_assoc]
    · rename_i hzero
      -- a byte that is not zero ends the function inside the inner loop
      obtain ⟨hreturned, htop⟩ := bitLoop_topBit hzero
      rw [bitLoop_add, if_pos hreturned, htop.leadingZeroBits]

theorem le_countUpTo_iff (d : Nat) (bytes : Bytes) (leading : Nat) :
    d ≤ SybilDefense.countUpTo d bytes leading ↔ d ≤ leading + leadingZeroBits bytes := by
  induction bytes generalizing leading with
  | nil => exact Iff.rfl
  | cons b rest ih =>
    unfold SybilDefense.countUpTo
    split
    · rename_i hzero
      rw [hzero, leadingZeroBits_zero_cons]
      split
      · -- the loop is left as soon as eight more zeros are enough
        omega
      · rw [ih, Nat.add_assoc]
    · rename_i hzero
      rw [le_shiftLoop_iff, (topZeros_topBit hzero).leadingZeroBits]

/-! ## The tests -/

/-- A hash has so many leading zeros when it is so small a number. -/
theorem difficulty_le_iff (hash : Hash256) (difficulty : UInt32) :
    difficulty.toNat ≤ leadingZeroBits hash.bytes ↔
      difficulty.toNat ≤ 256 ∧ hash.value < 2 ^ (256 - difficulty.toNat) := by
  have hbits : 8 * hash.bytes.length = 256 := by rw [hash.size]
  by_cases hd : difficulty.toNat ≤ 256
  · rw [and_iff_right hd, le_leadingZeroBits_iff (hbits ▸ hd), hbits]
    rfl
  · refine iff_of_false ?_ (fun h => hd h.1)
    have hle := leadingZeroBits_le hash.bytes
    omega

/-- **One difficulty.** For every hash and difficulty the four tests give the same
answer: that the hash is below `2 ^ (256 - difficulty)`, and no for a difficulty
above 256. -/
theorem tests_agree (hash : Hash256) (difficulty : UInt32) (nonce computeTimeMs : UInt64) :
    let below := decide
      (difficulty.toNat ≤ 256 ∧ hash.value < 2 ^ (256 - difficulty.toNat))
    ProofOfWork.meetsDifficulty hash difficulty = below ∧
      HybridCoordinator.powSolutionMeetsClaimedDifficulty
        { solutionHash := hash, nonce, difficulty, computeTimeMs } = below ∧
      AccessControl.meetsPowDifficulty hash difficulty = below ∧
      SybilDefense.verifyPowDifficulty hash difficulty = below := by
  have hbits : difficulty.toNat ≤ countZeroBitsFrom hash.bytes 0 ↔
      difficulty.toNat ≤ 256 ∧ hash.value < 2 ^ (256 - difficulty.toNat) := by
    rw [countZeroBitsFrom_eq, Nat.zero_add, difficulty_le_iff]
  refine ⟨?_, ?_, ?_, ?_⟩
  · refine decide_eq_decide.mpr ?_
    rw [ProofOfWork.countLeadingZeros, countFrom_eq, Nat.zero_add, difficulty_le_iff]
  · exact decide_eq_decide.mpr hbits
  · exact decide_eq_decide.mpr hbits
  · refine decide_eq_decide.mpr ?_
    rw [le_countUpTo_iff, Nat.zero_add, difficulty_le_iff]

example : ProofOfWork.meetsDifficulty FixedBytes.zero 256 = true ∧
    SybilDefense.verifyPowDifficulty FixedBytes.zero 257 = false := by
  decide

end Cashew.Theorems.ProofOfWork
