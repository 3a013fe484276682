import Cashew.Logic.Router

/-!
# Wrapping and peeling onion layers

`create_onion_layers` wraps a payload once for every hop of a path, from the last hop to
the first, and hands out a single blob. Each layer is XORed with a key stream of hash
blocks. The loop that makes the stream block by block computes one byte of stream for each
index (`keystreamLoop_eq`), so XORing twice undoes itself, one hop's peeling undoes one
wrapping (`decryptOnionLayer_wrapLayer`), and the hops of the path together get the payload
out (`onion_peeled`).
-/

namespace Cashew.Theorems.OnionLayers

open Cashew Cashew.Lib

variable {H : Bytes → Hash256}

/-! ## The key stream -/

/-- Byte `i` of the key stream. -/
def keystreamByte (H : Bytes → Hash256) (keySeed : Bytes) (i : Nat) : UInt8 :=
  (H (keySeed ++ u32Bytes (UInt32.ofNat (i / 32)))).bytes.getD (i % 32) 0

/-- One block of the loop: the bytes up to the block's end get the stream's bytes. -/
theorem zipWith_block (keySeed input : Bytes) (j : Nat) :
    List.zipWith (· ^^^ ·) input (H (keySeed ++ u32Bytes (UInt32.ofNat j))).bytes =
      (input.take 32).mapIdx fun i b => b ^^^ keystreamByte H keySeed (32 * j + i) := by
  have hsize := (H (keySeed ++ u32Bytes (UInt32.ofNat j))).size
  refine List.ext_getElem ?_ fun i hi _ => ?_
  · rw [List.length_zipWith, List.length_mapIdx, List.length_take, hsize, Nat.min_comm]
  · rw [List.length_zipWith, hsize] at hi
    have hblock : (32 * j + i) / 32 = j := by omega
    have hplace : (32 * j + i) % 32 = i := by omega
    rw [List.getElem_zipWith, List.getElem_mapIdx, List.getElem_take, keystreamByte, hblock,
      hplace, List.getD_eq_getElem _ _ (by omega)]

/-- From counter `j` on the loop XORs with the stream from byte `32 * j` on. -/
theorem keystreamLoop_from (keySeed : Bytes) (input : Bytes) (j : Nat) :
    keystreamLoop H keySeed (UInt32.ofNat j) input =
      input.mapIdx fun i b => b ^^^ keystreamByte H keySeed (32 * j + i) := by
  -- on the number of bytes that are left
  induction hn : input.length using Nat.strong_induction_on generalizing input j with
  | _ n ih =>
    cases input with
    | nil => rw [keystreamLoop, List.mapIdx_nil]
    | cons b rest =>
      have hnext : UInt32.ofNat j + 1 = UInt32.ofNat (j + 1) := (UInt32.ofNat_add j 1).symm
      have hshorter : ((b :: rest).drop 32).length < n := by
        rw [List.length_drop, ← hn, List.length_cons]
        omega
      rw [keystreamLoop, FixedBytes.size, hnext, ih _ hshorter _ (j + 1) rfl, zipWith_block]
      conv_rhs => rw [← List.take_append_drop 32 (b :: rest), List.mapIdx_append]
      rcases Nat.lt_or_ge (b :: rest).length 32 with hshort | hlong
      · -- the block reaches past the end and nothing is left
        rw [List.drop_eq_nil_of_le (Nat.le_of_lt hshort), List.mapIdx_nil, List.mapIdx_nil]
      · have hoffset : ∀ i, 32 * (j + 1) + i = 32 * j + (i + 32) := fun i => by omega
        rw [List.length_take_of_le hlong]
        simp only [hoffset]

/-- **The loop and the stream.** The block loop of `xor_with_keystream` XORs byte `i` with
byte `i` of the stream. -/
theorem keystreamLoop_eq (keySeed input : Bytes) :
    keystreamLoop H keySeed 0 input = xorWithKeystream H keySeed input := by
  have hfrom := keystreamLoop_from (H := H) keySeed input 0
  simp only [Nat.mul_zero, Nat.zero_add] at hfrom
  exact hfrom

/-! ## The path -/

/-- `decrypt_onion_layer` at one hop after the other, each on what the one before it
got. -/
def peelAlong (H : Bytes → Hash256) (path : List NodeID) (blob : Bytes) : Option Bytes :=
  path.foldlM (fun layer hop => decryptOnionLayer H hop layer) blob

/-- The hops of a path get out what was wrapped for the path. -/
theorem peelAlong_wrapPath (payload : Bytes) (path : List NodeID) :
    peelAlong H path (wrapPath H payload path) = some payload := by
  induction path with
  | nil => rfl
  | cons hop rest ih =>
    unfold peelAlong at ih ⊢
    rw [wrapPath, List.foldlM_cons, decryptOnionLayer_wrapLayer]
    exact ih

/-- **Peeling.** For every path with a hop there is a single blob, and the hops of the path
in turn peel it down to the payload, each of them with success; an empty path has no blob.
The loop of `xor_with_keystream`, run twice with one seed, gives its input back. -/
theorem onion_peeled (H : Bytes → Hash256) :
    (∀ hop rest payload, ∃ blob, createOnionLayers H (hop :: rest) payload = [blob] ∧
      peelAlong H (hop :: rest) blob = some payload) ∧
    (∀ payload, createOnionLayers H [] payload = []) ∧
    ∀ keySeed input, keystreamLoop H keySeed 0 input = xorWithKeystream H keySeed input ∧
      keystreamLoop H keySeed 0 (keystreamLoop H keySeed 0 input) = input := by
  refine ⟨?_, fun _ => rfl, ?_⟩
  · intro hop rest payload
    exact ⟨wrapPath H payload (hop :: rest), rfl, peelAlong_wrapPath payload (hop :: rest)⟩
  · intro keySeed input
    refine ⟨keystreamLoop_eq keySeed input, ?_⟩
    rw [keystreamLoop_eq, keystreamLoop_eq, xorWithKeystream_twice]

end Cashew.Theorems.OnionLayers
