import Cashew.Common

/-!
# Checked reads

`read_scalar`, `read_fixed` and `read_blob`, which several files of the program define
alike: each tests the size that is left and then copies. A scalar lies in the file as it
does in memory, little-endian on the hosts the program is built for. Each read undoes the
write of the same field and by itself never leaves the input.
-/

namespace Cashew

open Cashew.Lib

namespace Checked

/-- `read_fixed`. -/
def fixed (n : Nat) : Decoder (FixedBytes n) := do
  Decoder.require n
  FixedBytes.decoder n

/-- `read_scalar` of one byte. -/
def byte : Decoder UInt8 := do
  Decoder.require 1
  Decoder.byte

/-- `read_scalar` of a `uint32_t` or a `float`. -/
def u32 : Decoder UInt32 := do
  Decoder.require 4
  Decoder.u32

/-- `read_scalar` of a `uint64_t`. -/
def u64 : Decoder UInt64 := do
  Decoder.require 8
  Decoder.u64

/-- A length of four bytes, and so many bytes behind it that are tested for together. -/
def counted : Decoder Bytes := do
  let n ← u32
  Decoder.require n.toNat
  Decoder.take n.toNat

theorem fixed_decodes {n : Nat} (a : FixedBytes n) : Decodes (fixed n) a.bytes a :=
  Decodes.require_bind (Nat.le_of_eq a.size.symm) (FixedBytes.decodes a)

theorem byte_decodes (b : UInt8) : Decodes byte [b] b :=
  Decodes.require_bind (Nat.le_refl 1) (Decodes.byte b)

theorem u32_decodes (x : UInt32) : Decodes u32 (u32Bytes x) x :=
  Decodes.require_bind (Nat.le_of_eq (u32Bytes_length x).symm) (Decodes.u32 x)

theorem u64_decodes (x : UInt64) : Decodes u64 (u64Bytes x) x :=
  Decodes.require_bind (Nat.le_of_eq (u64Bytes_length x).symm) (Decodes.u64 x)

/-- A count below `2 ^ 32` comes back. -/
theorem count_decodes {n : Nat} (h : n < 2 ^ 32) : Decodes u32 (leBytes 4 n) (UInt32.ofNat n) := by
  have hvalue := u32_decodes (UInt32.ofNat n)
  rwa [u32Bytes, UInt32.toNat_ofNat_of_lt' h] at hvalue

theorem counted_decodes {field : Bytes} (h : field.length < 2 ^ 32) :
    Decodes counted (leBytes 4 field.length ++ field) field := by
  have hvalue : (UInt32.ofNat field.length).toNat = field.length := UInt32.toNat_ofNat_of_lt' h
  refine (count_decodes h).bind ?_
  rw [hvalue]
  exact Decodes.require_bind (Nat.le_refl _) (Decodes.take rfl)

theorem fixed_inBounds (n : Nat) : InBounds (fixed n) 0 := by
  apply InBounds.require_bind
  rw [← bind_pure (FixedBytes.decoder n)]
  exact FixedBytes.decoder_inBounds (m := 0) fun _ => InBounds.pure _ 0

theorem byte_inBounds : InBounds byte 0 := by
  apply InBounds.require_bind
  rw [← bind_pure Decoder.byte]
  exact InBounds.byte_bind (n := 0) fun _ => InBounds.pure _ 0

theorem u32_inBounds : InBounds u32 0 := by
  apply InBounds.require_bind
  rw [← bind_pure Decoder.u32]
  exact InBounds.u32_bind (n := 0) fun _ => InBounds.pure _ 0

theorem u64_inBounds : InBounds u64 0 := by
  apply InBounds.require_bind
  rw [← bind_pure Decoder.u64]
  exact InBounds.u64_bind (n := 0) fun _ => InBounds.pure _ 0

theorem counted_inBounds : InBounds counted 0 := by
  refine u32_inBounds.bind fun n => ?_
  apply InBounds.require_bind
  rw [← bind_pure (Decoder.take n.toNat)]
  exact InBounds.take_bind (n := 0) fun _ _ => InBounds.pure _ 0

end Checked

end Cashew

