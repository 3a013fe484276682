import Cashew.Lib.Decoder
import Cashew.Lib.OrdMap

/-!
# Core types

`include/cashew/common.hpp`: fixed-size byte arrays and the identifiers built
from them. `std::array` compares lexicographically; for arrays of one size that
is the order of the big-endian numbers they spell, which is the order used here
for map keys.

Hash functions, ciphers and signatures are parameters of the model (`H : Bytes → Hash256`
stands for `crypto::Blake3::hash` throughout). The system clock is a parameter
too: a call is given the readings `system_clock::now()` yields during it.
-/

namespace Cashew

open Cashew.Lib

/-! ## Fixed-size byte arrays -/

/-- `fixed_bytes<N>`, i.e. `std::array<byte, N>`. -/
structure FixedBytes (n : Nat) where
  bytes : Bytes
  size : bytes.length = n
  deriving DecidableEq

abbrev Hash256 := FixedBytes 32
abbrev PublicKey := FixedBytes 32
abbrev SecretKey := FixedBytes 64
abbrev Signature := FixedBytes 64
abbrev Nonce := FixedBytes 12
abbrev SessionKey := FixedBytes 32

namespace FixedBytes

variable {n : Nat}

/-- Value-initialised array: all zeros. -/
def zero : FixedBytes n := ⟨List.replicate n 0, List.length_replicate⟩

instance : Inhabited (FixedBytes n) := ⟨zero⟩

/-- The big-endian number the bytes spell. -/
def value (a : FixedBytes n) : Nat := leNat a.bytes.reverse

theorem ext {a b : FixedBytes n} (h : a.bytes = b.bytes) : a = b := by
  cases a
  cases b
  cases h
  rfl

theorem value_injective : Function.Injective (value : FixedBytes n → Nat) := by
  intro a b h
  have hrev : a.bytes.reverse = b.bytes.reverse := by
    rw [← leBytes_leNat a.bytes.reverse, ← leBytes_leNat b.bytes.reverse,
      List.length_reverse, List.length_reverse, a.size, b.size]
    exact congrArg _ h
  exact ext (List.reverse_injective hrev)

/-- `operator<` of `std::array`. -/
instance : LinearOrder (FixedBytes n) := orderBy value value_injective

/-- Copying `n` bytes out of a buffer, unchecked. -/
def decoder (n : Nat) : Decoder (FixedBytes n) := fun rest =>
  if h : n ≤ rest.length then
    .value (⟨rest.take n, List.length_take_of_le h⟩, rest.drop n)
  else .outOfBounds

theorem decodes (a : FixedBytes n) : Decodes (decoder n) a.bytes a := by
  intro post
  have hlen : n ≤ (a.bytes ++ post).length := by
    rw [List.length_append, a.size]
    omega
  unfold decoder
  rw [dif_pos hlen]
  refine congrArg Outcome.value (Prod.ext (ext ?_) ?_)
  · show (a.bytes ++ post).take n = a.bytes
    rw [List.take_left' a.size]
  · show (a.bytes ++ post).drop n = post
    rw [List.drop_left' a.size]

theorem decoder_bind_of_le {β : Type} {next : FixedBytes n → Decoder β} {rest : Bytes}
    (h : n ≤ rest.length) :
    (decoder n >>= next) rest = next ⟨rest.take n, List.length_take_of_le h⟩ (rest.drop n) := by
  rw [Decoder.bind_apply, decoder, dif_pos h]

theorem decoder_inBounds {β : Type} {m : Nat} {next : FixedBytes n → Decoder β}
    (h : ∀ a, InBounds (next a) m) : InBounds (decoder n >>= next) (n + m) := by
  intro s hs
  have hn : n ≤ s.length := by omega
  have hdrop : m ≤ (s.drop n).length := by
    rw [List.length_drop]
    omega
  rw [Decoder.bind_apply, decoder, dif_pos hn]
  exact h _ (s.drop n) hdrop

theorem decoder_withinInput {credit : Nat} : WithinInput credit (decoder n) fun _ => credit := by
  intro s a s' h
  unfold decoder at h
  split at h
  · cases h
    show credit + (s.drop n).length ≤ credit + s.length
    rw [List.length_drop]
    omega
  · cases h

theorem decoder_spells {β : Type} {seen : Bytes} {enc : β → Bytes}
    {next : FixedBytes n → Decoder β} (h : ∀ a, Spells (seen ++ a.bytes) (next a) enc) :
    Spells seen (decoder n >>= next) enc := by
  refine Spells.bind bytes ?_ h
  intro s a rest hs
  unfold decoder at hs
  split at hs
  · cases hs
    exact (List.take_append_drop n s).symm
  · cases hs

theorem decoder_overruns {β : Type} {s : Bytes} {next : FixedBytes n → Decoder β} {C : Prop}
    (h : ∀ a, Overruns (next a) (s.drop n) ↔ C) :
    Overruns (decoder n >>= next) s ↔ s.length < n ∨ C := by
  unfold Overruns
  rw [Decoder.bind_apply, decoder]
  by_cases hlen : n ≤ s.length
  · rw [dif_pos hlen, or_iff_right (Nat.not_lt_of_le hlen)]
    exact h _
  · rw [dif_neg hlen]
    exact iff_of_true rfl (.inl (Nat.lt_of_not_le hlen))

/-- A copy behind its own size test. -/
theorem decoder_readsChecked {β : Type} (f : FixedBytes n → β) :
    ReadsChecked (do Decoder.require n; let a ← decoder n; pure (f a)) n := by
  intro s
  rw [Decoder.bind_apply, Decoder.require]
  by_cases hlen : n ≤ s.length
  · rw [if_pos hlen, if_neg (by omega)]
    dsimp only
    rw [Decoder.bind_apply, decoder, dif_pos hlen]
    exact ⟨_, rfl⟩
  · rw [if_neg hlen, if_pos (by omega)]

/-- `std::array::empty`: whether the size is zero, not whether the bytes are. -/
def empty (_ : FixedBytes n) : Bool := n == 0

end FixedBytes

/-! ## Identifiers -/

/-- `NodeID`. -/
structure NodeID where
  id : Hash256
  deriving DecidableEq

/-- `ContentHash`. -/
structure ContentHash where
  hash : Hash256
  deriving DecidableEq

/-- `HumanID`. -/
structure HumanID where
  id : Hash256
  deriving DecidableEq

theorem NodeID.id_injective : Function.Injective NodeID.id := by
  rintro ⟨a⟩ ⟨b⟩ h
  exact congrArg NodeID.mk h

theorem ContentHash.hash_injective : Function.Injective ContentHash.hash := by
  rintro ⟨a⟩ ⟨b⟩ h
  exact congrArg ContentHash.mk h

theorem HumanID.id_injective : Function.Injective HumanID.id := by
  rintro ⟨a⟩ ⟨b⟩ h
  exact congrArg HumanID.mk h

instance : LinearOrder NodeID :=
  orderBy (fun x => x.id.value) (FixedBytes.value_injective.comp NodeID.id_injective)

instance : LinearOrder ContentHash :=
  orderBy (fun x => x.hash.value) (FixedBytes.value_injective.comp ContentHash.hash_injective)

instance : LinearOrder HumanID :=
  orderBy (fun x => x.id.value) (FixedBytes.value_injective.comp HumanID.id_injective)

/-- `NodeID()`: the value-initialised identifier. -/
instance : Inhabited NodeID := ⟨⟨FixedBytes.zero⟩⟩

instance : Inhabited ContentHash := ⟨⟨FixedBytes.zero⟩⟩

/-- A `std::set` of node ids as a vector: its elements in ascending order. -/
def NodeID.sorted (nodes : Finset NodeID) : List NodeID := nodes.sort

theorem NodeID.sorted_toFinset (nodes : Finset NodeID) : (sorted nodes).toFinset = nodes :=
  Finset.sort_toFinset _ _

theorem NodeID.sorted_empty : sorted ∅ = [] := Finset.sort_empty _

theorem NodeID.mem_sorted {nodes : Finset NodeID} {n : NodeID} : n ∈ sorted nodes ↔ n ∈ nodes :=
  Finset.mem_sort _

/-! ## Strings -/

/-- `std::string`. -/
structure Text where
  bytes : Bytes

namespace Text

theorem values_injective : Function.Injective fun t : Text => t.bytes.map UInt8.toNat := by
  rintro ⟨a⟩ ⟨b⟩ h
  have hbytes : Function.Injective UInt8.toNat := fun _ _ h => UInt8.toNat_inj.mp h
  exact congrArg Text.mk (List.map_injective_iff.mpr hbytes h)

/-- `operator<` of `std::string`: byte by byte, as unsigned numbers. -/
instance : LinearOrder Text := LinearOrder.lift' (fun t => t.bytes.map UInt8.toNat) values_injective

/-- A string literal of the source. -/
def ofString (s : String) : Text := ⟨s.toList.map fun c => UInt8.ofNat c.toNat⟩

/-- A number as `operator<<` writes it. -/
def decimal (n : Nat) : Text := ⟨(Nat.toDigits 10 n).map fun c => UInt8.ofNat c.toNat⟩

/-- The digit of a number below 16, in lower case. -/
def hexDigit (n : Nat) : UInt8 := UInt8.ofNat (if n < 10 then 48 + n else 87 + n)

/-- Two digits for each byte. -/
def hexDigits (data : Bytes) : Bytes :=
  data.flatMap fun b => [hexDigit (b.toNat / 16), hexDigit (b.toNat % 16)]

/-- `crypto::Blake3::hash_to_hex`. -/
def hashToHex (h : Hash256) : Text := ⟨hexDigits h.bytes⟩

theorem hexDigit_inj {m n : Nat} (hm : m < 16) (hn : n < 16) (h : hexDigit m = hexDigit n) :
    m = n := by
  have hval := congrArg UInt8.toNat h
  unfold hexDigit at hval
  rw [UInt8.toNat_ofNat', UInt8.toNat_ofNat'] at hval
  split at hval <;> split at hval <;> omega

theorem hexDigits_injective : Function.Injective hexDigits := by
  intro a
  induction a with
  | nil =>
    intro b h
    cases b with
    | nil => rfl
    | cons y ys => cases h
  | cons x xs ih =>
    intro b h
    cases b with
    | nil => cases h
    | cons y ys =>
      have hx := x.toNat_lt
      have hy := y.toNat_lt
      injection h with hhigh h
      injection h with hlow h
      have hdiv : x.toNat / 16 = y.toNat / 16 := hexDigit_inj (by omega) (by omega) hhigh
      have hmod : x.toNat % 16 = y.toNat % 16 := hexDigit_inj (by omega) (by omega) hlow
      have hval : x.toNat = y.toNat := by omega
      rw [UInt8.toNat_inj.mp hval, ih h]

theorem hashToHex_injective : Function.Injective hashToHex := by
  intro a b h
  injection h with hbytes
  exact FixedBytes.ext (hexDigits_injective hbytes)

/-- The code of a digit is a byte from 48 to 57. -/
theorem toNat_digit {n : Nat} {c : Char} (h : c ∈ Nat.toDigits 10 n) :
    (UInt8.ofNat c.toNat).toNat = c.toNat ∧ 48 ≤ c.toNat ∧ c.toNat ≤ 57 := by
  have hdigit := Nat.isDigit_of_mem_toDigits (by omega) (by omega) h
  simp only [Char.isDigit, Bool.and_eq_true, decide_eq_true_eq] at hdigit
  have hge : 48 ≤ c.toNat := UInt32.le_iff_toNat_le.mp hdigit.1
  have hle : c.toNat ≤ 57 := UInt32.le_iff_toNat_le.mp hdigit.2
  rw [UInt8.toNat_ofNat', Nat.mod_eq_of_lt (by omega)]
  exact ⟨rfl, hge, hle⟩

/-- No digit is an underscore. -/
theorem underscore_not_mem_decimal (n : Nat) : 95 ∉ (decimal n).bytes := by
  intro h
  obtain ⟨c, hc, heq⟩ := List.mem_map.mp h
  obtain ⟨hcode, -, hle⟩ := toNat_digit hc
  rw [heq] at hcode
  have hval : (95 : UInt8).toNat = 95 := rfl
  omega

theorem decimal_injective : Function.Injective decimal := by
  intro m n h
  have hback : ∀ n, (decimal n).bytes.map (fun b => Char.ofNat b.toNat) = Nat.toDigits 10 n := by
    intro n
    rw [decimal, List.map_map]
    refine (List.map_congr_left fun c hc => ?_).trans (List.map_id _)
    show Char.ofNat (UInt8.ofNat c.toNat).toNat = c
    rw [(toNat_digit hc).1, Char.ofNat_toNat]
  have hdigits : Nat.toDigits 10 m = Nat.toDigits 10 n := by rw [← hback, ← hback, h]
  rw [← Nat.ofDigitChars_ten_toDigits (n := m), ← Nat.ofDigitChars_ten_toDigits (n := n), hdigits]

/-- What stands behind the last place of a byte. -/
theorem suffix_inj {c : UInt8} {front front' back back' : Bytes} (hback : c ∉ back)
    (hback' : c ∉ back') (h : front ++ c :: back = front' ++ c :: back') : back = back' := by
  have hread : ∀ {front back : Bytes}, c ∉ back →
      (front ++ c :: back).reverse.takeWhile (· ≠ c) = back.reverse := by
    intro front back hback
    rw [List.reverse_append, List.reverse_cons, List.append_assoc,
      List.takeWhile_append_of_pos]
    · simp
    · intro b hb
      have hne : b ≠ c := fun h => hback (List.mem_reverse.mp (h ▸ hb))
      simpa using hne
  have hrev : back.reverse = back'.reverse := by rw [← hread hback, ← hread hback', h]
  exact List.reverse_injective hrev

end Text

/-! ## A hash to compute with -/

/-- A stand-in for the hash parameter where something is computed: the number
the bytes spell (with their length marked by a final one) modulo `2 ^ 256 - 1`,
moved off zero. -/
def sampleHash (b : Bytes) : Hash256 :=
  ⟨leBytes 32 (leNat (b ++ [1]) % (256 ^ 32 - 1) + 1), leBytes_length 32 _⟩

theorem sampleHash_ne_zero (b : Bytes) : sampleHash b ≠ FixedBytes.zero := by
  intro h
  have hzero : leNat (FixedBytes.zero : Hash256).bytes = 0 := by decide
  have hval : leNat (sampleHash b).bytes = 0 := by rw [h, hzero]
  have hlt : leNat (b ++ [1]) % (256 ^ 32 - 1) < 256 ^ 32 - 1 := Nat.mod_lt _ (by decide)
  rw [sampleHash, leNat_leBytes, Nat.mod_eq_of_lt (by omega)] at hval
  omega

/-! ## Signatures -/

/-- `crypto::Ed25519`, a wrapper around a library: the two operations are
parameters of the model. -/
structure Ed25519 where
  sign : Bytes → SecretKey → Signature
  verify : Bytes → Signature → PublicKey → Bool

/-- The public key in the second half of a secret key. -/
def SecretKey.publicKey (sk : SecretKey) : PublicKey :=
  ⟨sk.bytes.drop 32, by rw [List.length_drop, sk.size]⟩

/-- A stand-in for the signature scheme where something is computed: the hash of
the signer's key and the message, and the key again. -/
def sampleEd25519 : Ed25519 where
  sign message sk :=
    ⟨(sampleHash (sk.publicKey.bytes ++ message)).bytes ++ sk.publicKey.bytes, by
      rw [List.length_append, FixedBytes.size, FixedBytes.size]⟩
  verify message signature pk :=
    signature.bytes == (sampleHash (pk.bytes ++ message)).bytes ++ pk.bytes

/-! ## The system clock -/

/-- Seconds since the Unix epoch as `static_cast<uint64_t>(to_time_t(now))`
yields them. `time_t` is a signed 64-bit count, so a reading of a clock set to
1970 or later fits 63 bits. -/
structure Time where
  secs : UInt64
  signed : secs.toNat < 2 ^ 63
  deriving DecidableEq

/-- The successive readings of the clock during one call. -/
structure Clock where
  read : Nat → Time

namespace Clock

/-- The readings left after the first `n`. -/
def after (c : Clock) (n : Nat) : Clock := ⟨fun i => c.read (i + n)⟩

/-- A clock whose readings all fall into one second. -/
def still (t : Time) : Clock := ⟨fun _ => t⟩

/-- Readings never go back. -/
def NonDecreasing (c : Clock) : Prop :=
  ∀ i j, i ≤ j → (c.read i).secs.toNat ≤ (c.read j).secs.toNat

@[simp] theorem read_after (c : Clock) (n i : Nat) : (c.after n).read i = c.read (i + n) := rfl

@[simp] theorem read_still (t : Time) (i : Nat) : (still t).read i = t := rfl

theorem NonDecreasing.after {c : Clock} (h : c.NonDecreasing) (n : Nat) :
    (c.after n).NonDecreasing :=
  fun i j hij => h (i + n) (j + n) (by omega)

theorem still_nonDecreasing (t : Time) : (still t).NonDecreasing := fun _ _ _ => Nat.le_refl _

end Clock

namespace Time

/-- `MAX_FUTURE_SKEW_SECONDS = 5 * 60`. -/
def maxFutureSkew : UInt64 := 5 * 60

/-- The latest timestamp accepted at `t`: `now_seconds + MAX_FUTURE_SKEW_SECONDS`. -/
def skewLimit (t : Time) : UInt64 := t.secs + maxFutureSkew

theorem skewLimit_toNat (t : Time) : t.skewLimit.toNat = t.secs.toNat + 300 := by
  have h := t.signed
  have hskew : maxFutureSkew.toNat = 300 := by decide
  rw [skewLimit, UInt64.toNat_add, hskew, Nat.mod_eq_of_lt (by omega)]

/-- A later reading accepts every timestamp an earlier one does. -/
theorem skewLimit_mono {t₁ t₂ : Time} (h : t₁.secs.toNat ≤ t₂.secs.toNat) :
    t₁.skewLimit ≤ t₂.skewLimit := by
  rw [UInt64.le_iff_toNat_le, skewLimit_toNat, skewLimit_toNat]
  omega

/-- The age of a timestamp at `t`, as `now_seconds - timestamp` computes it: a
timestamp ahead of the clock wraps around. -/
theorem secs_sub_toNat (t : Time) (timestamp : UInt64) :
    (t.secs - timestamp).toNat =
      if timestamp.toNat ≤ t.secs.toNat then t.secs.toNat - timestamp.toNat
      else 2 ^ 64 - timestamp.toNat + t.secs.toNat := by
  have ht := t.signed
  have hstamp := timestamp.toNat_lt
  rw [UInt64.toNat_sub]
  split
  · rename_i hle
    have hturn : 2 ^ 64 - timestamp.toNat + t.secs.toNat =
        t.secs.toNat - timestamp.toNat + 2 ^ 64 := by
      omega
    rw [hturn, Nat.add_mod_right, Nat.mod_eq_of_lt (by omega)]
  · rw [Nat.mod_eq_of_lt (by omega)]

end Time

/-! ## Concrete inputs -/

/-- Node number `n`. -/
def sampleNode (n : Nat) : NodeID := ⟨⟨leBytes 32 n, leBytes_length 32 n⟩⟩

/-- Key pair number `n`. -/
def samplePublicKey (n : Nat) : PublicKey := ⟨leBytes 32 n, leBytes_length 32 n⟩

def sampleSecretKey (n : Nat) : SecretKey :=
  ⟨leBytes 32 n ++ leBytes 32 n, by rw [List.length_append, leBytes_length]⟩

/-- Twenty minutes into 1970, the start of epoch 2. -/
def sampleTime : Time := ⟨1200, by decide⟩

end Cashew
