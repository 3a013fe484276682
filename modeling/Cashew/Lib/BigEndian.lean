import Cashew.Lib.Decoder

/-!
# Big-endian fields, and reads at an offset

The counterpart of `leBytes` and `leNat` with the most significant byte first,
as a field is written with `for (i = width - 1; i >= 0; --i)` and read with
`value = (value << 8) | data[offset++]`, and the number of zero bits a byte string
begins with: it is what its width leaves over above the size of its number, so that
counting zeros is comparing with a power of two.

A parser that keeps the whole buffer beside an offset reads such fields through a pointer:
nothing but a size test somewhere before keeps the read inside. It is a sequence of `readAt`
in the monad of `Outcome`, where a read past the end ends everything.
-/

namespace Cashew.Lib

/-! ## Fields -/

/-- The `width` low bytes of `n`, most significant first. -/
def beBytes (width n : Nat) : Bytes := (leBytes width n).reverse

/-- The number a big-endian byte string denotes. -/
def beNat (bytes : Bytes) : Nat := leNat bytes.reverse

/-- The eight bytes of a `uint64_t`, most significant first. -/
def beU64Bytes (x : UInt64) : Bytes := beBytes 8 x.toNat

/-- The four bytes of a `uint32_t`, most significant first. -/
def beU32Bytes (x : UInt32) : Bytes := beBytes 4 x.toNat

@[simp] theorem beBytes_length (width n : Nat) : (beBytes width n).length = width := by
  rw [beBytes, List.length_reverse, leBytes_length]

@[simp] theorem beU64Bytes_length (x : UInt64) : (beU64Bytes x).length = 8 := beBytes_length 8 _

theorem beNat_beBytes (width n : Nat) : beNat (beBytes width n) = n % 256 ^ width := by
  rw [beNat, beBytes, List.reverse_reverse, leNat_leBytes]

theorem beNat_lt (bytes : Bytes) : beNat bytes < 256 ^ bytes.length := by
  rw [← List.length_reverse]
  exact leNat_lt bytes.reverse

/-! ## Reading them -/

namespace Decoder

/-- A fixed-width big-endian field, read byte by byte. -/
def be (width : Nat) : Decoder Nat := do
  let field ← take width
  pure (beNat field)

/-- A big-endian `uint64_t` field. -/
def beU64 : Decoder UInt64 := do
  let n ← be 8
  pure (UInt64.ofNat n)

theorem be_bind_of_le {β : Type} {width : Nat} {next : Nat → Decoder β} {rest : Bytes}
    (h : width ≤ rest.length) :
    (be width >>= next) rest = next (beNat (rest.take width)) (rest.drop width) := by
  rw [be, bind_assoc, take_bind_of_le h]
  rfl

end Decoder

namespace Decodes

/-- A number too large for its field comes back truncated. -/
theorem be_mod (width n : Nat) :
    Decodes (Decoder.be width) (beBytes width n) (n % 256 ^ width) := by
  have hfield := (take (beBytes_length width n)).bind_pure (f := beNat)
  rwa [beNat_beBytes] at hfield

theorem be {width n : Nat} (h : n < 256 ^ width) :
    Decodes (Decoder.be width) (beBytes width n) n := by
  have hfield := be_mod width n
  rwa [Nat.mod_eq_of_lt h] at hfield

theorem beU64 (x : UInt64) : Decodes Decoder.beU64 (beU64Bytes x) x := by
  have hx : x.toNat < 256 ^ 8 := UInt64.toNat_lt x
  have h := (be hx).bind_pure (f := UInt64.ofNat)
  rwa [UInt64.ofNat_toNat] at h

end Decodes

namespace InBounds

variable {β : Type}

theorem be_bind {width n : Nat} {next : Nat → Decoder β}
    (h : ∀ value, value < 256 ^ width → InBounds (next value) n) :
    InBounds (Decoder.be width >>= next) (width + n) := by
  rw [Decoder.be, bind_assoc]
  refine take_bind fun field hlen => ?_
  rw [pure_bind]
  exact h (beNat field) (hlen ▸ beNat_lt field)

theorem beU64_bind {n : Nat} {next : UInt64 → Decoder β} (h : ∀ x, InBounds (next x) n) :
    InBounds (Decoder.beU64 >>= next) (8 + n) := by
  rw [Decoder.beU64, bind_assoc]
  refine be_bind fun value _ => ?_
  rw [pure_bind]
  exact h (UInt64.ofNat value)

end InBounds

theorem Yields.be (width : Nat) : Yields (Decoder.be width) fun n => n < 256 ^ width := by
  refine Yields.bind (Yields.take width) fun field hlen => Yields.pure ?_
  rw [← hlen]
  exact beNat_lt field

namespace Overruns

variable {β : Type} {s : Bytes}

theorem be_bind {width : Nat} {next : Nat → Decoder β} :
    Overruns (Decoder.be width >>= next) s ↔
      s.length < width ∨ Overruns (next (beNat (s.take width))) (s.drop width) := by
  rw [Decoder.be, bind_assoc, take_bind]
  rfl

/-- A fixed-width field whose value does not matter for what follows. -/
theorem beU64_bind {next : UInt64 → Decoder β} {C : Prop}
    (h : ∀ x, Overruns (next x) (s.drop 8) ↔ C) :
    Overruns (Decoder.beU64 >>= next) s ↔ s.length < 8 ∨ C := by
  rw [Decoder.beU64, bind_assoc, be_bind]
  exact or_congr_right (h _)

end Overruns

/-! ## Leading zeros -/

theorem leNat_append (front back : Bytes) :
    leNat (front ++ back) = leNat front + 256 ^ front.length * leNat back := by
  induction front with
  | nil => simp [leNat]
  | cons b rest ih =>
    rw [List.cons_append, leNat, ih, leNat, List.length_cons, Nat.pow_succ']
    ring

/-- The first byte weighs most. -/
theorem beNat_cons (b : UInt8) (rest : Bytes) :
    beNat (b :: rest) = b.toNat * 256 ^ rest.length + beNat rest := by
  rw [beNat, List.reverse_cons, leNat_append, List.length_reverse, leNat, leNat, beNat]
  ring

/-- The zero bits in front of the number's own. -/
def leadingZeroBits (bytes : Bytes) : Nat := 8 * bytes.length - (beNat bytes).size

theorem size_beNat_le (bytes : Bytes) : (beNat bytes).size ≤ 8 * bytes.length := by
  have hlt := beNat_lt bytes
  rw [show (256 : Nat) = 2 ^ 8 from rfl, ← Nat.pow_mul] at hlt
  exact Nat.size_le.mpr hlt

/-- **Counting zeros is comparing.** -/
theorem le_leadingZeroBits_iff {bytes : Bytes} {d : Nat} (hd : d ≤ 8 * bytes.length) :
    d ≤ leadingZeroBits bytes ↔ beNat bytes < 2 ^ (8 * bytes.length - d) := by
  have hsize := size_beNat_le bytes
  rw [← Nat.size_le, leadingZeroBits]
  omega

theorem leadingZeroBits_le (bytes : Bytes) : leadingZeroBits bytes ≤ 8 * bytes.length :=
  Nat.sub_le _ _

theorem leadingZeroBits_zero_cons (rest : Bytes) :
    leadingZeroBits (0 :: rest) = 8 + leadingZeroBits rest := by
  have hsize := size_beNat_le rest
  have hvalue : beNat (0 :: rest) = beNat rest := by
    rw [beNat_cons]
    simp
  rw [leadingZeroBits, leadingZeroBits, hvalue, List.length_cons]
  omega

/-- A byte whose highest bit is the one behind `z` zeros ends the count. -/
theorem leadingZeroBits_cons {b : UInt8} {z : Nat} (hz : z < 8) (hlow : 2 ^ (7 - z) ≤ b.toNat)
    (hhigh : b.toNat < 2 ^ (8 - z)) (rest : Bytes) : leadingZeroBits (b :: rest) = z := by
  have hrest := beNat_lt rest
  have hpow : ∀ k, 2 ^ k * 256 ^ rest.length = 2 ^ (k + 8 * rest.length) := by
    intro k
    rw [Nat.pow_add, Nat.pow_mul]
  have hupper : beNat (b :: rest) < 2 ^ (8 - z + 8 * rest.length) := by
    rw [← hpow, beNat_cons]
    calc b.toNat * 256 ^ rest.length + beNat rest
        < b.toNat * 256 ^ rest.length + 256 ^ rest.length := by omega
      _ = (b.toNat + 1) * 256 ^ rest.length := (Nat.succ_mul _ _).symm
      _ ≤ 2 ^ (8 - z) * 256 ^ rest.length := Nat.mul_le_mul_right _ hhigh
  have hlower : 2 ^ (7 - z + 8 * rest.length) ≤ beNat (b :: rest) := by
    rw [← hpow, beNat_cons]
    exact Nat.le_add_right_of_le (Nat.mul_le_mul_right _ hlow)
  have hle := Nat.size_le.mpr hupper
  have hlt := Nat.lt_size.mpr hlower
  rw [leadingZeroBits, List.length_cons]
  omega

/-! ## Reads at an offset -/

namespace Outcome

variable {α β : Type}

protected def bind : Outcome α → (α → Outcome β) → Outcome β
  | .value a, next => next a
  | .rejected, _ => .rejected
  | .outOfBounds, _ => .outOfBounds

instance : Monad Outcome where
  pure := .value
  bind := Outcome.bind

@[simp] theorem value_bind (a : α) (next : α → Outcome β) : (.value a >>= next) = next a := rfl

@[simp] theorem rejected_bind (next : α → Outcome β) : (.rejected >>= next) = .rejected := rfl

@[simp] theorem outOfBounds_bind (next : α → Outcome β) :
    (.outOfBounds >>= next) = .outOfBounds := rfl

@[simp] theorem pure_eq (a : α) : (pure a : Outcome α) = .value a := rfl

end Outcome

/-- The bytes at an offset of a buffer. -/
def bytesAt (data : Bytes) (offset n : Nat) : Bytes := (data.drop offset).take n

/-- The number that the bytes at an offset spell, most significant first. -/
def numberAt (data : Bytes) (offset n : Nat) : Nat := beNat (bytesAt data offset n)

/-- An unchecked read of `n` bytes. -/
def readAt (data : Bytes) (offset n : Nat) : Outcome Bytes :=
  if offset + n ≤ data.length then .value (bytesAt data offset n) else .outOfBounds

/-- An unchecked read of a big-endian number. -/
def readNumber (data : Bytes) (offset n : Nat) : Outcome Nat := do
  let bytes ← readAt data offset n
  pure (beNat bytes)

section Reads

variable {data : Bytes} {offset n : Nat}

theorem readAt_of_le (h : offset + n ≤ data.length) :
    readAt data offset n = .value (bytesAt data offset n) := if_pos h

theorem readAt_of_gt (h : data.length < offset + n) : readAt data offset n = .outOfBounds :=
  if_neg (Nat.not_le_of_lt h)

theorem readNumber_of_le (h : offset + n ≤ data.length) :
    readNumber data offset n = .value (numberAt data offset n) := by
  rw [readNumber, readAt_of_le h]
  rfl

theorem bytesAt_length (h : offset + n ≤ data.length) : (bytesAt data offset n).length = n := by
  rw [bytesAt, List.length_take, List.length_drop]
  omega

end Reads

end Cashew.Lib
