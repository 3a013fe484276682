import Mathlib

/-!
# Byte strings, little-endian fields and bounds-aware decoders

The wire formats of a C++ program are written by appending fields to a byte
vector and read back by walking an offset over it. A read is *unchecked*: what
keeps it inside the buffer is a size test somewhere before it. A `Decoder`
therefore has three outcomes — a value, a rejection, and a read past the end of
the buffer — so that forgetting a size test is visible in the model.

A decoder carries the unread suffix of the buffer in place of the offset; the
offset is the buffer's length minus the suffix's, and every test of the form
`offset + n > size` is the test `rest.length < n`.

* `leBytes`/`leNat` — fixed-width little-endian fields (`leNat_leBytes`);
* `Decodes d enc a` — on any input that starts with `enc` the decoder yields
  `a` and stops right behind `enc`; closed under sequencing (`Decodes.bind`);
* `InBounds d n` — on every input of at least `n` bytes the decoder stays
  inside the buffer;
* `WithinInput` — what a decoder yields is no larger than what it read;
* `Spells` — what a decoder yields encodes to the bytes it read;
* `Yields` — what a decoder yields has a property, wherever it reads from;
* `Overruns d s` — the decoder leaves the buffer `s`, with one exact condition
  for each kind of step.
-/

namespace Cashew.Lib

/-- `std::vector<uint8_t>`. -/
abbrev Bytes := List UInt8

/-! ## Little-endian fields -/

/-- The `width` low bytes of `n`, least significant first:
`for (i < width) push_back(uint8_t(n >> (8 * i)))`. -/
def leBytes : Nat → Nat → Bytes
  | 0, _ => []
  | width + 1, n => UInt8.ofNat n :: leBytes width (n / 256)

/-- The number a little-endian byte string denotes. -/
def leNat : Bytes → Nat
  | [] => 0
  | b :: rest => b.toNat + 256 * leNat rest

@[simp] theorem leBytes_length (width n : Nat) : (leBytes width n).length = width := by
  induction width generalizing n with
  | zero => rfl
  | succ width ih => simp [leBytes, ih]

/-- Reading back a field recovers the number up to the field's width. -/
theorem leNat_leBytes (width n : Nat) : leNat (leBytes width n) = n % 256 ^ width := by
  induction width generalizing n with
  | zero => simp [leBytes, leNat, Nat.mod_one]
  | succ width ih =>
    simp only [leBytes, leNat, ih, UInt8.toNat_ofNat']
    rw [show (2 : Nat) ^ 8 = 256 from rfl, Nat.pow_succ', Nat.mod_mul]

theorem leNat_lt (bytes : Bytes) : leNat bytes < 256 ^ bytes.length := by
  induction bytes with
  | nil => simp [leNat]
  | cons b rest ih =>
    have hb : b.toNat < 256 := UInt8.toNat_lt b
    simp only [leNat, List.length_cons, Nat.pow_succ']
    omega

/-- Writing back a read field recovers its bytes. -/
theorem leBytes_leNat (bytes : Bytes) : leBytes bytes.length (leNat bytes) = bytes := by
  induction bytes with
  | nil => rfl
  | cons b rest ih =>
    have hb : b.toNat < 256 := UInt8.toNat_lt b
    have hdiv : (b.toNat + 256 * leNat rest) / 256 = leNat rest := by omega
    have hlow : UInt8.ofNat (b.toNat + 256 * leNat rest) = b := by
      apply UInt8.toNat_inj.mp
      rw [UInt8.toNat_ofNat']
      omega
    simp only [leNat, List.length_cons, leBytes, hdiv, hlow, ih]

/-- Fields of one width are equal only for numbers equal up to that width. -/
theorem leBytes_inj {width n m : Nat} (hn : n < 256 ^ width) (hm : m < 256 ^ width)
    (h : leBytes width n = leBytes width m) : n = m := by
  have hval := congrArg leNat h
  rwa [leNat_leBytes, leNat_leBytes, Nat.mod_eq_of_lt hn, Nat.mod_eq_of_lt hm] at hval

/-- The eight bytes of a `uint64_t`. -/
def u64Bytes (x : UInt64) : Bytes := leBytes 8 x.toNat

/-- The four bytes of a `uint32_t`. -/
def u32Bytes (x : UInt32) : Bytes := leBytes 4 x.toNat

@[simp] theorem u64Bytes_length (x : UInt64) : (u64Bytes x).length = 8 := leBytes_length 8 _

@[simp] theorem u32Bytes_length (x : UInt32) : (u32Bytes x).length = 4 := leBytes_length 4 _

theorem u64Bytes_injective : Function.Injective u64Bytes := by
  intro x y h
  exact UInt64.toNat_inj.mp (leBytes_inj (UInt64.toNat_lt x) (UInt64.toNat_lt y) h)

/-! ## Decoders -/

/-- What a decoder does with a buffer: it yields a value, it gives up
(`std::nullopt`), or it reads at or past the end. -/
inductive Outcome (α : Type) where
  | value (a : α)
  | rejected
  | outOfBounds
  deriving DecidableEq

/-- The `std::optional` a caller gets; a read past the end has no result. -/
def Outcome.toOption {α : Type} : Outcome α → Option α
  | .value a => some a
  | .rejected => none
  | .outOfBounds => none

theorem Outcome.toOption_eq_some_iff {α : Type} {o : Outcome α} {a : α} :
    o.toOption = some a ↔ o = .value a := by
  cases o <;> simp [toOption]

/-- A decoder consumes a prefix of the unread bytes. -/
def Decoder (α : Type) := Bytes → Outcome (α × Bytes)

namespace Decoder

variable {α β : Type}

protected def bind (d : Decoder α) (next : α → Decoder β) : Decoder β := fun rest =>
  match d rest with
  | .value (a, rest') => next a rest'
  | .rejected => .rejected
  | .outOfBounds => .outOfBounds

instance : Monad Decoder where
  pure a := fun rest => .value (a, rest)
  bind := Decoder.bind

/-- `return std::nullopt`. -/
def reject : Decoder α := fun _ => .rejected

/-- The size test `if (offset + n > data.size()) return std::nullopt`. -/
def require (n : Nat) : Decoder Unit := fun rest =>
  if rest.length < n then .rejected else .value ((), rest)

/-- `data[offset++]`, unchecked. -/
def byte : Decoder UInt8
  | [] => .outOfBounds
  | b :: rest => .value (b, rest)

/-- `if (data[offset++] != expected) return std::nullopt`. -/
def tag (expected : UInt8) : Decoder Unit := do
  let b ← byte
  if b = expected then pure () else reject

/-- `std::copy(begin + offset, begin + offset + n, …); offset += n`, unchecked. -/
def take (n : Nat) : Decoder Bytes := fun rest =>
  if n ≤ rest.length then .value (rest.take n, rest.drop n) else .outOfBounds

/-- A fixed-width little-endian field, read byte by byte. -/
def le (width : Nat) : Decoder Nat := do
  let field ← take width
  pure (leNat field)

/-- A `uint64_t` field. -/
def u64 : Decoder UInt64 := do
  let n ← le 8
  pure (UInt64.ofNat n)

/-- A `uint32_t` field. -/
def u32 : Decoder UInt32 := do
  let n ← le 4
  pure (UInt32.ofNat n)

/-- Run a decoder over a whole buffer, dropping what it leaves unread. -/
def run (d : Decoder α) (data : Bytes) : Outcome α :=
  match d data with
  | .value (a, _) => .value a
  | .rejected => .rejected
  | .outOfBounds => .outOfBounds

/-- Go on with the result of decoding some other buffer. -/
def ofOutcome : Outcome α → Decoder α
  | .value a => pure a
  | .rejected => reject
  | .outOfBounds => fun _ => .outOfBounds

/-- Copy `n` bytes out of the buffer and decode the copy on its own. -/
def nested (n : Nat) (d : Decoder α) : Decoder α := do
  let field ← take n
  ofOutcome (d.run field)

/-- `for (i < count) result.push_back(…)`. -/
def replicate (d : Decoder α) : Nat → Decoder (List α)
  | 0 => pure []
  | count + 1 => do
    let a ← d
    let rest ← replicate d count
    pure (a :: rest)

theorem bind_apply (d : Decoder α) (next : α → Decoder β) (rest : Bytes) :
    (d >>= next) rest = match d rest with
      | .value (a, rest') => next a rest'
      | .rejected => .rejected
      | .outOfBounds => .outOfBounds := rfl

theorem require_bind_of_le {n : Nat} {next : Unit → Decoder β} {rest : Bytes}
    (h : n ≤ rest.length) : (require n >>= next) rest = next () rest := by
  rw [bind_apply, require, if_neg (Nat.not_lt_of_le h)]

theorem require_bind_of_lt {n : Nat} {next : Unit → Decoder β} {rest : Bytes}
    (h : rest.length < n) : (require n >>= next) rest = .rejected := by
  rw [bind_apply, require, if_pos h]

theorem take_bind_of_le {n : Nat} {next : Bytes → Decoder β} {rest : Bytes}
    (h : n ≤ rest.length) : (take n >>= next) rest = next (rest.take n) (rest.drop n) := by
  rw [bind_apply, take, if_pos h]

/-- A sequence yields a value only through a value of its first step. -/
theorem bind_eq_value {d : Decoder α} {next : α → Decoder β} {rest rest' : Bytes} {b : β}
    (h : (d >>= next) rest = .value (b, rest')) :
    ∃ a mid, d rest = .value (a, mid) ∧ next a mid = .value (b, rest') := by
  rw [bind_apply] at h
  cases hd : d rest with
  | value p =>
    rw [hd] at h
    exact ⟨p.1, p.2, rfl, h⟩
  | rejected =>
    rw [hd] at h
    cases h
  | outOfBounds =>
    rw [hd] at h
    cases h

theorem run_eq_value {d : Decoder α} {data : Bytes} {a : α} (h : d.run data = .value a) :
    ∃ rest, d data = .value (a, rest) := by
  unfold run at h
  cases hd : d data with
  | value p =>
    rw [hd] at h
    cases h
    exact ⟨p.2, rfl⟩
  | rejected =>
    rw [hd] at h
    cases h
  | outOfBounds =>
    rw [hd] at h
    cases h

/-- One more round of a counted loop. -/
theorem replicate_succ_value {d : Decoder α} {count : Nat} {rest mid rest' : Bytes} {a : α}
    {items : List α} (hhead : d rest = .value (a, mid))
    (htail : replicate d count mid = .value (items, rest')) :
    replicate d (count + 1) rest = .value (a :: items, rest') := by
  rw [replicate, bind_apply, hhead]
  show (replicate d count >>= fun items => pure (a :: items)) mid = _
  rw [bind_apply, htail]
  rfl

/-- A counted loop yields as many items as it counts. -/
theorem length_of_replicate {d : Decoder α} :
    ∀ {count : Nat} {rest rest' : Bytes} {items : List α},
      replicate d count rest = .value (items, rest') → items.length = count
  | 0, rest, rest', items, h => by
    cases h
    rfl
  | count + 1, rest, rest', items, h => by
    obtain ⟨a, mid, _, h⟩ := bind_eq_value h
    obtain ⟨tail, mid', htail, h⟩ := bind_eq_value h
    cases h
    rw [List.length_cons, length_of_replicate htail]

instance : LawfulMonad Decoder := LawfulMonad.mk' Decoder
  (by
    intro α d
    funext rest
    show Decoder.bind d _ rest = d rest
    unfold Decoder.bind
    cases d rest <;> rfl)
  (fun _ _ => rfl)
  (by
    intro α β γ d f g
    funext rest
    simp only [bind_apply]
    cases d rest <;> rfl)

end Decoder

/-! ## Decoding what was encoded -/

/-- On every input that starts with `enc` the decoder yields `a` and leaves the
rest unread. -/
def Decodes {α : Type} (d : Decoder α) (enc : Bytes) (a : α) : Prop :=
  ∀ post, d (enc ++ post) = .value (a, post)

namespace Decodes

variable {α β : Type}

theorem pure (a : α) : Decodes (Pure.pure a) [] a := fun _ => rfl

theorem bind {d : Decoder α} {next : α → Decoder β} {enc enc' : Bytes} {a : α} {b : β}
    (hd : Decodes d enc a) (hnext : Decodes (next a) enc' b) :
    Decodes (d >>= next) (enc ++ enc') b := by
  intro post
  rw [List.append_assoc, Decoder.bind_apply, hd (enc' ++ post)]
  exact hnext post

/-- Executing a step whose encoding is in front. -/
theorem bind_append {d : Decoder α} {next : α → Decoder β} {enc : Bytes} {a : α}
    (h : Decodes d enc a) (post : Bytes) : (d >>= next) (enc ++ post) = next a post := by
  rw [Decoder.bind_apply, h post]

/-- The last step of a record: assembling the value consumes nothing. -/
theorem bind_pure {d : Decoder α} {f : α → β} {enc : Bytes} {a : α}
    (hd : Decodes d enc a) : Decodes (d >>= fun x => Pure.pure (f x)) enc (f a) := by
  intro post
  rw [Decoder.bind_apply, hd post]
  rfl

/-- A size test passes when the encoding behind it is long enough. -/
theorem require_bind {n : Nat} {next : Unit → Decoder β} {enc : Bytes} {b : β}
    (hlen : n ≤ enc.length) (hnext : Decodes (next ()) enc b) :
    Decodes (Decoder.require n >>= next) enc b := by
  intro post
  have hle : ¬ (enc ++ post).length < n := by
    rw [List.length_append]
    omega
  rw [Decoder.bind_apply, Decoder.require, if_neg hle]
  exact hnext post

theorem byte (b : UInt8) : Decodes Decoder.byte [b] b := fun _ => rfl

theorem tag (expected : UInt8) : Decodes (Decoder.tag expected) [expected] () := by
  intro post
  rw [List.singleton_append, Decoder.tag, Decoder.bind_apply, Decoder.byte]
  dsimp only
  rw [if_pos rfl]
  rfl

theorem take {n : Nat} {enc : Bytes} (h : enc.length = n) :
    Decodes (Decoder.take n) enc enc := by
  intro post
  subst h
  simp [Decoder.take]

/-- A number too large for its field comes back truncated. -/
theorem le_mod (width n : Nat) :
    Decodes (Decoder.le width) (leBytes width n) (n % 256 ^ width) := by
  have hfield := (take (leBytes_length width n)).bind_pure (f := leNat)
  rwa [leNat_leBytes] at hfield

theorem le {width n : Nat} (h : n < 256 ^ width) :
    Decodes (Decoder.le width) (leBytes width n) n := by
  have hfield := le_mod width n
  rwa [Nat.mod_eq_of_lt h] at hfield

theorem u64 (x : UInt64) : Decodes Decoder.u64 (u64Bytes x) x := by
  have hx : x.toNat < 256 ^ 8 := UInt64.toNat_lt x
  have h := (le hx).bind_pure (f := UInt64.ofNat)
  rwa [UInt64.ofNat_toNat] at h

theorem u32 (x : UInt32) : Decodes Decoder.u32 (u32Bytes x) x := by
  have hx : x.toNat < 256 ^ 4 := UInt32.toNat_lt x
  have h := (le hx).bind_pure (f := UInt32.ofNat)
  rwa [UInt32.ofNat_toNat] at h

/-- A length-delimited field is read back by whatever reads back its content. -/
theorem nested {d : Decoder α} {enc : Bytes} {a : α} {n : Nat} (hlen : enc.length = n)
    (h : d.run enc = .value a) : Decodes (Decoder.nested n d) enc a := by
  intro post
  rw [Decoder.nested, Decoder.bind_apply, take hlen post]
  show Decoder.ofOutcome (d.run enc) post = _
  rw [h]
  rfl

/-- A counted list is read back when each of its items is. -/
theorem replicate {d : Decoder α} {enc : α → Bytes} :
    ∀ {items : List α}, (∀ a ∈ items, Decodes d (enc a) a) →
      Decodes (Decoder.replicate d items.length) (items.flatMap enc) items
  | [], _ => pure []
  | a :: rest, h => by
    rw [List.flatMap_cons]
    refine (h a List.mem_cons_self).bind ?_
    have hrest : Decodes (Decoder.replicate d rest.length) (rest.flatMap enc) rest :=
      replicate fun b hb => h b (List.mem_cons_of_mem a hb)
    exact hrest.bind_pure (f := (a :: ·))

theorem run {d : Decoder α} {enc : Bytes} {a : α} (h : Decodes d enc a) :
    d.run enc = .value a := by
  have hd := h []
  rw [List.append_nil] at hd
  rw [Decoder.run, hd]

end Decodes

/-! ## Staying inside the buffer -/

/-- On every input of at least `n` bytes the decoder stays inside it. -/
def InBounds {α : Type} (d : Decoder α) (n : Nat) : Prop :=
  ∀ s, n ≤ s.length → d s ≠ .outOfBounds

namespace InBounds

variable {α β : Type}

theorem pure (a : α) (n : Nat) : InBounds (Pure.pure a) n := by
  intro s _ h
  cases h

theorem reject (n : Nat) : InBounds (Decoder.reject : Decoder α) n := by
  intro s _ h
  cases h

theorem mono {d : Decoder α} {m n : Nat} (h : InBounds d m) (hle : m ≤ n) : InBounds d n :=
  fun s hs => h s (Nat.le_trans hle hs)

/-- A size test pays for the reads behind it, whatever was left before. -/
theorem require_bind {m n : Nat} {next : Unit → Decoder β} (h : InBounds (next ()) m) :
    InBounds (Decoder.require m >>= next) n := by
  intro s _
  rw [Decoder.bind_apply, Decoder.require]
  by_cases hlen : s.length < m
  · rw [if_pos hlen]
    exact fun h => by cases h
  · rw [if_neg hlen]
    exact h s (Nat.le_of_not_lt hlen)

theorem take_bind {m n : Nat} {next : Bytes → Decoder β}
    (h : ∀ field : Bytes, field.length = m → InBounds (next field) n) :
    InBounds (Decoder.take m >>= next) (m + n) := by
  intro s hs
  have hm : m ≤ s.length := by omega
  have hdrop : n ≤ (s.drop m).length := by
    rw [List.length_drop]
    omega
  rw [Decoder.bind_apply, Decoder.take, if_pos hm]
  exact h (s.take m) (List.length_take_of_le hm) (s.drop m) hdrop

theorem byte_bind {n : Nat} {next : UInt8 → Decoder β} (h : ∀ b, InBounds (next b) n) :
    InBounds (Decoder.byte >>= next) (n + 1) := by
  intro s hs
  cases s with
  | nil => simp at hs
  | cons b rest => exact h b rest (by simpa using hs)

theorem tag_bind {n : Nat} {expected : UInt8} {next : Unit → Decoder β}
    (h : InBounds (next ()) n) : InBounds (Decoder.tag expected >>= next) (n + 1) := by
  rw [Decoder.tag, bind_assoc]
  refine byte_bind fun b => ?_
  split
  · rwa [pure_bind]
  · intro s _ hs
    cases hs

theorem le_bind {width n : Nat} {next : Nat → Decoder β}
    (h : ∀ value, value < 256 ^ width → InBounds (next value) n) :
    InBounds (Decoder.le width >>= next) (width + n) := by
  rw [Decoder.le, bind_assoc]
  refine take_bind fun field hlen => ?_
  rw [pure_bind]
  exact h (leNat field) (hlen ▸ leNat_lt field)

theorem u64_bind {n : Nat} {next : UInt64 → Decoder β} (h : ∀ x, InBounds (next x) n) :
    InBounds (Decoder.u64 >>= next) (8 + n) := by
  rw [Decoder.u64, bind_assoc]
  refine le_bind fun value _ => ?_
  rw [pure_bind]
  exact h (UInt64.ofNat value)

theorem u32_bind {n : Nat} {next : UInt32 → Decoder β} (h : ∀ x, InBounds (next x) n) :
    InBounds (Decoder.u32 >>= next) (4 + n) := by
  rw [Decoder.u32, bind_assoc]
  refine le_bind fun value _ => ?_
  rw [pure_bind]
  exact h (UInt32.ofNat value)

/-- Behind a step that may consume everything, the rest needs its own tests. -/
theorem bind {n : Nat} {d : Decoder α} {next : α → Decoder β} (hd : InBounds d n)
    (hnext : ∀ a, InBounds (next a) 0) : InBounds (d >>= next) n := by
  intro s hs
  have hs' := hd s hs
  rw [Decoder.bind_apply]
  revert hs'
  cases d s with
  | value p => exact fun _ => hnext p.1 p.2 (Nat.zero_le _)
  | rejected => exact fun _ h => by cases h
  | outOfBounds => exact fun hs' _ => hs' rfl

theorem run {d : Decoder α} {data : Bytes} (h : InBounds d 0) :
    d.run data ≠ .outOfBounds := by
  have hd := h data (Nat.zero_le _)
  unfold Decoder.run
  revert hd
  cases d data with
  | value p => exact fun _ h => by cases h
  | rejected => exact fun _ h => by cases h
  | outOfBounds => exact fun hd _ => hd rfl

theorem nested {n : Nat} {d : Decoder α} (h : InBounds d 0) :
    InBounds (Decoder.nested n d) n := by
  refine take_bind (n := 0) fun field _ => ?_
  cases hfield : d.run field with
  | value a => exact pure a 0
  | rejected => exact reject 0
  | outOfBounds => exact absurd hfield h.run

theorem replicate {d : Decoder α} (h : InBounds d 0) :
    ∀ count, InBounds (Decoder.replicate d count) 0
  | 0 => pure [] 0
  | count + 1 => h.bind fun _ => (replicate h count).bind fun _ => pure _ 0

end InBounds

/-! ## What a value can weigh -/

/-- What the decoder yields weighs no more than the bytes it consumes and a
credit it starts with. Sequencing hands the weight on as the next step's
credit, which bounds the size of a decoded value by the size of its input. -/
def WithinInput {α : Type} (credit : Nat) (d : Decoder α) (weight : α → Nat) : Prop :=
  ∀ s a s', d s = .value (a, s') → weight a + s'.length ≤ credit + s.length

namespace WithinInput

variable {α β : Type} {credit : Nat}

theorem pure {a : α} {weight : α → Nat} (h : weight a ≤ credit) :
    WithinInput credit (Pure.pure a) weight := by
  intro s b s' hs
  cases hs
  omega

theorem bind {d : Decoder α} {next : α → Decoder β} {weight : α → Nat} {weight' : β → Nat}
    (hd : WithinInput credit d weight)
    (hnext : ∀ a, WithinInput (weight a) (next a) weight') :
    WithinInput credit (d >>= next) weight' := by
  intro s b s' h
  obtain ⟨a, mid, ha, hb⟩ := Decoder.bind_eq_value h
  have hfirst := hd s a mid ha
  have hsecond := hnext a mid b s' hb
  omega

theorem require (n : Nat) : WithinInput credit (Decoder.require n) fun _ => credit := by
  intro s a s' h
  unfold Decoder.require at h
  split at h
  · cases h
  · cases h
    exact Nat.le_refl _

theorem byte : WithinInput credit Decoder.byte fun _ => credit := by
  intro s a s' h
  cases s with
  | nil => cases h
  | cons b rest =>
    cases h
    simp

theorem take (n : Nat) :
    WithinInput credit (Decoder.take n) fun field => credit + field.length := by
  intro s a s' h
  unfold Decoder.take at h
  split at h
  · cases h
    show credit + (s.take n).length + (s.drop n).length ≤ credit + s.length
    rw [List.length_take, List.length_drop]
    omega
  · cases h

theorem le (width : Nat) : WithinInput credit (Decoder.le width) fun _ => credit :=
  (take width).bind fun _ => pure (Nat.le_add_right _ _)

theorem u64 : WithinInput credit Decoder.u64 fun _ => credit :=
  (le 8).bind fun _ => pure (Nat.le_refl _)

/-- A counted loop weighs what its items weigh together. -/
theorem replicate {d : Decoder α} {weight : α → Nat}
    (h : ∀ credit, WithinInput credit d fun a => credit + weight a) :
    ∀ (count credit : Nat), WithinInput credit (Decoder.replicate d count) fun items =>
      credit + (items.map weight).sum
  | 0, credit => pure (by simp)
  | count + 1, credit => by
    refine (h credit).bind fun a => ?_
    refine (replicate h count (credit + weight a)).bind fun rest => ?_
    refine pure ?_
    simp only [List.map_cons, List.sum_cons]
    omega

end WithinInput

/-! ## What a value was read from -/

/-- Behind the bytes `seen`, what the decoder yields encodes to all the bytes
read so far. Sequencing hands on what has been seen; the last step compares it
with the encoding of the whole value. -/
def Spells {α : Type} (seen : Bytes) (d : Decoder α) (enc : α → Bytes) : Prop :=
  ∀ s a rest, d s = .value (a, rest) → seen ++ s = enc a ++ rest

namespace Spells

variable {α β : Type} {seen : Bytes} {enc : β → Bytes}

theorem pure {b : β} (h : seen = enc b) : Spells seen (Pure.pure b) enc := by
  intro s a rest hs
  cases hs
  rw [h]

theorem require_bind {n : Nat} {next : Unit → Decoder β} (h : Spells seen (next ()) enc) :
    Spells seen (Decoder.require n >>= next) enc := by
  intro s b rest hs
  obtain ⟨u, mid, hreq, hs⟩ := Decoder.bind_eq_value hs
  unfold Decoder.require at hreq
  split at hreq
  · cases hreq
  · cases hreq
    exact h s b rest hs

/-- A step whose value spells what it consumed adds that to what was seen. -/
theorem bind {d : Decoder α} (enc' : α → Bytes) {next : α → Decoder β}
    (hd : ∀ s a rest, d s = .value (a, rest) → s = enc' a ++ rest)
    (h : ∀ a, Spells (seen ++ enc' a) (next a) enc) : Spells seen (d >>= next) enc := by
  intro s b rest hs
  obtain ⟨a, mid, ha, hs⟩ := Decoder.bind_eq_value hs
  rw [hd s a mid ha, ← List.append_assoc]
  exact h a mid b rest hs

theorem byte_bind {next : UInt8 → Decoder β} (h : ∀ b, Spells (seen ++ [b]) (next b) enc) :
    Spells seen (Decoder.byte >>= next) enc := by
  refine bind (fun b => [b]) ?_ h
  intro s a rest hs
  cases s with
  | nil => cases hs
  | cons b tail =>
    cases hs
    rfl

theorem take_bind {n : Nat} {next : Bytes → Decoder β}
    (h : ∀ field : Bytes, field.length = n → Spells (seen ++ field) (next field) enc) :
    Spells seen (Decoder.take n >>= next) enc := by
  intro s b rest hs
  obtain ⟨field, mid, hfield, hs⟩ := Decoder.bind_eq_value hs
  unfold Decoder.take at hfield
  split at hfield
  · rename_i hn
    cases hfield
    have hspell := h (s.take n) (List.length_take_of_le hn) (s.drop n) b rest hs
    rwa [List.append_assoc, List.take_append_drop] at hspell
  · cases hfield

theorem le_bind {width : Nat} {next : Nat → Decoder β}
    (h : ∀ value, Spells (seen ++ leBytes width value) (next value) enc) :
    Spells seen (Decoder.le width >>= next) enc := by
  rw [Decoder.le, bind_assoc]
  refine take_bind fun field hlen => ?_
  have hvalue := h (leNat field)
  rw [← hlen, leBytes_leNat] at hvalue
  rwa [pure_bind]

theorem u64_bind {next : UInt64 → Decoder β}
    (h : ∀ x, Spells (seen ++ u64Bytes x) (next x) enc) :
    Spells seen (Decoder.u64 >>= next) enc := by
  rw [Decoder.u64, bind_assoc, Decoder.le, bind_assoc]
  refine take_bind fun field hlen => ?_
  have hlt : leNat field < 256 ^ 8 := hlen ▸ leNat_lt field
  have hbytes : u64Bytes (UInt64.ofNat (leNat field)) = field := by
    rw [u64Bytes, UInt64.toNat_ofNat_of_lt' hlt, ← hlen, leBytes_leNat]
  have hvalue := h (UInt64.ofNat (leNat field))
  rw [hbytes] at hvalue
  rwa [pure_bind, pure_bind]

theorem u32_bind {next : UInt32 → Decoder β}
    (h : ∀ x, Spells (seen ++ u32Bytes x) (next x) enc) :
    Spells seen (Decoder.u32 >>= next) enc := by
  rw [Decoder.u32, bind_assoc, Decoder.le, bind_assoc]
  refine take_bind fun field hlen => ?_
  have hlt : leNat field < 256 ^ 4 := hlen ▸ leNat_lt field
  have hbytes : u32Bytes (UInt32.ofNat (leNat field)) = field := by
    rw [u32Bytes, UInt32.toNat_ofNat_of_lt' hlt, ← hlen, leBytes_leNat]
  have hvalue := h (UInt32.ofNat (leNat field))
  rw [hbytes] at hvalue
  rwa [pure_bind, pure_bind]

/-- A counted loop spells its items one after the other. -/
theorem replicate {d : Decoder α} {enc' : α → Bytes} (h : Spells [] d enc') (count : Nat) :
    Spells [] (Decoder.replicate d count) (·.flatMap enc') := by
  induction count with
  | zero => exact pure rfl
  | succ count ih =>
    intro s items rest hs
    obtain ⟨a, mid, ha, hs⟩ := Decoder.bind_eq_value hs
    obtain ⟨tail, mid', htail, hs⟩ := Decoder.bind_eq_value hs
    cases hs
    have hfirst : s = enc' a ++ mid := h s a mid ha
    have hrest : mid = tail.flatMap enc' ++ rest := ih mid tail rest htail
    show s = (a :: tail).flatMap enc' ++ rest
    rw [hfirst, hrest, List.flatMap_cons, List.append_assoc]

theorem replicate_bind {d : Decoder α} {count : Nat} {enc' : α → Bytes}
    {next : List α → Decoder β} (hd : Spells [] d enc')
    (h : ∀ items : List α, items.length = count →
      Spells (seen ++ items.flatMap enc') (next items) enc) :
    Spells seen (Decoder.replicate d count >>= next) enc := by
  intro s b rest hs
  obtain ⟨items, mid, hitems, hs⟩ := Decoder.bind_eq_value hs
  have hspelt : s = items.flatMap enc' ++ mid := replicate hd count s items mid hitems
  rw [hspelt, ← List.append_assoc]
  exact h items (Decoder.length_of_replicate hitems) mid b rest hs

/-- A decoded value's encoding is a prefix of the buffer. -/
theorem run {d : Decoder β} {data : Bytes} {b : β} (h : Spells [] d enc)
    (hrun : d.run data = .value b) : enc b <+: data := by
  obtain ⟨rest, hd⟩ := Decoder.run_eq_value hrun
  exact ⟨rest, (h data b rest hd).symm⟩

end Spells

/-! ## What a decoder can yield -/

/-- Every value the decoder yields has the property. -/
def Yields {α : Type} (d : Decoder α) (P : α → Prop) : Prop :=
  ∀ s a s', d s = .value (a, s') → P a

namespace Yields

variable {α β : Type} {P : β → Prop}

theorem pure {b : β} (h : P b) : Yields (Pure.pure b) P := by
  intro s a s' hs
  cases hs
  exact h

/-- What the first step yields is handed on. -/
theorem bind {Q : α → Prop} {d : Decoder α} {next : α → Decoder β} (hd : Yields d Q)
    (h : ∀ a, Q a → Yields (next a) P) : Yields (d >>= next) P := by
  intro s b s' hs
  obtain ⟨a, mid, ha, hb⟩ := Decoder.bind_eq_value hs
  exact h a (hd s a mid ha) mid b s' hb

/-- A step whose value does not matter. -/
theorem skip {d : Decoder α} {next : α → Decoder β} (h : ∀ a, Yields (next a) P) :
    Yields (d >>= next) P :=
  bind (Q := fun _ => True) (fun _ _ _ _ => trivial) fun a _ => h a

theorem run {d : Decoder β} {data : Bytes} {b : β} (h : Yields d P)
    (hrun : d.run data = .value b) : P b := by
  obtain ⟨rest, hd⟩ := Decoder.run_eq_value hrun
  exact h data b rest hd

theorem nested {n : Nat} {d : Decoder β} (h : Yields d P) : Yields (Decoder.nested n d) P := by
  refine skip fun field => ?_
  intro s b s' hs
  cases hfield : d.run field with
  | value a =>
    rw [hfield] at hs
    cases hs
    exact h.run hfield
  | rejected =>
    rw [hfield] at hs
    cases hs
  | outOfBounds =>
    rw [hfield] at hs
    cases hs

theorem take (n : Nat) : Yields (Decoder.take n) fun field => field.length = n := by
  intro s field s' hs
  unfold Decoder.take at hs
  split at hs
  · rename_i hlen
    cases hs
    exact List.length_take_of_le hlen
  · cases hs

theorem le (width : Nat) : Yields (Decoder.le width) fun n => n < 256 ^ width := by
  refine bind (take width) fun field hlen => pure ?_
  rw [← hlen]
  exact leNat_lt field

/-- A counted loop yields as many items as it counts, all with the property. -/
theorem replicate {d : Decoder β} (h : Yields d P) (count : Nat) :
    Yields (Decoder.replicate d count) fun items => items.length = count ∧ ∀ b ∈ items, P b := by
  intro s items s' hs
  refine ⟨Decoder.length_of_replicate hs, ?_⟩
  induction count generalizing s items with
  | zero =>
    cases hs
    exact fun _ hb => nomatch hb
  | succ count ih =>
    obtain ⟨b, mid, hb, hs⟩ := Decoder.bind_eq_value hs
    obtain ⟨rest, mid', hrest, hs⟩ := Decoder.bind_eq_value hs
    cases hs
    exact List.forall_mem_cons.mpr ⟨h s b mid hb, ih mid rest hrest⟩

end Yields

/-! ## Leaving the buffer -/

/-- The decoder reads at or past the end of this buffer. -/
def Overruns {α : Type} (d : Decoder α) (s : Bytes) : Prop := d s = .outOfBounds

/-- The decoder tests for `width` bytes and consumes just these. -/
def ReadsChecked {α : Type} (d : Decoder α) (width : Nat) : Prop :=
  ∀ s : Bytes, if width ≤ s.length then ∃ a, d s = .value (a, s.drop width) else d s = .rejected

namespace Overruns

variable {α β : Type} {s : Bytes}

theorem run_iff {d : Decoder α} {data : Bytes} :
    d.run data = .outOfBounds ↔ Overruns d data := by
  unfold Decoder.run Overruns
  cases d data <;> simp

theorem not_pure (a : α) : ¬ Overruns (pure a) s := by
  intro h
  cases h

/-- A size test that fails ends the reading. -/
theorem require_bind {n : Nat} {next : Unit → Decoder β} :
    Overruns (Decoder.require n >>= next) s ↔ n ≤ s.length ∧ Overruns (next ()) s := by
  unfold Overruns
  rw [Decoder.bind_apply, Decoder.require]
  by_cases hlen : s.length < n
  · simp [hlen]
  · simp [hlen, Nat.le_of_not_lt hlen]

/-- An unchecked read goes too far, or what is behind it does. -/
theorem take_bind {n : Nat} {next : Bytes → Decoder β} :
    Overruns (Decoder.take n >>= next) s ↔
      s.length < n ∨ Overruns (next (s.take n)) (s.drop n) := by
  unfold Overruns
  rw [Decoder.bind_apply, Decoder.take]
  by_cases hlen : n ≤ s.length
  · simp [hlen]
  · simp [hlen, Nat.lt_of_not_le hlen]

theorem le_bind {width : Nat} {next : Nat → Decoder β} :
    Overruns (Decoder.le width >>= next) s ↔
      s.length < width ∨ Overruns (next (leNat (s.take width))) (s.drop width) := by
  rw [Decoder.le, bind_assoc, take_bind]
  rfl

/-- A fixed-width field whose value does not matter for what follows. -/
theorem u64_bind {next : UInt64 → Decoder β} {C : Prop}
    (h : ∀ x, Overruns (next x) (s.drop 8) ↔ C) :
    Overruns (Decoder.u64 >>= next) s ↔ s.length < 8 ∨ C := by
  rw [Decoder.u64, bind_assoc, le_bind]
  exact or_congr_right (h _)

theorem u32_bind {next : UInt32 → Decoder β} {C : Prop}
    (h : ∀ x, Overruns (next x) (s.drop 4) ↔ C) :
    Overruns (Decoder.u32 >>= next) s ↔ s.length < 4 ∨ C := by
  rw [Decoder.u32, bind_assoc, le_bind]
  exact or_congr_right (h _)

theorem byte_bind {next : UInt8 → Decoder β} {C : Prop}
    (h : ∀ b, Overruns (next b) (s.drop 1) ↔ C) :
    Overruns (Decoder.byte >>= next) s ↔ s.length < 1 ∨ C := by
  cases s with
  | nil => exact iff_of_true rfl (.inl Nat.one_pos)
  | cons b rest =>
    show Overruns (next b) rest ↔ _
    simpa using h b

/-- A byte whose value decides what follows. -/
theorem flag_bind {next : UInt8 → Decoder β} :
    Overruns (Decoder.byte >>= next) s ↔
      s.length < 1 ∨ ∃ b, s[0]? = some b ∧ Overruns (next b) (s.drop 1) := by
  cases s with
  | nil => exact iff_of_true rfl (.inl Nat.one_pos)
  | cons b rest =>
    show Overruns (next b) rest ↔ _
    simp

/-- A wrong tag ends the reading. -/
theorem tag_bind {expected : UInt8} {next : Unit → Decoder β} :
    Overruns (Decoder.tag expected >>= next) s ↔
      s.length < 1 ∨ s[0]? = some expected ∧ Overruns (next ()) (s.drop 1) := by
  rw [Decoder.tag, bind_assoc, flag_bind]
  refine or_congr_right ⟨?_, ?_⟩
  · rintro ⟨b, hb, hover⟩
    by_cases htag : b = expected
    · rw [if_pos htag, pure_bind] at hover
      exact ⟨htag ▸ hb, hover⟩
    · rw [if_neg htag] at hover
      cases hover
  · rintro ⟨hb, hover⟩
    refine ⟨expected, hb, ?_⟩
    rwa [if_pos rfl, pure_bind]

/-- A sequence goes too far in its first step or behind what that one yields. -/
theorem bind {d : Decoder α} {next : α → Decoder β} :
    Overruns (d >>= next) s ↔
      Overruns d s ∨ ∃ a rest, d s = .value (a, rest) ∧ Overruns (next a) rest := by
  unfold Overruns
  rw [Decoder.bind_apply]
  cases hd : d s with
  | value p =>
    obtain ⟨a, rest⟩ := p
    simp
  | rejected => simp
  | outOfBounds => simp

/-- Behind a step, what tests all its own reads never goes too far. -/
theorem bind_inBounds {d : Decoder α} {next : α → Decoder β} (h : ∀ a, InBounds (next a) 0) :
    Overruns (d >>= next) s ↔ Overruns d s := by
  rw [bind, or_iff_left]
  rintro ⟨a, rest, -, hover⟩
  exact h a rest (Nat.zero_le _) hover

theorem replicate_succ {d : Decoder α} {count : Nat} :
    Overruns (Decoder.replicate d (count + 1)) s ↔
      Overruns d s ∨
        ∃ a rest, d s = .value (a, rest) ∧ Overruns (Decoder.replicate d count) rest := by
  rw [Decoder.replicate, bind]
  refine or_congr_right (exists_congr fun a => exists_congr fun rest => and_congr_right fun _ => ?_)
  exact bind_inBounds fun _ => InBounds.pure _ 0

/-- A step that tests its own reads leaves it to the next one to go too far. -/
theorem checked_bind {d : Decoder α} {width : Nat} {next : α → Decoder β} {C : Prop}
    (hd : ReadsChecked d width) (h : ∀ a, Overruns (next a) (s.drop width) ↔ C) :
    Overruns (d >>= next) s ↔ width ≤ s.length ∧ C := by
  have hs := hd s
  unfold Overruns
  rw [Decoder.bind_apply]
  by_cases hlen : width ≤ s.length
  · rw [if_pos hlen] at hs
    obtain ⟨a, ha⟩ := hs
    rw [ha, and_iff_right hlen]
    exact h a
  · rw [if_neg hlen] at hs
    simp [hs, hlen]

end Overruns

/-- A loop of checked reads is one checked read of the whole. -/
theorem ReadsChecked.replicate {α : Type} {d : Decoder α} {width : Nat}
    (hd : ReadsChecked d width) : ∀ count, ReadsChecked (Decoder.replicate d count) (width * count)
  | 0 => by
    intro s
    rw [if_pos (by omega)]
    exact ⟨[], rfl⟩
  | count + 1 => by
    intro s
    have hs := hd s
    have hrest := ReadsChecked.replicate hd count (s.drop width)
    rw [List.length_drop] at hrest
    rw [Decoder.replicate, Decoder.bind_apply]
    rw [Nat.mul_succ]
    by_cases hlen : width ≤ s.length
    · rw [if_pos hlen] at hs
      obtain ⟨a, ha⟩ := hs
      rw [ha]
      dsimp only
      rw [Decoder.bind_apply]
      by_cases hall : width * count ≤ s.length - width
      · rw [if_pos hall, List.drop_drop] at hrest
        obtain ⟨items, hitems⟩ := hrest
        rw [if_pos (by omega), hitems, Nat.add_comm (width * count)]
        exact ⟨a :: items, rfl⟩
      · rw [if_neg hall] at hrest
        rw [if_neg (by omega), hrest]
    · rw [if_neg hlen] at hs
      rw [if_neg (by omega), hs]

end Cashew.Lib
