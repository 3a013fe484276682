import Cashew.Utils.Serialization

/-!
# The binary serializer

What is encoded is decoded again, to the last byte (`deserialize_serialize_value`): by
induction over the value, with the loops over its elements and entries beside it. The
fuel is measured against what is left of the input.

On arbitrary input the decoder stays inside it and throws its own errors unless a count it
comes to is too large: a length that makes the sum with the offset wrap, or more elements
than can be reserved. `Spans` is the grammar of what it reads, `Overlong` says where such a
count is met, and `deserialize_safe_iff` that nothing else goes wrong.
-/

namespace Cashew.Theorems.Serialization

open Cashew Cashew.Lib BinarySerializer

variable {capacity : Nat} {input : Bytes} {start : Nat}

/-! ## Fields -/

theorem reads_type (type : SerializableType) :
    Reads input start (decodeType input) (encodeType type) (.listed type) := by
  have hbyte : (Wire.ofByte (Enumeration.code type) : Wire SerializableType) = .listed type :=
    Wire.ofByte_toByte (.listed type)
  rw [← hbyte]
  exact .more (List.cons_ne_nil _ _) (.map (.byte _))

theorem reads_word {α : Type} (hsize : input.length < 2 ^ 63) (f : UInt64 → α) (x : UInt64) :
    Reads input start (decodeWord input f) (u64Bytes x) (f x) := by
  have hx : UInt64.ofNat (leNat (u64Bytes x)) = x := by
    have hlt : x.toNat < 256 ^ 8 := UInt64.toNat_lt x
    rw [u64Bytes, leNat_leBytes, Nat.mod_eq_of_lt hlt, UInt64.ofNat_toNat]
  have hslice : Reads input start (Reader.slice input 8 : Reader Error Bytes) (u64Bytes x)
      (u64Bytes x) := .slice (u64Bytes x)
  have hmap := hslice.map (f := fun field => f (UInt64.ofNat (leNat field)))
  rw [hx] at hmap
  exact .require (by omega) (by simp) hmap

theorem reads_uint (hsize : input.length < 2 ^ 63) (x : UInt64) :
    Reads input start (decodeUint input) (encodeUint x) x := reads_word hsize id x

/-- A count that a list in the input goes with. -/
theorem reads_count (hsize : input.length < 2 ^ 63) {β : Type} {n : Nat} {f : Nat → Reader Error β}
    {rest : Bytes} {b : β} (hn : n ≤ rest.length)
    (hf : Reads input (start + 8) (f n) rest b) :
    Reads input start (do let len ← decodeUint input; f len.toNat)
      (encodeUint (UInt64.ofNat n) ++ rest) b := by
  refine .of_length fun hlen => (reads_uint hsize _).bind ?_
  rw [List.length_append] at hlen
  have hlt : n < 2 ^ 64 := by omega
  rw [UInt64.toNat_ofNat_of_lt' hlt, encodeUint, u64Bytes_length]
  exact hf

theorem reads_binary (hsize : input.length < 2 ^ 63) (b : Bytes) :
    Reads input start (decodeBinary input) (encodeBinary b) b :=
  reads_count hsize (le_refl _)
    (f := fun n => Reader.require .unexpectedEnd input n >>= fun _ => Reader.slice input n)
    (.require (by omega) (le_refl _) (.slice b))

theorem reads_string (hsize : input.length < 2 ^ 63) (s : Text) :
    Reads input start (decodeString input) (encodeString s) s := (reads_binary hsize s.bytes).map

/-! ## The round trip -/

theorem serialize_length_pos (v : Value) : 0 < (serialize v).length := by
  cases v <;> simp [serialize, encodeType]

theorem length_le_encodeItems (items : List Value) : items.length ≤ (encodeItems items).length := by
  induction items with
  | nil => exact le_refl 0
  | cons item rest ih =>
    have hpos := serialize_length_pos item
    rw [encodeItems, List.length_append, List.length_cons]
    omega

theorem length_le_encodeEntries (entries : List (Text × Value)) :
    entries.length ≤ (encodeEntries entries).length := by
  induction entries with
  | nil => exact le_refl 0
  | cons entry rest ih =>
    have hpos := serialize_length_pos entry.2
    rw [encodeEntries, List.length_append, List.length_append, List.length_cons]
    omega

mutual

/-- Enough fuel for what is left of the input decodes a value. -/
theorem reads_value (hsize : input.length < 2 ^ 63) : ∀ (v : Value), v.Held capacity →
    ∀ fuel start, input.length < start + fuel →
      Reads input start (decodeValue capacity input fuel) (serialize v) v
  | v, hheld, 0, start, hfuel => by
    refine .of_length fun hlen => ?_
    omega
  | .null, _, fuel + 1, start, _ => (reads_type .null).bind (.pure _)
  | .bool b, _, fuel + 1, start, _ => by
    have hb : ((if b then 1 else 0 : UInt8) != 0) = b := by cases b <;> rfl
    have hbyte : Reads input (start + 1) (Reader.byte input : Reader Error UInt8)
        [if b then 1 else 0] _ := .byte _
    have hmap := hbyte.map (f := fun c => Value.bool (c != 0))
    rw [hb] at hmap
    exact (reads_type .bool).bind (.more (List.cons_ne_nil _ _) hmap)
  | .int x, _, fuel + 1, start, _ => by
    have hint : Reads input (start + 1) (decodeInt input) (encodeInt x) x.toUInt64.toInt64 :=
      reads_word hsize UInt64.toInt64 x.toUInt64
    rw [show x.toUInt64.toInt64 = x from rfl] at hint
    exact (reads_type .int).bind hint.map
  | .uint x, _, fuel + 1, start, _ => (reads_type .uint).bind (reads_uint hsize x).map
  | .float bits, _, fuel + 1, start, _ => (reads_type .float).bind (reads_uint hsize bits).map
  | .string s, _, fuel + 1, start, _ => (reads_type .string).bind (reads_string hsize s).map
  | .binary b, _, fuel + 1, start, _ => (reads_type .binary).bind (reads_binary hsize b).map
  | .array items, hheld, fuel + 1, start, hfuel => by
    obtain ⟨hcapacity, hitems⟩ := hheld
    -- the count is read, it fits, and the items follow with one fuel less
    have hloop := reads_items hsize items hitems fuel (start + 1 + 8) (by omega)
    have harray : Reads input (start + 1) (decodeArray capacity input
        (decodeValue capacity input fuel)) (encodeUint (UInt64.ofNat items.length) ++
          encodeItems items) items := by
      refine reads_count hsize (length_le_encodeItems items) (f := fun n =>
        if capacity < n then Reader.refuse else decodeItems (decodeValue capacity input fuel) n) ?_
      rw [if_neg (Nat.not_lt.mpr hcapacity)]
      exact hloop
    exact (reads_type .array).bind harray.map
  | .map entries, hheld, fuel + 1, start, hfuel => by
    obtain ⟨hsorted, hentries⟩ := hheld
    -- entries are inserted one by one: they come sorted, so the map is the list
    have hloop := reads_entries hsize entries [] hentries hsorted fuel (start + 1 + 8) (by omega)
    have hmap : Reads input (start + 1) (decodeMap input (decodeValue capacity input fuel))
        (encodeUint (UInt64.ofNat entries.length) ++ encodeEntries entries) entries :=
      reads_count hsize (length_le_encodeEntries entries)
        (f := fun n => decodeEntries input (decodeValue capacity input fuel) n []) hloop
    exact (reads_type .map).bind hmap.map

theorem reads_items (hsize : input.length < 2 ^ 63) : ∀ (items : List Value),
    HeldItems capacity items → ∀ fuel start, input.length < start + fuel →
      Reads input start (decodeItems (decodeValue capacity input fuel) items.length)
        (encodeItems items) items
  | [], _, fuel, start, _ => .pure []
  | item :: rest, hheld, fuel, start, hfuel => by
    have hitem := reads_value hsize item hheld.1 fuel start hfuel
    have hrest := reads_items hsize rest hheld.2 fuel (start + (serialize item).length) (by omega)
    exact hitem.bind hrest.map

theorem reads_entries (hsize : input.length < 2 ^ 63) : ∀ (entries done : List (Text × Value)),
    HeldEntries capacity entries → ((done ++ entries).Pairwise fun a b => a.1 < b.1) →
    ∀ fuel start, input.length < start + fuel →
      Reads input start (decodeEntries input (decodeValue capacity input fuel) entries.length done)
        (encodeEntries entries) (done ++ entries)
  | [], done, _, _, fuel, start, _ => by
    rw [List.append_nil]
    exact .pure done
  | (key, value) :: rest, done, hheld, hsorted, fuel, start, hfuel => by
    -- the keys come in ascending order, each goes to the end
    have hlast : OrdMap.insertList key value done = done ++ [(key, value)] :=
      OrdMap.insertList_of_forall_lt fun a ha =>
        (List.pairwise_append.mp hsorted).2.2 a ha _ List.mem_cons_self
    have hvalue := reads_value hsize value hheld.1 fuel (start + (encodeString key).length)
      (by omega)
    have hrest := reads_entries hsize rest (done ++ [(key, value)]) hheld.2
      (by simpa using hsorted) fuel
      (start + (encodeString key).length + (serialize value).length) (by omega)
    rw [List.append_assoc, List.singleton_append] at hrest
    refine (reads_string hsize key).bind (hvalue.bind ?_)
    rw [hlast]
    exact hrest

end

/-- **Round trip.** Decoding the encoding of a value gives the value back, and ends
behind the last byte. -/
theorem deserialize_serialize_value (v : Serializable capacity) :
    deserialize capacity (serialize v.value) =
      .returns v.value (serialize v.value).length := by
  have hreads := reads_value v.fits v.value v.held ((serialize v.value).length + 1) 0 (by omega)
  have hall := hreads [] [] (by simp) (le_refl 0)
  rw [List.length_nil, Nat.zero_add] at hall
  exact hall

/-- A map with an array in it, and in that another map. -/
def nested : Serializable 2 where
  value := .map [(Text.ofString "list", .array [.int (-1), .map [(Text.ofString "none", .null)]]),
    (Text.ofString "name", .string (Text.ofString "x"))]
  held := by
    refine ⟨by decide, ?_, trivial, trivial⟩
    exact ⟨by decide, trivial, ⟨by decide, trivial, trivial⟩, trivial⟩
  fits := by decide

/-- Its encoding is read back to the last byte. -/
theorem nested_round_trip :
    deserialize 2 (serialize nested.value) = .returns nested.value 83 :=
  deserialize_serialize_value nested

end Cashew.Theorems.Serialization

/-! ## Arbitrary input -/

namespace Cashew.Theorems.SerializationBounds

open Cashew Cashew.Lib BinarySerializer

variable {capacity : Nat} {input : Bytes} {start : Nat}

/-! ## The grammar -/

/-- The type that the byte at an offset stands for. -/
def typeAt (input : Bytes) (o : Nat) : Option (Wire SerializableType) := input[o]?.map Wire.ofByte

/-- The number in the eight bytes at an offset. -/
def countAt (input : Bytes) (o : Nat) : Option Nat :=
  if o + 8 ≤ input.length then some (UInt64.ofNat (leNat ((input.drop o).take 8))).toNat else none

/-- What can stand at an offset: a value, a count with its bytes, elements of an array
and entries of a map. -/
inductive Shape where
  | value
  | bytes
  | items (n : Nat)
  | entries (n : Nat)

/-- The input has this shape from one offset to another. -/
inductive Spans (capacity : Nat) (input : Bytes) : Shape → Nat → Nat → Prop
  | null {o} : typeAt input o = some (.listed .null) → Spans capacity input .value o (o + 1)
  | bool {o} : typeAt input o = some (.listed .bool) → o + 2 ≤ input.length →
      Spans capacity input .value o (o + 2)
  | word {o type} : typeAt input o = some (.listed type) → type ∈ [.int, .uint, .float] →
      o + 9 ≤ input.length → Spans capacity input .value o (o + 9)
  | text {o o' type} : typeAt input o = some (.listed type) → type ∈ [.string, .binary] →
      Spans capacity input .bytes (o + 1) o' → Spans capacity input .value o o'
  | array {o o' n} : typeAt input o = some (.listed .array) → countAt input (o + 1) = some n →
      n ≤ capacity → Spans capacity input (.items n) (o + 9) o' → Spans capacity input .value o o'
  | map {o o' n} : typeAt input o = some (.listed .map) → countAt input (o + 1) = some n →
      Spans capacity input (.entries n) (o + 9) o' → Spans capacity input .value o o'
  | bytes {o n} : countAt input o = some n → o + 8 + n ≤ input.length →
      Spans capacity input .bytes o (o + 8 + n)
  | noItems {o} : Spans capacity input (.items 0) o o
  | items {o o' o'' n} : Spans capacity input .value o o' → Spans capacity input (.items n) o' o'' →
      Spans capacity input (.items (n + 1)) o o''
  | noEntries {o} : Spans capacity input (.entries 0) o o
  | entries {o k o' o'' n} : Spans capacity input .bytes o k → Spans capacity input .value k o' →
      Spans capacity input (.entries n) o' o'' → Spans capacity input (.entries (n + 1)) o o''

/-- Reading this shape at the offset comes to a length that wraps with its offset, or to
more elements than can be reserved. -/
inductive Overlong (capacity : Nat) (input : Bytes) : Shape → Nat → Prop
  | bytes {o n} : countAt input o = some n → 2 ^ 64 ≤ o + 8 + n → Overlong capacity input .bytes o
  | text {o type} : typeAt input o = some (.listed type) → type ∈ [.string, .binary] →
      Overlong capacity input .bytes (o + 1) → Overlong capacity input .value o
  | array {o n} : typeAt input o = some (.listed .array) → countAt input (o + 1) = some n →
      capacity < n → Overlong capacity input .value o
  | element {o n} : typeAt input o = some (.listed .array) → countAt input (o + 1) = some n →
      n ≤ capacity → Overlong capacity input (.items n) (o + 9) → Overlong capacity input .value o
  | map {o n} : typeAt input o = some (.listed .map) → countAt input (o + 1) = some n →
      Overlong capacity input (.entries n) (o + 9) → Overlong capacity input .value o
  | item {o n} : Overlong capacity input .value o → Overlong capacity input (.items (n + 1)) o
  | items {o o' n} : Spans capacity input .value o o' → Overlong capacity input (.items n) o' →
      Overlong capacity input (.items (n + 1)) o
  | key {o n} : Overlong capacity input .bytes o → Overlong capacity input (.entries (n + 1)) o
  | entry {o k n} : Spans capacity input .bytes o k → Overlong capacity input .value k →
      Overlong capacity input (.entries (n + 1)) o
  | entries {o k o' n} : Spans capacity input .bytes o k → Spans capacity input .value k o' →
      Overlong capacity input (.entries n) o' → Overlong capacity input (.entries (n + 1)) o

/-- The decoder returned a value or threw an error of its own. -/
def Safe (r : ReadOutcome Error Value) : Prop :=
  (∃ v o, r = .returns v o) ∨ ∃ e, r = .throws e

/-- Nothing ends before it begins. -/
theorem Spans.le {shape : Shape} {o o' : Nat} (h : Spans capacity input shape o o') : o ≤ o' := by
  induction h <;> omega

theorem lt_of_typeAt {type : Wire SerializableType} {o : Nat} (h : typeAt input o = some type) :
    o < input.length := by
  unfold typeAt at h
  cases hat : input[o]? with
  | none => simp [hat] at h
  | some b => exact (List.getElem?_eq_some_iff.mp hat).1

theorem countAt_lt {o n : Nat} (h : countAt input o = some n) :
    n < 2 ^ 64 ∧ o + 8 ≤ input.length := by
  unfold countAt at h
  split at h
  · rename_i hlen
    cases h
    exact ⟨UInt64.toNat_lt _, hlen⟩
  · cases h

/-- Nothing ends behind the input. -/
theorem Spans.le_length {shape : Shape} {o o' : Nat} (h : Spans capacity input shape o o')
    (ho : o ≤ input.length) : o' ≤ input.length := by
  induction h with
  | null htype => exact lt_of_typeAt htype
  | bool _ hlen => exact hlen
  | word _ _ hlen => exact hlen
  | text htype _ _ ih => exact ih (lt_of_typeAt htype)
  | array _ hcount _ _ ih => exact ih (countAt_lt hcount).2
  | map _ hcount _ ih => exact ih (countAt_lt hcount).2
  | bytes _ hlen => exact hlen
  | noItems => exact ho
  | items _ _ ih ih' => exact ih' (ih ho)
  | noEntries => exact ho
  | entries _ _ _ ih ih' ih'' => exact ih'' (ih' (ih ho))

/-! ## Fields -/

theorem decodeType_apply (o : Nat) :
    decodeType input o =
      match typeAt input o with
      | some type => .returns type (o + 1)
      | none => .throws .unexpectedEnd := by
  unfold decodeType typeAt
  rw [Reader.bind_apply, Reader.more]
  cases hat : input[o]? with
  | none =>
    rw [if_pos (List.getElem?_eq_none_iff.mp hat)]
    rfl
  | some b =>
    have hlt := (List.getElem?_eq_some_iff.mp hat).1
    rw [if_neg (by omega)]
    dsimp only
    rw [Reader.bind_apply, Reader.byte, hat]
    rfl

/-- A number is read where there are eight bytes, and the offset never wraps. -/
theorem decodeWord_apply {α : Type} (hsize : input.length < 2 ^ 63) (f : UInt64 → α) {o : Nat}
    (ho : o ≤ input.length) :
    decodeWord input f o =
      match countAt input o with
      | some n => .returns (f (UInt64.ofNat n)) (o + 8)
      | none => .throws .unexpectedEnd := by
  unfold decodeWord countAt
  rw [Reader.bind_apply, Reader.require, Nat.mod_eq_of_lt (by omega)]
  by_cases hlen : o + 8 ≤ input.length
  · rw [if_neg (by omega), if_pos hlen]
    dsimp only
    rw [Reader.bind_apply, Reader.slice, if_pos hlen, UInt64.ofNat_toNat]
    rfl
  · rw [if_pos (by omega), if_neg hlen]

/-- A count and what it is for. -/
theorem follows_counted {α : Type} (hsize : input.length < 2 ^ 63) {f : Nat → Reader Error α}
    {o : Nat} (ho : o ≤ input.length) {K : Nat → Nat → Prop} {C : Nat → Prop}
    (hf : ∀ n, countAt input o = some n → (f n (o + 8)).Follows (K n) (C n)) :
    ((do let len ← decodeUint input; f len.toNat : Reader Error α) o).Follows
      (fun o' => ∃ n, countAt input o = some n ∧ K n o') (∃ n, countAt input o = some n ∧ C n) := by
  unfold decodeUint
  rw [Reader.bind_apply, decodeWord_apply hsize id ho]
  cases hcount : countAt input o with
  | none => exact .throws (by simp) (by simp)
  | some n =>
    dsimp only
    rw [id, UInt64.toNat_ofNat_of_lt' (countAt_lt hcount).1]
    exact (hf n hcount).congr (fun o' => by simp) (by simp)

theorem spans_bytes_iff {o o' : Nat} :
    Spans capacity input .bytes o o' ↔
      ∃ n, countAt input o = some n ∧ o + 8 + n ≤ input.length ∧ o + 8 + n = o' := by
  constructor
  · intro h
    cases h with
    | bytes hcount hend => exact ⟨_, hcount, hend, rfl⟩
  · rintro ⟨n, hcount, hend, rfl⟩
    exact .bytes hcount hend

theorem overlong_bytes_iff {o : Nat} :
    Overlong capacity input .bytes o ↔ ∃ n, countAt input o = some n ∧ 2 ^ 64 ≤ o + 8 + n := by
  constructor
  · intro h
    cases h with
    | bytes hcount hwraps => exact ⟨_, hcount, hwraps⟩
  · rintro ⟨n, hcount, hwraps⟩
    exact .bytes hcount hwraps

/-- A length in front of its bytes. -/
theorem follows_binary (hsize : input.length < 2 ^ 63) {o : Nat} (ho : o ≤ input.length) :
    (decodeBinary input o).Follows (Spans capacity input .bytes o)
      (Overlong capacity input .bytes o) := by
  have hcounted := follows_counted hsize ho
    (f := fun n => Reader.require .unexpectedEnd input n >>= fun _ => Reader.slice input n)
    fun n hcount => .slice hsize (countAt_lt hcount).2 (countAt_lt hcount).1
  exact hcounted.congr (fun _ => spans_bytes_iff) overlong_bytes_iff

/-! ## Loops -/

section Loops

variable {decode : Reader Error Value}

/-- From `start` on, the reader follows the grammar of values. -/
def FollowsValues (capacity : Nat) (input : Bytes) (start : Nat) (decode : Reader Error Value) :
    Prop :=
  ∀ o, start ≤ o → o ≤ input.length →
    (decode o).Follows (Spans capacity input .value o) (Overlong capacity input .value o)

theorem spans_items_iff {n o o'' : Nat} :
    Spans capacity input (.items (n + 1)) o o'' ↔
      ∃ o', Spans capacity input .value o o' ∧ Spans capacity input (.items n) o' o'' := by
  constructor
  · intro h
    cases h with
    | items hvalue hrest => exact ⟨_, hvalue, hrest⟩
  · rintro ⟨o', hvalue, hrest⟩
    exact .items hvalue hrest

theorem overlong_items_iff {n o : Nat} :
    Overlong capacity input (.items (n + 1)) o ↔ Overlong capacity input .value o ∨
      ∃ o', Spans capacity input .value o o' ∧ Overlong capacity input (.items n) o' := by
  constructor
  · intro h
    cases h with
    | item hvalue => exact .inl hvalue
    | items hvalue hrest => exact .inr ⟨_, hvalue, hrest⟩
  · rintro (hvalue | ⟨o', hvalue, hrest⟩)
    · exact .item hvalue
    · exact .items hvalue hrest

theorem follows_items (hdecode : FollowsValues capacity input start decode) (n : Nat) {o : Nat}
    (hstart : start ≤ o) (ho : o ≤ input.length) :
    (decodeItems decode n o).Follows (Spans capacity input (.items n) o)
      (Overlong capacity input (.items n) o) := by
  induction n generalizing o with
  | zero =>
    refine .returns (fun o' => ?_) fun h => by cases h
    constructor
    · intro h
      cases h
      rfl
    · rintro rfl
      exact .noItems
  | succ n ih =>
    have hbind := (hdecode o hstart ho).bind
      (f := fun item => do let rest ← decodeItems decode n; pure (item :: rest))
      fun item o' hspans => (ih (hstart.trans hspans.le) (hspans.le_length ho)).map
    exact hbind.congr (fun _ => spans_items_iff) overlong_items_iff

theorem spans_entries_iff {n o o'' : Nat} :
    Spans capacity input (.entries (n + 1)) o o'' ↔
      ∃ k, Spans capacity input .bytes o k ∧
        ∃ o', Spans capacity input .value k o' ∧ Spans capacity input (.entries n) o' o'' := by
  constructor
  · intro h
    cases h with
    | entries hkey hvalue hrest => exact ⟨_, hkey, _, hvalue, hrest⟩
  · rintro ⟨k, hkey, o', hvalue, hrest⟩
    exact .entries hkey hvalue hrest

theorem overlong_entries_iff {n o : Nat} :
    Overlong capacity input (.entries (n + 1)) o ↔ Overlong capacity input .bytes o ∨
      ∃ k, Spans capacity input .bytes o k ∧ (Overlong capacity input .value k ∨
        ∃ o', Spans capacity input .value k o' ∧ Overlong capacity input (.entries n) o') := by
  constructor
  · intro h
    cases h with
    | key hkey => exact .inl hkey
    | entry hkey hvalue => exact .inr ⟨_, hkey, .inl hvalue⟩
    | entries hkey hvalue hrest => exact .inr ⟨_, hkey, .inr ⟨_, hvalue, hrest⟩⟩
  · rintro (hkey | ⟨k, hkey, hvalue | ⟨o', hvalue, hrest⟩⟩)
    · exact .key hkey
    · exact .entry hkey hvalue
    · exact .entries hkey hvalue hrest

theorem follows_entries (hsize : input.length < 2 ^ 63)
    (hdecode : FollowsValues capacity input start decode) (n : Nat)
    (done : List (Text × Value)) {o : Nat} (hstart : start ≤ o) (ho : o ≤ input.length) :
    (decodeEntries input decode n done o).Follows (Spans capacity input (.entries n) o)
      (Overlong capacity input (.entries n) o) := by
  induction n generalizing o done with
  | zero =>
    refine .returns (fun o' => ?_) fun h => by cases h
    constructor
    · intro h
      cases h
      rfl
    · rintro rfl
      exact .noEntries
  | succ n ih =>
    have hkey : (decodeString input o).Follows (Spans capacity input .bytes o)
        (Overlong capacity input .bytes o) := (follows_binary hsize ho).map
    have hbind := hkey.bind
      (f := fun key => do
        let value ← decode
        decodeEntries input decode n (OrdMap.insertList key value done))
      fun key k hspans =>
        (hdecode k (hstart.trans hspans.le) (hspans.le_length ho)).bind
          fun value o' hspans' =>
            ih (OrdMap.insertList key value done) (hstart.trans (hspans.le.trans hspans'.le))
              (hspans'.le_length (hspans.le_length ho))
    exact hbind.congr (fun _ => spans_entries_iff) overlong_entries_iff

end Loops

/-! ## Values -/

/-- What has to follow a tag. -/
def Follow (capacity : Nat) (input : Bytes) (type : SerializableType) (o o' : Nat) : Prop :=
  match type with
  | .null => o + 1 = o'
  | .bool => o + 2 ≤ input.length ∧ o + 2 = o'
  | .int | .uint | .float => o + 9 ≤ input.length ∧ o + 9 = o'
  | .string | .binary => Spans capacity input .bytes (o + 1) o'
  | .array => ∃ n, countAt input (o + 1) = some n ∧ n ≤ capacity ∧
      Spans capacity input (.items n) (o + 9) o'
  | .map => ∃ n, countAt input (o + 1) = some n ∧ Spans capacity input (.entries n) (o + 9) o'

theorem type_unique {type type' : SerializableType} {o : Nat}
    (h : typeAt input o = some (.listed type)) (h' : typeAt input o = some (.listed type')) :
    type = type' := by
  cases h.symm.trans h'
  rfl

theorem spans_value_iff {type : SerializableType} {o o' : Nat}
    (h : typeAt input o = some (.listed type)) :
    Spans capacity input .value o o' ↔ Follow capacity input type o o' := by
  constructor
  · intro hspans
    cases hspans with
    | null h' =>
      cases type_unique h h'
      rfl
    | bool h' hlen =>
      cases type_unique h h'
      exact ⟨hlen, rfl⟩
    | word h' hmem hlen =>
      cases type_unique h h'
      rcases List.mem_cons.mp hmem with rfl | hmem
      · exact ⟨hlen, rfl⟩
      · rcases List.mem_pair.mp hmem with rfl | rfl <;> exact ⟨hlen, rfl⟩
    | text h' hmem hbytes =>
      cases type_unique h h'
      rcases List.mem_pair.mp hmem with rfl | rfl <;> exact hbytes
    | array h' hcount hcapacity hitems =>
      cases type_unique h h'
      exact ⟨_, hcount, hcapacity, hitems⟩
    | map h' hcount hentries =>
      cases type_unique h h'
      exact ⟨_, hcount, hentries⟩
  · intro hfollow
    cases type with
    | null => exact hfollow ▸ .null h
    | bool => exact hfollow.2 ▸ .bool h hfollow.1
    | int => exact hfollow.2 ▸ .word h (by simp) hfollow.1
    | uint => exact hfollow.2 ▸ .word h (by simp) hfollow.1
    | float => exact hfollow.2 ▸ .word h (by simp) hfollow.1
    | string => exact .text h (by simp) hfollow
    | binary => exact .text h (by simp) hfollow
    | array =>
      obtain ⟨n, hcount, hcapacity, hitems⟩ := hfollow
      exact .array h hcount hcapacity hitems
    | map =>
      obtain ⟨n, hcount, hentries⟩ := hfollow
      exact .map h hcount hentries

/-- What goes wrong behind a tag. -/
def Excess (capacity : Nat) (input : Bytes) (type : SerializableType) (o : Nat) : Prop :=
  match type with
  | .string | .binary => Overlong capacity input .bytes (o + 1)
  | .array => ∃ n, countAt input (o + 1) = some n ∧
      (capacity < n ∨ n ≤ capacity ∧ Overlong capacity input (.items n) (o + 9))
  | .map => ∃ n, countAt input (o + 1) = some n ∧ Overlong capacity input (.entries n) (o + 9)
  | _ => False

theorem overlong_value_iff {type : SerializableType} {o : Nat}
    (h : typeAt input o = some (.listed type)) :
    Overlong capacity input .value o ↔ Excess capacity input type o := by
  constructor
  · intro hoverlong
    cases hoverlong with
    | text h' hmem hbytes =>
      cases type_unique h h'
      rcases List.mem_pair.mp hmem with rfl | rfl <;> exact hbytes
    | array h' hcount hcapacity =>
      cases type_unique h h'
      exact ⟨_, hcount, .inl hcapacity⟩
    | element h' hcount hcapacity hitems =>
      cases type_unique h h'
      exact ⟨_, hcount, .inr ⟨hcapacity, hitems⟩⟩
    | map h' hcount hentries =>
      cases type_unique h h'
      exact ⟨_, hcount, hentries⟩
  · intro hexcess
    cases type with
    | null | bool | int | uint | float => exact hexcess.elim
    | string => exact .text h (by simp) hexcess
    | binary => exact .text h (by simp) hexcess
    | array =>
      obtain ⟨n, hcount, hcapacity | ⟨hcapacity, hitems⟩⟩ := hexcess
      · exact .array h hcount hcapacity
      · exact .element h hcount hcapacity hitems
    | map =>
      obtain ⟨n, hcount, hentries⟩ := hexcess
      exact .map h hcount hentries

/-- Eight bytes behind a tag. -/
theorem follows_word {α : Type} (hsize : input.length < 2 ^ 63) (f : UInt64 → α) {o : Nat}
    (ho : o < input.length) :
    (decodeWord input f (o + 1)).Follows (fun o' => o + 9 ≤ input.length ∧ o + 9 = o') False := by
  rw [decodeWord_apply hsize f ho]
  unfold countAt
  by_cases hlen : o + 1 + 8 ≤ input.length
  · rw [if_pos hlen]
    exact .returns (fun o' => and_iff_right hlen) not_false
  · rw [if_neg hlen]
    exact .throws (fun o' h => hlen h.1) not_false

/-- The byte of a boolean. -/
theorem follows_bool {o : Nat} :
    ((do
        Reader.more .unexpectedEnd input
        let b ← Reader.byte input
        pure (.bool (b != 0)) : Reader Error Value) (o + 1)).Follows
      (fun o' => o + 2 ≤ input.length ∧ o + 2 = o') False := by
  rw [Reader.bind_apply, Reader.more]
  by_cases hlen : o + 2 ≤ input.length
  · rw [if_neg (by omega)]
    dsimp only
    have hat : input[o + 1]? = some (input.get ⟨o + 1, by omega⟩) :=
      List.getElem?_eq_getElem (by omega)
    rw [Reader.bind_apply, Reader.byte, hat]
    exact .returns (fun o' => and_iff_right hlen) not_false
  · rw [if_pos (by omega)]
    exact .throws (fun o' h => hlen h.1) not_false

/-- The count of an array behind its tag, and the elements. -/
theorem follows_array {decode : Reader Error Value} (hsize : input.length < 2 ^ 63) {o : Nat}
    (hdecode : FollowsValues capacity input (o + 1) decode) (ho : o < input.length) :
    (decodeArray capacity input decode (o + 1)).Follows (Follow capacity input .array o)
      (Excess capacity input .array o) := by
  refine follows_counted hsize ho
    (f := fun n => if capacity < n then Reader.refuse else decodeItems decode n) fun n hcount => ?_
  by_cases hcapacity : capacity < n
  · rw [if_pos hcapacity]
    exact .escaping (.inr rfl) (fun _ h => absurd h.1 (by omega)) (.inl hcapacity)
  · rw [if_neg hcapacity]
    refine (follows_items hdecode n (by omega) (countAt_lt hcount).2).congr
      (fun _ => and_iff_right (by omega)) ?_
    simp [hcapacity, Nat.le_of_not_lt hcapacity]

/-- The count of a map behind its tag, and the entries. -/
theorem follows_map {decode : Reader Error Value} (hsize : input.length < 2 ^ 63) {o : Nat}
    (hdecode : FollowsValues capacity input (o + 1) decode) (ho : o < input.length) :
    (decodeMap input decode (o + 1)).Follows (Follow capacity input .map o)
      (Excess capacity input .map o) :=
  follows_counted hsize ho (f := fun n => decodeEntries input decode n []) fun n hcount =>
    follows_entries hsize hdecode n [] (by omega) (countAt_lt hcount).2

/-- With fuel for what is left of the input, `decode_value` follows the grammar. -/
theorem follows_value (hsize : input.length < 2 ^ 63) (fuel : Nat) {o : Nat}
    (ho : o ≤ input.length) (hfuel : input.length < o + fuel) :
    (decodeValue capacity input fuel o).Follows (Spans capacity input .value o)
      (Overlong capacity input .value o) := by
  induction fuel generalizing o with
  | zero => omega
  | succ fuel ih =>
    -- one level down the fuel is still enough: the tag has been read
    have hdecode : FollowsValues capacity input (o + 1) (decodeValue capacity input fuel) :=
      fun j hj hlen => ih hlen (by omega)
    rw [decodeValue, Reader.bind_apply, decodeType_apply]
    cases htype : typeAt input o with
    | none =>
      refine .throws (fun o' h => ?_) fun h => ?_
      · cases h <;> simp_all
      · cases h <;> simp_all
    | some type =>
      have hlt := lt_of_typeAt htype
      cases type with
      | unlisted code hcode =>
        refine .throws (fun o' h => ?_) fun h => ?_
        · cases h <;> simp_all
        · cases h <;> simp_all
      | listed type =>
        have hcongr : ∀ {r : ReadOutcome Error Value},
            r.Follows (Follow capacity input type o) (Excess capacity input type o) →
              r.Follows (Spans capacity input .value o) (Overlong capacity input .value o) :=
          fun h => h.congr (fun _ => spans_value_iff htype) (overlong_value_iff htype)
        refine hcongr ?_
        cases type with
        | null => exact .returns (fun _ => Iff.rfl) not_false
        | bool => exact follows_bool
        | int => exact (follows_word hsize _ hlt).map
        | uint => exact (follows_word hsize _ hlt).map
        | float => exact (follows_word hsize _ hlt).map
        | string => exact (follows_binary hsize hlt).map.map
        | binary => exact (follows_binary hsize hlt).map
        | array => exact (follows_array hsize hdecode hlt).map
        | map => exact (follows_map hsize hdecode hlt).map

/-! ## The main result -/

theorem safe_iff {r : ReadOutcome Error Value} (hfueled : r ≠ .outOfFuel) :
    Safe r ↔ ¬ r.Escapes := by
  unfold Safe ReadOutcome.Escapes
  cases r with
  | returns v o => simp
  | throws e => simp
  | outside => simp
  | refused => simp
  | outOfFuel => exact absurd rfl hfueled

/-- **Inputs from elsewhere.** On every input the decoder returns a value or throws its
own error, without a read outside the input, exactly when it comes to no length that
wraps and to no count beyond what can be reserved. -/
theorem deserialize_safe_iff (capacity : Nat) (input : Buffer) :
    Safe (deserialize capacity input.bytes) ↔ ¬ Overlong capacity input.bytes .value 0 := by
  have hfollows : (deserialize capacity input.bytes).Follows _ _ :=
    follows_value input.fits (input.bytes.length + 1) (Nat.zero_le _) (by omega)
  rw [safe_iff hfollows.fueled, hfollows.escapes]

/-- A string with a length of eight bytes short of wrapping to its own offset. -/
def wrappingString : Buffer := ⟨5 :: u64Bytes (UInt64.ofNat (2 ^ 64 - 9)), by decide⟩

/-- The sum with the offset wraps to zero, and the read is outside the input. -/
theorem wrapping_length_escapes :
    deserialize 1000 wrappingString.bytes = .outside ∧
      ¬ Safe (deserialize 1000 wrappingString.bytes) := by
  have hread : deserialize 1000 wrappingString.bytes = .outside := by rfl
  refine ⟨hread, ?_⟩
  rw [hread]
  rintro (⟨_, _, h⟩ | ⟨_, h⟩) <;> cases h

end Cashew.Theorems.SerializationBounds
