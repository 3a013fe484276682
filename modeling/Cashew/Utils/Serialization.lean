import Cashew.Common
import Cashew.Lib.Reader
import Cashew.Lib.Wire

/-!
# The binary serializer

`BinarySerializer` of `utils/serialization.cpp`: a tagged tree of values as bytes. A
value is a tag byte and what belongs to it; strings, blobs, arrays and maps begin with
a count of eight bytes.

`decode_value` walks an offset over its input and recurses into arrays and maps. The
model is given fuel for the recursion, and `deserialize` enough of it for any input.
`reserve(len)` gets memory for `capacity` elements at most: how many that is depends on
the machine, and never exceeds what a `std::vector` may hold. The depth of the stack is
not modelled. `&input[offset]` of an empty string at the end of the input is an address
behind its last byte, and nothing is read there.
-/

namespace Cashew

open Cashew.Lib

/-! ## Values -/

/-- `SerializableType`. -/
inductive SerializableType where
  | null
  | bool
  | int
  | uint
  | float
  | string
  | binary
  | array
  | map
  deriving DecidableEq

instance : Enumeration SerializableType where
  all := [.null, .bool, .int, .uint, .float, .string, .binary, .array, .map]
  code
    | .null => 0
    | .bool => 1
    | .int => 2
    | .uint => 3
    | .float => 4
    | .string => 5
    | .binary => 6
    | .array => 7
    | .map => 8
  complete e := by cases e <;> decide
  codes_nodup := by decide

/-- `SerializableValue`. A double is its bit pattern, a map the list of its entries. -/
inductive Value where
  | null
  | bool (b : Bool)
  | int (x : Int64)
  | uint (x : UInt64)
  | float (bits : UInt64)
  | string (s : Text)
  | binary (b : Bytes)
  | array (items : List Value)
  | map (entries : List (Text × Value))

/-- `Serializable::type`. -/
def Value.type : Value → SerializableType
  | null => .null
  | bool _ => .bool
  | int _ => .int
  | uint _ => .uint
  | float _ => .float
  | string _ => .string
  | binary _ => .binary
  | array _ => .array
  | map _ => .map

mutual

/-- The value can be held: no array is longer than one may be, and the entries of a map
are in the order of their keys. -/
def Value.Held (capacity : Nat) : Value → Prop
  | .array items => items.length ≤ capacity ∧ HeldItems capacity items
  | .map entries => (entries.Pairwise fun a b => a.1 < b.1) ∧ HeldEntries capacity entries
  | _ => True

def HeldItems (capacity : Nat) : List Value → Prop
  | [] => True
  | item :: rest => item.Held capacity ∧ HeldItems capacity rest

def HeldEntries (capacity : Nat) : List (Text × Value) → Prop
  | [] => True
  | (_, value) :: rest => value.Held capacity ∧ HeldEntries capacity rest

end

/-- A `std::vector<uint8_t>` is never longer than this. -/
structure Buffer where
  bytes : Bytes
  fits : bytes.length < 2 ^ 63

namespace BinarySerializer

/-! ## Encoding -/

/-- `encode_type`. -/
def encodeType (type : SerializableType) : Bytes := [Enumeration.code type]

/-- `encode_uint`. -/
def encodeUint (x : UInt64) : Bytes := u64Bytes x

/-- `encode_int`: the bytes of the two's complement. -/
def encodeInt (x : Int64) : Bytes := u64Bytes x.toUInt64

/-- `encode_float`. -/
def encodeFloat (bits : UInt64) : Bytes := encodeUint bits

/-- `encode_binary`. -/
def encodeBinary (b : Bytes) : Bytes := encodeUint (UInt64.ofNat b.length) ++ b

/-- `encode_string`, byte for byte the same. -/
def encodeString (s : Text) : Bytes := encodeBinary s.bytes

mutual

/-- `BinarySerializer::serialize`. -/
def serialize : Value → Bytes
  | .null => encodeType .null
  | .bool b => encodeType .bool ++ [if b then 1 else 0]
  | .int x => encodeType .int ++ encodeInt x
  | .uint x => encodeType .uint ++ encodeUint x
  | .float bits => encodeType .float ++ encodeFloat bits
  | .string s => encodeType .string ++ encodeString s
  | .binary b => encodeType .binary ++ encodeBinary b
  | .array items =>
    encodeType .array ++ (encodeUint (UInt64.ofNat items.length) ++ encodeItems items)
  | .map entries =>
    encodeType .map ++ (encodeUint (UInt64.ofNat entries.length) ++ encodeEntries entries)

/-- The loop of `encode_array`. -/
def encodeItems : List Value → Bytes
  | [] => []
  | item :: rest => serialize item ++ encodeItems rest

/-- The loop of `encode_map`. -/
def encodeEntries : List (Text × Value) → Bytes
  | [] => []
  | (key, value) :: rest => encodeString key ++ (serialize value ++ encodeEntries rest)

end

/-! ## Decoding -/

/-- The errors the decoder throws: `"Unexpected end of data"` and
`"Unknown serializable type"`. -/
inductive Error where
  | unexpectedEnd
  | unknownType
  deriving DecidableEq

/-- `Error` as the text of the `std::runtime_error`. -/
def Error.what : Error → Text
  | unexpectedEnd => Text.ofString "Unexpected end of data"
  | unknownType => Text.ofString "Unknown serializable type"

section Decode

variable (capacity : Nat) (input : Bytes)

/-- `decode_type`. -/
def decodeType : Reader Error (Wire SerializableType) := do
  Reader.more .unexpectedEnd input
  let b ← Reader.byte input
  pure (Wire.ofByte b)

/-- Eight bytes, least significant first. -/
def decodeWord {α : Type} (f : UInt64 → α) : Reader Error α := do
  Reader.require .unexpectedEnd input 8
  let field ← Reader.slice input 8
  pure (f (UInt64.ofNat (leNat field)))

/-- `decode_uint`. -/
def decodeUint : Reader Error UInt64 := decodeWord input id

/-- `decode_int`. -/
def decodeInt : Reader Error Int64 := decodeWord input UInt64.toInt64

/-- `decode_float`. -/
def decodeFloat : Reader Error UInt64 := decodeUint input

/-- `decode_binary`. -/
def decodeBinary : Reader Error Bytes := do
  let len ← decodeUint input
  Reader.require .unexpectedEnd input len.toNat
  Reader.slice input len.toNat

/-- `decode_string`. -/
def decodeString : Reader Error Text := do
  let b ← decodeBinary input
  pure ⟨b⟩

/-- The loop of `decode_array`, given `decode_value`. -/
def decodeItems (decode : Reader Error Value) : Nat → Reader Error (List Value)
  | 0 => pure []
  | n + 1 => do
    let item ← decode
    let rest ← decodeItems decode n
    pure (item :: rest)

/-- `decode_array`: the elements are reserved before the first is read. -/
def decodeArray (decode : Reader Error Value) : Reader Error (List Value) := do
  let len ← decodeUint input
  if capacity < len.toNat then Reader.refuse else decodeItems decode len.toNat

/-- The loop of `decode_map`: `value[key] = …` on the entries so far. -/
def decodeEntries (decode : Reader Error Value) :
    Nat → List (Text × Value) → Reader Error (List (Text × Value))
  | 0, entries => pure entries
  | n + 1, entries => do
    let key ← decodeString input
    let value ← decode
    decodeEntries decode n (OrdMap.insertList key value entries)

/-- `decode_map`. -/
def decodeMap (decode : Reader Error Value) : Reader Error (List (Text × Value)) := do
  let len ← decodeUint input
  decodeEntries input decode len.toNat []

/-- `decode_value`. -/
def decodeValue : Nat → Reader Error Value
  | 0 => Reader.cutOff
  | fuel + 1 => do
    let type ← decodeType input
    match type with
    | .listed .null => pure .null
    | .listed .bool => do
      Reader.more .unexpectedEnd input
      let b ← Reader.byte input
      pure (.bool (b != 0))
    | .listed .int => do
      let x ← decodeInt input
      pure (.int x)
    | .listed .uint => do
      let x ← decodeUint input
      pure (.uint x)
    | .listed .float => do
      let bits ← decodeFloat input
      pure (.float bits)
    | .listed .string => do
      let s ← decodeString input
      pure (.string s)
    | .listed .binary => do
      let b ← decodeBinary input
      pure (.binary b)
    | .listed .array => do
      let items ← decodeArray capacity input (decodeValue fuel)
      pure (.array items)
    | .listed .map => do
      let entries ← decodeMap input (decodeValue fuel)
      pure (.map entries)
    | .unlisted _ _ => Reader.throw .unknownType

/-- `BinarySerializer::deserialize`: a value needs fewer levels than it has bytes. -/
def deserialize : ReadOutcome Error Value := decodeValue capacity input (input.length + 1) 0

end Decode

end BinarySerializer

/-- `Serializable`: a value that is held in memory, with an encoding that is. -/
structure Serializable (capacity : Nat) where
  value : Value
  held : value.Held capacity
  fits : (BinarySerializer.serialize value).length < 2 ^ 63

end Cashew
