import Cashew.Network.NetworkCodec
import Cashew.Storage.Storage

/-!
# Things

`ThingMetadata` and `Thing` of `core/thing/thing.cpp`. A Thing is content with its
metadata; `create` is the only way to one, and checks one against the other. It is
stored in two files, both named after the content hash: the content, and the metadata in
the layout of `ThingMetadata::serialize`.

`reserve` for the tags is taken to succeed.
-/

namespace Cashew

open Cashew.Lib

/-- `ThingType`. -/
inductive ThingType where
  | unknown
  | game
  | dictionary
  | dataset
  | app
  | document
  | media
  | library
  | forum
  deriving DecidableEq

instance : Enumeration ThingType where
  all := [.unknown, .game, .dictionary, .dataset, .app, .document, .media, .library, .forum]
  code
    | .unknown => 0
    | .game => 1
    | .dictionary => 2
    | .dataset => 3
    | .app => 4
    | .document => 5
    | .media => 6
    | .library => 7
    | .forum => 8
  complete e := by cases e <;> decide
  codes_nodup := by decide

/-! ## Metadata -/

/-- `ThingMetadata`. -/
structure ThingMetadata where
  contentHash : ContentHash
  name : Text
  description : Text
  type : Wire ThingType
  sizeBytes : UInt64
  createdTimestamp : UInt64
  creatorId : NodeID
  tags : List Text
  version : UInt32
  creatorSignature : Signature
  mimeType : Text
  entryPoint : Text
  deriving DecidableEq

namespace ThingMetadata

/-- `write_string`. -/
def writeString (s : Text) : Bytes := leBytes 4 s.bytes.length ++ s.bytes

/-- `ThingMetadata::serialize`. -/
def serialize (m : ThingMetadata) : Bytes :=
  m.contentHash.hash.bytes ++ (writeString m.name ++ (writeString m.description ++
    ([m.type.toByte] ++ (u64Bytes m.sizeBytes ++ (u64Bytes m.createdTimestamp ++
      (m.creatorId.id.bytes ++ (leBytes 4 m.tags.length ++ (m.tags.flatMap writeString ++
        (u32Bytes m.version ++ (m.creatorSignature.bytes ++
          (writeString m.mimeType ++ writeString m.entryPoint)))))))))))

/-- `read_string`. -/
def readString : Decoder Text := do
  let len ← Checked.u32
  Decoder.require len.toNat
  let bytes ← Decoder.take len.toNat
  pure ⟨bytes⟩

/-- The reads of `ThingMetadata::deserialize`. -/
def decoder : Decoder ThingMetadata := do
  let contentHash ← Checked.fixed 32
  let name ← readString
  let description ← readString
  let type ← Checked.byte
  let sizeBytes ← Checked.u64
  let createdTimestamp ← Checked.u64
  let creatorId ← Checked.fixed 32
  let tagCount ← Checked.u32
  let tags ← Decoder.replicate readString tagCount.toNat
  let version ← Checked.u32
  let creatorSignature ← Checked.fixed 64
  let mimeType ← readString
  let entryPoint ← readString
  pure {
    contentHash := ⟨contentHash⟩, name, description, type := Wire.ofByte type, sizeBytes,
    createdTimestamp, creatorId := ⟨creatorId⟩, tags, version, creatorSignature, mimeType,
    entryPoint }

/-- `ThingMetadata::deserialize`. -/
def deserialize (data : Bytes) : Outcome ThingMetadata := decoder.run data

end ThingMetadata

/-! ## Things -/

/-- `Thing::MAX_SIZE`. -/
def Thing.maxSize : Nat := 500 * 1024 * 1024

/-- What `Thing::create` asks of content and metadata. -/
structure Thing.Matches (H : Bytes → Hash256) (data : Bytes) (metadata : ThingMetadata) :
    Prop where
  size_le : data.length ≤ Thing.maxSize
  nonempty : data ≠ []
  hash_eq : ⟨H data⟩ = metadata.contentHash
  size_eq : data.length = metadata.sizeBytes.toNat

/-- `Thing`. -/
structure Thing (H : Bytes → Hash256) where
  data : Bytes
  metadata : ThingMetadata
  ok : Thing.Matches H data metadata

namespace Thing

variable {H : Bytes → Hash256}

/-- `Thing::create`. -/
def create (H : Bytes → Hash256) (data : Bytes) (metadata : ThingMetadata) : Option (Thing H) :=
  if hmax : maxSize < data.length then none
  else if hempty : data = [] then none
  else if hhash : ⟨H data⟩ ≠ metadata.contentHash then none
  else if hsize : data.length ≠ metadata.sizeBytes.toNat then none
  else some ⟨data, metadata, Nat.le_of_not_lt hmax, hempty, not_not.mp hhash, not_not.mp hsize⟩

/-- `metadata_key`. -/
def metadataKey (hash : ContentHash) : Text :=
  ⟨(Text.ofString "thing_meta_").bytes ++ (Storage.contentName hash).bytes⟩

/-- `Thing::load`, on the data directory as it stands. -/
def load (H : Bytes → Hash256) (s : Storage) (hash : ContentHash) : Option (Thing H) := do
  let data ← s.opened.getContent hash
  let bytes ← s.opened.getMetadata (metadataKey hash)
  let metadata ← (ThingMetadata.deserialize bytes).toOption
  create H data metadata

/-- `Thing::save`. -/
def save (t : Thing H) (s : Storage) : Storage × Bool :=
  let stored := (s.opened.putContent t.metadata.contentHash t.data).1
  stored.putMetadata (metadataKey t.metadata.contentHash) t.metadata.serialize

end Thing

end Cashew
