import Cashew.Common
import Cashew.Lib.Machine

/-!
# The file storage

`Storage` of `storage/storage.cpp`: content in files named after their hashes, in
subdirectories named after the first two digits, and metadata in files named after
their keys.

A file name is a byte string up to its first zero byte. Of the file system the model
has what decides the result of a call: a name may have 255 bytes at most, the empty
name, `.` and `..` are directories, an empty directory can be removed and then nothing
can be written under it. Files are written and read without other failures. A call that
throws yields no value, as one that returns `std::nullopt`.
-/

namespace Cashew

open Cashew.Lib

/-- The files of a directory. -/
abbrev Files := OrdMap Text Bytes

/-- `Storage`: the subdirectories of `content`, and `metadata` as long as it exists. -/
structure Storage where
  content : OrdMap Text Files := .empty
  metadata : Option Files := some .empty

namespace Storage

/-! ## File names -/

/-- The replacement in `get_metadata_path`. -/
def escape (b : UInt8) : UInt8 :=
  if b = 47 ∨ b = 92 ∨ b = 58 then 95 else b

/-- The last part of `get_metadata_path`, as a system call gets it. -/
def metadataName (key : Text) : Text := ⟨(key.bytes.map escape).takeWhile (· != 0)⟩

/-- A name a file can have. -/
def isFileName (name : Text) : Bool :=
  name ≠ ⟨[]⟩ ∧ name ≠ Text.ofString "." ∧ name ≠ Text.ofString ".." ∧ name.bytes.length ≤ 255

/-- `ContentHash::to_string`. -/
def contentName (hash : ContentHash) : Text := Text.hashToHex hash.hash

/-- The subdirectory in `get_content_path`. -/
def contentSubdir (hash : ContentHash) : Text := ⟨(contentName hash).bytes.take 2⟩

variable (s : Storage)

/-- The constructor, on a data directory as another storage has left it. -/
def opened : Storage := { s with metadata := some (s.metadata.getD .empty) }

/-! ## Content -/

/-- `Storage::put_content`. -/
def putContent (hash : ContentHash) (data : Bytes) : Storage × Bool :=
  ({ s with
      content := s.content.upsert (contentSubdir hash) .empty (·.insert (contentName hash) data) },
    true)

/-- `Storage::get_content`. -/
def getContent (hash : ContentHash) : Option Bytes :=
  (s.content.find? (contentSubdir hash)).bind (·.find? (contentName hash))

/-- `Storage::delete_content`. -/
def deleteContent (hash : ContentHash) : Storage × Bool :=
  if (s.getContent hash).isNone then (s, false)
  else ({ s with content := s.content.modify (contentSubdir hash) (·.erase (contentName hash)) },
    true)

/-! ## Metadata -/

/-- `Storage::put_metadata`. -/
def putMetadata (key : Text) (value : Bytes) : Storage × Bool :=
  match s.metadata with
  | none => (s, false)
  | some files =>
    if isFileName (metadataName key) then
      ({ s with metadata := some (files.insert (metadataName key) value) }, true)
    else (s, false)

/-- `Storage::get_metadata`. -/
def getMetadata (key : Text) : Option Bytes :=
  s.metadata.bind fun files =>
    if isFileName (metadataName key) then files.find? (metadataName key) else none

/-- `Storage::delete_metadata`: without a name it is the directory that is removed. -/
def deleteMetadata (key : Text) : Storage × Bool :=
  match s.metadata with
  | none => (s, false)
  | some files =>
    if metadataName key = ⟨[]⟩ then
      if files.entries = [] then ({ s with metadata := none }, true) else (s, false)
    else if isFileName (metadataName key) ∧ files.contains (metadataName key) then
      ({ s with metadata := some (files.erase (metadataName key)) }, true)
    else (s, false)

end Storage

/-! ## Runs -/

/-- The calls on metadata. -/
inductive MetadataInput where
  | putMetadata (key : Text) (value : Bytes)
  | getMetadata (key : Text)
  | deleteMetadata (key : Text)

/-- The key of a call. -/
def MetadataInput.key : MetadataInput → Text
  | putMetadata key _ => key
  | getMetadata key => key
  | deleteMetadata key => key

/-- A storage with the values its `get_metadata` returns. -/
def metadataMachine : Machine Storage MetadataInput (Option Bytes) where
  step s
    | .putMetadata key value => ((s.putMetadata key value).1, [])
    | .getMetadata key => (s, [s.getMetadata key])
    | .deleteMetadata key => ((s.deleteMetadata key).1, [])

end Cashew
