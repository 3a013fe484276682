import Cashew.Common
import Cashew.Lib.MerkleTree

/-!
# Content integrity

`ContentIntegrityChecker` of `security/content_integrity.cpp`: content is compared with its
hash as a whole, or with the root of a Merkle tree over its chunks. A leaf holds the hash of
a chunk and an inner node the hash of its children's hashes, both hashed as they are.

A chunk size of zero never gets past the first chunk and is left out of the type. The
metadata that bundles these hashes adds no check of its own.
-/

namespace Cashew

open Cashew.Lib

/-- `ContentIntegrityChecker::VerificationResult`. -/
structure VerificationResult where
  isValid : Bool
  expectedHash : Hash256
  actualHash : Hash256
  contentSize : Nat
  errorMessage : String

/-- `ContentIntegrityChecker::MerkleNode`. Where in the content it begins and how long it
is are written for leaves only. -/
structure MerkleNode where
  hash : Hash256 := FixedBytes.zero
  offset : Option Nat := none
  length : Option Nat := none
  children : List Hash256 := []
  deriving DecidableEq

namespace ContentIntegrityChecker

variable (H : Bytes → Hash256)

/-- `ContentIntegrityChecker::verify_content`. -/
def verifyContent (content : Bytes) (expectedHash : Hash256) : VerificationResult :=
  let actualHash := H content
  { isValid := actualHash == expectedHash
    expectedHash
    actualHash
    contentSize := content.length
    errorMessage :=
      if actualHash == expectedHash then ""
      else "Content hash mismatch - possible tampering detected" }

/-- The offsets of the chunks: the multiples of the chunk size below the content's. -/
def chunkOffsets (content : Bytes) (chunkSize : ℕ+) : List Nat :=
  (List.range ((content.length + chunkSize - 1) / chunkSize)).map (· * chunkSize)

/-- The chunk at an offset. -/
def chunkAt (content : Bytes) (chunkSize : ℕ+) (offset : Nat) : Bytes :=
  (content.drop offset).take (min chunkSize (content.length - offset))

/-- The leaf for a chunk. -/
def leafNode (content : Bytes) (chunkSize : ℕ+) (offset : Nat) : MerkleNode where
  hash := H (chunkAt content chunkSize offset)
  offset := some offset
  length := some (min chunkSize (content.length - offset))

/-- The node above two others. -/
def parentNode (left right : MerkleNode) : MerkleNode where
  hash := H (left.hash.bytes ++ right.hash.bytes)
  children := [left.hash, right.hash]

/-- `ContentIntegrityChecker::build_merkle_tree`: the root, or an empty node where there is
no content. -/
def buildMerkleTree (content : Bytes) (chunkSize : ℕ+) : MerkleNode :=
  let leafNodes := (chunkOffsets content chunkSize).map (leafNode H content chunkSize)
  ((climb (parentNode H) leafNodes.length leafNodes).head?).getD {}

/-- `ContentIntegrityChecker::verify_merkle_tree`. -/
def verifyMerkleTree (content : Bytes) (root : MerkleNode) (chunkSize : ℕ+) : Bool :=
  (buildMerkleTree H content chunkSize).hash == root.hash

end ContentIntegrityChecker

end Cashew
