import Cashew.Reputation.VouchingWorkflow
import Cashew.Security.KeyRevocation

/-!
# Node identities that rotate

The rotation of `NodeIdentity` of `core/node/node_identity.cpp`. It draws a new key pair,
signs the new public key and the time with the outgoing key, checks its own certificate and
puts it behind the ones there are. The key pairs are those of the library: a public key is
the one in the second half of its secret key.
-/

namespace Cashew

open Cashew.Lib

/-- `NodeIdentity` with the members that a rotation works on. -/
structure RotatingIdentity extends NodeIdentity where
  createdTimestamp : UInt64
  rotationHistory : List RotationCertificate

/-- A call of `rotate`: the secret key it draws, the reading of the clock and the reason. -/
structure Rotation where
  newSecretKey : SecretKey
  now : Time
  reason : Bytes

namespace RotatingIdentity

/-- `NodeIdentity::generate`. -/
def generate (secretKey : SecretKey) (now : Time) : RotatingIdentity :=
  { publicKey := secretKey.publicKey, secretKey, createdTimestamp := now.secs
    rotationHistory := [] }

variable (ed : Ed25519) (identity : RotatingIdentity)

/-- The certificate that `rotate` makes. -/
def rotationCertificate (rotation : Rotation) : RotationCertificate :=
  let newPublicKey := rotation.newSecretKey.publicKey
  { oldPublicKey := identity.publicKey
    newPublicKey
    rotationTimestamp := rotation.now.secs
    oldKeySignature :=
      ed.sign (newPublicKey.bytes ++ u64Bytes rotation.now.secs) identity.secretKey
    reason := rotation.reason }

/-- `NodeIdentity::rotate`. It throws when its own certificate does not verify. -/
def rotate (rotation : Rotation) : Option RotatingIdentity :=
  let cert := identity.rotationCertificate ed rotation
  if cert.verify ed then
    some { publicKey := rotation.newSecretKey.publicKey
           secretKey := rotation.newSecretKey
           createdTimestamp := rotation.now.secs
           rotationHistory := identity.rotationHistory ++ [cert] }
  else none

/-- The loop of `verify_rotation_chain`: every certificate verifies, and its new key is the
old key of the one behind it. -/
def verifyCertificates : List RotationCertificate → Bool
  | [] => true
  | [cert] => cert.verify ed
  | cert :: next :: rest =>
    cert.verify ed && cert.newPublicKey == next.oldPublicKey && verifyCertificates (next :: rest)

/-- `NodeIdentity::verify_rotation_chain`. -/
def verifyRotationChain : Bool :=
  match identity.rotationHistory.getLast? with
  | none => true
  | some lastCert =>
    verifyCertificates ed identity.rotationHistory &&
      lastCert.newPublicKey == identity.publicKey

/-- `NodeIdentity::get_genesis_key`. -/
def getGenesisKey : PublicKey :=
  match identity.rotationHistory with
  | [] => identity.publicKey
  | cert :: _ => cert.oldPublicKey

/-- One rotation after the other. -/
def rotateAll : List Rotation → Option RotatingIdentity :=
  List.foldlM (rotate ed) identity

end RotatingIdentity

end Cashew
