import Cashew.Security.RevocationCodec

/-!
# Revocations as bytes

A revocation is read back as it was written exactly when it carries no rotation
certificate: the encoding of a certificate has no signature, and the decoder
leaves that field as the memory happens to be.
-/

namespace Cashew.Theorems.RevocationCodec

open Cashew Cashew.Lib

/-- The encoding of the revocation is read back as the revocation, whatever the
memory of the decoder held. -/
def ReadsBack (r : KeyRevocation) : Prop :=
  ∀ unset, KeyRevocation.fromBytes unset r.toBytes = .value r

/-- The same for a list. -/
def ListReadsBack (l : KeyRevocationList) : Prop :=
  ∀ unset, KeyRevocationList.fromBytes unset l.toBytes = .value l

/-- Some memory differs from a given signature. -/
theorem exists_other (signature : Signature) : ∃ unset : Signature, signature ≠ unset := by
  by_cases hzero : signature = FixedBytes.zero
  · refine ⟨⟨List.replicate 64 1, List.length_replicate⟩, ?_⟩
    rw [hzero]
    decide
  · exact ⟨FixedBytes.zero, hzero⟩

theorem readsBack_iff (r : KeyRevocation) : ReadsBack r ↔ r.rotationCert = none := by
  constructor
  · intro hread
    refine Option.eq_none_iff_forall_not_mem.mpr fun cert hcert => ?_
    obtain ⟨unset, hother⟩ := exists_other cert.oldKeySignature
    exact hother ((KeyRevocation.decoder_yields unset).run (hread unset) cert hcert)
  · exact fun hcert unset => (r.decodes unset hcert).run

theorem listReadsBack_iff (l : KeyRevocationList) :
    ListReadsBack l ↔
      (∀ r ∈ l.revocations, r.rotationCert = none) ∧ l.revocations.length < 2 ^ 32 := by
  constructor
  · intro hread
    have hyields := fun unset => (KeyRevocationList.decoder_yields unset).run (hread unset)
    refine ⟨fun r hr => ?_, (hyields FixedBytes.zero).1⟩
    refine Option.eq_none_iff_forall_not_mem.mpr fun cert hcert => ?_
    obtain ⟨unset, hother⟩ := exists_other cert.oldKeySignature
    exact hother ((hyields unset).2 r hr cert hcert)
  · rintro ⟨hcerts, hcount⟩ unset
    exact (l.decodes unset hcerts hcount).run

/-- **Round trips.** A revocation is read back exactly when it carries no
certificate, and a list exactly when none of its revocations does and its count
fits 32 bits. -/
theorem revocation_roundTrips_iff (r : KeyRevocation) (l : KeyRevocationList) :
    (ReadsBack r ↔ r.rotationCert = none) ∧
      (ListReadsBack l ↔
        (∀ r ∈ l.revocations, r.rotationCert = none) ∧ l.revocations.length < 2 ^ 32) :=
  ⟨readsBack_iff r, listReadsBack_iff l⟩

/-- Key 1 is rotated to key 2: the certificate is signed with key 1, the
revocation with key 2. -/
def rotation : KeyRevocation :=
  let unsignedCert : RotationCertificate := {
    oldPublicKey := samplePublicKey 1
    newPublicKey := samplePublicKey 2
    rotationTimestamp := 1200
    oldKeySignature := FixedBytes.zero
    reason := [] }
  let cert := { unsignedCert with
    oldKeySignature := sampleEd25519.sign unsignedCert.signedBytes (sampleSecretKey 1) }
  let unsigned : KeyRevocation := {
    revokedKey := samplePublicKey 1
    reason := .listed .scheduledRotation
    revokedAt := 1200
    revoker := sampleNode 1
    replacementKey := some (samplePublicKey 2)
    rotationCert := some cert
    signature := FixedBytes.zero }
  { unsigned with signature := sampleEd25519.sign unsigned.signedBytes (sampleSecretKey 2) }

/-- The sender accepts the rotation; with zeros in the memory of the decoder the
receiver does not accept what arrives, and it is not what was sent. -/
theorem rotation_lost :
    (KeyRevocationBroadcaster.initial 365).shouldAcceptRevocation sampleEd25519
        (Clock.still sampleTime) rotation = true ∧
      KeyRevocation.fromBytes FixedBytes.zero rotation.toBytes ≠ .value rotation ∧
      (KeyRevocation.fromBytes FixedBytes.zero rotation.toBytes).toOption.map
        ((KeyRevocationBroadcaster.initial 365).shouldAcceptRevocation sampleEd25519
          (Clock.still sampleTime)) = some false := by
  decide +kernel

end Cashew.Theorems.RevocationCodec
