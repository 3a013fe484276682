import Cashew.Security.KeyRevocation

/-!
# Revocations as bytes, and lists of them

`to_bytes` and `from_bytes` of `KeyRevocation` and `KeyRevocationList`, and what a
`KeyRevocationBroadcaster` of `security/key_revocation.cpp` does with lists. The
certificate inside a revocation is written by `RotationCertificate::to_bytes`,
which has no signature, and read back into a local variable whose signature
nothing assigns: `unset` stands for what the memory of that variable holds.
-/

namespace Cashew

open Cashew.Lib

namespace RotationCertificate

theorem toBytes_length (c : RotationCertificate) : c.toBytes.length = 72 + c.reason.length := by
  simp only [toBytes, List.length_append, FixedBytes.size, u64Bytes_length]
  omega

/-- The fields `KeyRevocation::from_bytes` takes out of a copy of `size` bytes. -/
def decoder (unset : Signature) (size : Nat) : Decoder RotationCertificate := do
  let oldPublicKey ← FixedBytes.decoder 32
  let newPublicKey ← FixedBytes.decoder 32
  let rotationTimestamp ← Decoder.u64
  let reason ← Decoder.take (size - 72)
  pure { oldPublicKey, newPublicKey, rotationTimestamp, oldKeySignature := unset, reason }

/-- The signature is the memory's, whatever was read. -/
theorem decoder_yields (unset : Signature) (size : Nat) :
    Yields (decoder unset size) fun c => c.oldKeySignature = unset := by
  refine Yields.skip fun oldPublicKey => ?_
  refine Yields.skip fun newPublicKey => ?_
  refine Yields.skip fun rotationTimestamp => ?_
  refine Yields.skip fun reason => ?_
  exact Yields.pure rfl

end RotationCertificate

namespace KeyRevocation

/-- The replacement key behind its flag. -/
def replacementBytes : Option PublicKey → Bytes
  | some replacement => [1] ++ replacement.bytes
  | none => [0]

/-- The certificate behind its flag and its length. -/
def certificateBytes : Option RotationCertificate → Bytes
  | some cert => [1] ++ (leBytes 4 cert.toBytes.length ++ cert.toBytes)
  | none => [0]

/-- `KeyRevocation::to_bytes`. -/
def toBytes (r : KeyRevocation) : Bytes :=
  r.revokedKey.bytes ++ ([r.reason.toByte] ++ (u64Bytes r.revokedAt ++ (r.revoker.id.bytes ++
    (replacementBytes r.replacementKey ++ (certificateBytes r.rotationCert ++
      r.signature.bytes)))))

/-- The replacement key, which is there if the flag is 1. -/
def replacementDecoder (hasReplacement : UInt8) : Decoder (Option PublicKey) :=
  if hasReplacement = 1 then do
    Decoder.require 32
    let replacement ← FixedBytes.decoder 32
    pure (some replacement)
  else pure none

/-- The certificate, which is there if the flag is 1. A copy too short for the
fixed fields is skipped. -/
def certificateDecoder (unset : Signature) (hasCertificate : UInt8) :
    Decoder (Option RotationCertificate) :=
  if hasCertificate = 1 then do
    Decoder.require 4
    let certLen ← Decoder.le 4
    Decoder.require certLen
    if 72 ≤ certLen then do
      let cert ← Decoder.nested certLen (RotationCertificate.decoder unset certLen)
      pure (some cert)
    else do
      let _ ← Decoder.take certLen
      pure none
  else pure none

/-- The reads of `KeyRevocation::from_bytes`. -/
def decoder (unset : Signature) : Decoder KeyRevocation := do
  Decoder.require (32 + 1 + 8 + 32 + 1 + 1 + 64)
  let revokedKey ← FixedBytes.decoder 32
  let reason ← Decoder.byte
  let revokedAt ← Decoder.u64
  let revoker ← FixedBytes.decoder 32
  let hasReplacement ← Decoder.byte
  let replacementKey ← replacementDecoder hasReplacement
  Decoder.require 1
  let hasCertificate ← Decoder.byte
  let rotationCert ← certificateDecoder unset hasCertificate
  Decoder.require 64
  let signature ← FixedBytes.decoder 64
  pure {
    revokedKey, reason := Wire.ofByte reason, revokedAt, revoker := ⟨revoker⟩, replacementKey,
    rotationCert, signature }

/-- `KeyRevocation::from_bytes`. -/
def fromBytes (unset : Signature) (data : Bytes) : Outcome KeyRevocation :=
  (decoder unset).run data

theorem replacement_decodes (replacementKey : Option PublicKey) :
    Decodes (Decoder.byte >>= replacementDecoder) (replacementBytes replacementKey)
      replacementKey := by
  cases replacementKey with
  | none => exact (Decodes.byte 0).bind (Decodes.pure none)
  | some replacement =>
    refine (Decodes.byte 1).bind ?_
    show Decodes (Decoder.require 32 >>= fun _ => _) replacement.bytes (some replacement)
    apply Decodes.require_bind (Nat.le_of_eq replacement.size.symm)
    exact (FixedBytes.decodes replacement).bind_pure (f := some)

/-- A revocation without a certificate is read back. -/
theorem decodes (unset : Signature) (r : KeyRevocation) (hcert : r.rotationCert = none) :
    Decodes (decoder unset) r.toBytes r := by
  have hreplacement : 1 ≤ (replacementBytes r.replacementKey).length := by
    cases r.replacementKey <;> simp [replacementBytes]
  have hlen : 32 + 1 + 8 + 32 + 1 + 1 + 64 ≤ r.toBytes.length := by
    simp only [toBytes, hcert, certificateBytes, List.length_append, FixedBytes.size,
      u64Bytes_length, List.length_singleton]
    omega
  apply Decodes.require_bind hlen
  refine (FixedBytes.decodes _).bind ?_
  refine (Decodes.byte _).bind ?_
  refine (Decodes.u64 _).bind ?_
  refine (FixedBytes.decodes _).bind ?_
  rw [← bind_assoc]
  refine (replacement_decodes r.replacementKey).bind ?_
  rw [Wire.ofByte_toByte]
  obtain ⟨revokedKey, reason, revokedAt, revoker, replacementKey, rotationCert, signature⟩ := r
  cases hcert
  apply Decodes.require_bind (by simp [certificateBytes])
  refine (Decodes.byte 0).bind ?_
  show Decodes (Decoder.require 64 >>= fun _ => _) signature.bytes _
  apply Decodes.require_bind (Nat.le_of_eq signature.size.symm)
  exact (FixedBytes.decodes signature).bind_pure (f := KeyRevocation.mk revokedKey reason
    revokedAt revoker replacementKey none)

/-- Without a certificate a revocation takes at most 171 bytes. -/
theorem toBytes_length_le {r : KeyRevocation} (hcert : r.rotationCert = none) :
    r.toBytes.length ≤ 171 := by
  simp only [toBytes, hcert, certificateBytes, List.length_append, FixedBytes.size,
    u64Bytes_length, List.length_singleton]
  cases r.replacementKey with
  | none => simp [replacementBytes]
  | some replacement => simp [replacementBytes, FixedBytes.size]

theorem certificate_yields (unset : Signature) (hasCertificate : UInt8) :
    Yields (certificateDecoder unset hasCertificate) fun rotationCert =>
      ∀ cert ∈ rotationCert, cert.oldKeySignature = unset := by
  unfold certificateDecoder
  split
  · refine Yields.skip fun _ => ?_
    refine Yields.skip fun certLen => ?_
    refine Yields.skip fun _ => ?_
    split
    · refine (RotationCertificate.decoder_yields unset certLen).nested.bind fun cert hcert => ?_
      refine Yields.pure ?_
      rintro _ ⟨⟩
      exact hcert
    · exact Yields.skip fun _ => Yields.pure fun _ hmem => nomatch hmem
  · exact Yields.pure fun _ hmem => nomatch hmem

/-- A decoded certificate has the memory's signature. -/
theorem decoder_yields (unset : Signature) :
    Yields (decoder unset) fun r => ∀ cert ∈ r.rotationCert, cert.oldKeySignature = unset := by
  refine Yields.skip fun _ => ?_
  refine Yields.skip fun revokedKey => ?_
  refine Yields.skip fun reason => ?_
  refine Yields.skip fun revokedAt => ?_
  refine Yields.skip fun revoker => ?_
  refine Yields.skip fun hasReplacement => ?_
  refine Yields.skip fun replacementKey => ?_
  refine Yields.skip fun _ => ?_
  refine Yields.skip fun hasCertificate => ?_
  refine (certificate_yields unset hasCertificate).bind fun rotationCert hcert => ?_
  refine Yields.skip fun _ => ?_
  exact Yields.skip fun signature => Yields.pure hcert

end KeyRevocation

/-! ## Lists -/

/-- `KeyRevocationList`. -/
structure KeyRevocationList where
  revocations : List KeyRevocation
  timestamp : UInt64
  sourceNode : NodeID
  signature : Signature
  deriving DecidableEq

namespace KeyRevocationList

/-- A revocation behind its length. -/
def itemBytes (r : KeyRevocation) : Bytes := leBytes 4 r.toBytes.length ++ r.toBytes

/-- `KeyRevocationList::to_bytes`. -/
def toBytes (l : KeyRevocationList) : Bytes :=
  u64Bytes l.timestamp ++ (l.sourceNode.id.bytes ++ (leBytes 4 l.revocations.length ++
    (l.revocations.flatMap itemBytes ++ l.signature.bytes)))

/-- One round of the loop over the revocations. -/
def itemDecoder (unset : Signature) : Decoder KeyRevocation := do
  Decoder.require 4
  let len ← Decoder.le 4
  Decoder.require len
  Decoder.nested len (KeyRevocation.decoder unset)

/-- The reads of `KeyRevocationList::from_bytes`. -/
def decoder (unset : Signature) : Decoder KeyRevocationList := do
  Decoder.require (8 + 32 + 4 + 64)
  let timestamp ← Decoder.u64
  let sourceNode ← FixedBytes.decoder 32
  let count ← Decoder.le 4
  let revocations ← Decoder.replicate (itemDecoder unset) count
  Decoder.require 64
  let signature ← FixedBytes.decoder 64
  pure { revocations, timestamp, sourceNode := ⟨sourceNode⟩, signature }

/-- `KeyRevocationList::from_bytes`. -/
def fromBytes (unset : Signature) (data : Bytes) : Outcome KeyRevocationList :=
  (decoder unset).run data

theorem item_decodes (unset : Signature) {r : KeyRevocation} (hcert : r.rotationCert = none) :
    Decodes (itemDecoder unset) (itemBytes r) r := by
  have hlen := KeyRevocation.toBytes_length_le hcert
  have hlen4 : r.toBytes.length < 256 ^ 4 := by omega
  refine Decodes.require_bind (by simp [itemBytes]) ?_
  refine (Decodes.le hlen4).bind ?_
  refine Decodes.require_bind (Nat.le_refl _) ?_
  exact Decodes.nested rfl (r.decodes unset hcert).run

/-- A list of revocations without certificates is read back. -/
theorem decodes (unset : Signature) (l : KeyRevocationList)
    (hcerts : ∀ r ∈ l.revocations, r.rotationCert = none)
    (hcount : l.revocations.length < 2 ^ 32) : Decodes (decoder unset) l.toBytes l := by
  have hlen : 8 + 32 + 4 + 64 ≤ l.toBytes.length := by
    simp only [toBytes, List.length_append, FixedBytes.size, u64Bytes_length, leBytes_length]
    omega
  have hcount4 : l.revocations.length < 256 ^ 4 := hcount
  apply Decodes.require_bind hlen
  refine (Decodes.u64 _).bind ?_
  refine (FixedBytes.decodes _).bind ?_
  refine (Decodes.le hcount4).bind ?_
  refine (Decodes.replicate fun r hr => item_decodes unset (hcerts r hr)).bind ?_
  apply Decodes.require_bind (Nat.le_of_eq l.signature.size.symm)
  exact (FixedBytes.decodes l.signature).bind_pure (f := fun signature => { l with signature })

theorem item_yields (unset : Signature) :
    Yields (itemDecoder unset) fun r => ∀ cert ∈ r.rotationCert, cert.oldKeySignature = unset := by
  refine Yields.skip fun _ => ?_
  refine Yields.skip fun len => ?_
  exact Yields.skip fun _ => (KeyRevocation.decoder_yields unset).nested

/-- A decoded list has as many revocations as its count says, and its
certificates have the memory's signature. -/
theorem decoder_yields (unset : Signature) :
    Yields (decoder unset) fun l => l.revocations.length < 2 ^ 32 ∧
      ∀ r ∈ l.revocations, ∀ cert ∈ r.rotationCert, cert.oldKeySignature = unset := by
  refine Yields.skip fun _ => ?_
  refine Yields.skip fun timestamp => ?_
  refine Yields.skip fun sourceNode => ?_
  refine (Yields.le 4).bind fun count hcount => ?_
  refine ((item_yields unset).replicate count).bind fun revocations hrevocations => ?_
  refine Yields.skip fun _ => ?_
  refine Yields.skip fun signature => ?_
  refine Yields.pure ⟨?_, hrevocations.2⟩
  rw [hrevocations.1]
  exact hcount

end KeyRevocationList

/-! ## Lists that are exchanged

What a broadcaster puts into the lists it offers to others, and a broadcaster under all of its
traffic: local calls, single messages and lists. -/

namespace KeyRevocationBroadcaster

/-- `KeyRevocationBroadcaster::expired_revocation_count`: one reading for each entry. -/
def expiredRevocationCount (b : KeyRevocationBroadcaster) (clock : Clock) : Nat :=
  (b.expiredKeys clock).length

/-- What processing each message of a list keeps, processing the list keeps. -/
theorem processRevocationList_invariant {H : Bytes → Hash256} {ed : Ed25519}
    {P : KeyRevocationBroadcaster → Prop} (list : List KeyRevocation)
    (hstep : ∀ b clock, ∀ r ∈ list, P b → P (b.processRevocation H ed clock r).1) :
    ∀ {b : KeyRevocationBroadcaster} (clock : Clock), P b →
      P (b.processRevocationList H ed clock list).1 := by
  induction list with
  | nil => exact fun _ h => h
  | cons r rest ih =>
    intro b clock h
    have hnext := hstep b clock r List.mem_cons_self h
    exact ih (fun b clock r' hr' => hstep b clock r' (List.mem_cons_of_mem r hr'))
      (clock.after 2) hnext

end KeyRevocationBroadcaster

/-- What reaches a broadcaster: a call, or a list of another node. -/
inductive RevocationTraffic where
  | call (c : RevocationInput)
  | processRevocationList (l : KeyRevocationList)

/-- A broadcaster under its traffic. -/
def revocationTrafficMachine (H : Bytes → Hash256) (ed : Ed25519) :
    Machine KeyRevocationBroadcaster (Clock × RevocationTraffic) Empty where
  step b input :=
    match input.2 with
    | .call c => (b.call H ed input.1 c, [])
    | .processRevocationList l => ((b.processRevocationList H ed input.1 l.revocations).1, [])

end Cashew
