import Cashew.Keys.KeyCodec
import Cashew.Keys.KeyManager

/-!
# Key records and what is signed

The three layouts are read back, and no input makes a decoder leave it. What the signer cuts
off the encoding and what the verifier writes anew are the same bytes for every record, and
they do not depend on the signature that is filled in afterwards; so a record that
`create_transfer` or `create_vouch` returns verifies (`key_records`).
-/

namespace Cashew.Theorems.KeyCodec

open Cashew Cashew.Lib

/-- The scheme accepts what it signed, under the public key of the secret key. -/
def AcceptsOwn (ed : Ed25519) : Prop :=
  ∀ message sk, ed.verify message (ed.sign message sk) sk.publicKey = true

section Created

variable {H : Bytes → Hash256} {ed : Ed25519} {m : KeyManager H} {now : Time} {unset : Signature}

/-- A transfer that is handed out carries the signature of its own message. -/
theorem createTransfer_signature {keyId : Text} {fromNode toNode : NodeID} {reason : Text}
    {sk : SecretKey} {t : KeyTransfer}
    (h : m.createTransfer ed now unset keyId fromNode toNode reason sk = some t) :
    t.fromSignature = ed.sign t.verifiedMessage sk := by
  unfold KeyManager.createTransfer at h
  split at h
  · cases h
  · split at h
    · cases h
    · split at h
      · cases h
      · -- the message is written without the signature
        simp only [KeyTransfer.take_toBytes, Option.some.injEq] at h
        rw [← h]
        rfl

theorem createVouch_signature {voucher vouchee : NodeID} {keyType : Wire KeyType}
    {keyCount : UInt32} {statement : Text} {sk : SecretKey} {v : KeyVouch}
    (h : m.createVouch ed now unset voucher vouchee keyType keyCount statement sk = some v) :
    v.voucherSignature = ed.sign v.verifiedMessage sk := by
  unfold KeyManager.createVouch at h
  split at h
  · cases h
  · simp only [KeyVouch.take_toBytes, Option.some.injEq] at h
    rw [← h]
    rfl

end Created

/-- The records a manager hands out verify under the signer's public key. -/
structure CreatedVerify (ed : Ed25519) : Prop where
  transfer : ∀ {H : Bytes → Hash256} (m : KeyManager H) now unset keyId fromNode toNode reason sk t,
    m.createTransfer ed now unset keyId fromNode toNode reason sk = some t →
      t.verifySignature ed sk.publicKey = true
  vouch : ∀ {H : Bytes → Hash256} (m : KeyManager H) now unset voucher vouchee keyType keyCount
      statement sk v,
    m.createVouch ed now unset voucher vouchee keyType keyCount statement sk = some v →
      v.verifySignature ed sk.publicKey = true

theorem createdVerify {ed : Ed25519} (hed : AcceptsOwn ed) : CreatedVerify ed where
  transfer := by
    intro H m now unset keyId fromNode toNode reason sk t hcreated
    rw [KeyTransfer.verifySignature, createTransfer_signature hcreated]
    exact hed _ _
  vouch := by
    intro H m now unset voucher vouchee keyType keyCount statement sk v hcreated
    rw [KeyVouch.verifySignature, createVouch_signature hcreated]
    exact hed _ _

/-- **Key records.** Keys, transfers and vouches with strings shorter than `2 ^ 32` are read
back; every input is read inside its bounds; the bytes that are signed are those that are
verified, for every record; and with a signature scheme that accepts what it signed every
record that is created verifies. -/
theorem key_records (ed : Ed25519) (hed : AcceptsOwn ed) :
    (∀ k : Key, k.source.bytes.length < 2 ^ 32 → Key.deserialize k.serialize = .value k) ∧
    (∀ t : KeyTransfer, t.keyId.bytes.length < 2 ^ 32 → t.reason.bytes.length < 2 ^ 32 →
      KeyTransfer.fromBytes t.toBytes = .value t) ∧
    (∀ v : KeyVouch, v.statement.bytes.length < 2 ^ 32 →
      KeyVouch.fromBytes v.toBytes = .value v) ∧
    (∀ data : Bytes, Key.deserialize data ≠ .outOfBounds ∧
      KeyTransfer.fromBytes data ≠ .outOfBounds ∧ KeyVouch.fromBytes data ≠ .outOfBounds) ∧
    (∀ t : KeyTransfer, t.toBytes.take (t.toBytes.length - 64) = t.verifiedMessage) ∧
    (∀ v : KeyVouch, v.toBytes.take (v.toBytes.length - 64) = v.verifiedMessage) ∧
    CreatedVerify ed := by
  refine ⟨?_, ?_, ?_, ?_, ?_, ?_, createdVerify hed⟩
  · exact fun k hsource => (k.decodes hsource).run
  · exact fun t hkeyId hreason => (t.decodes hkeyId hreason).run
  · exact fun v hstatement => (v.decodes hstatement).run
  · exact fun data => ⟨Key.decoder_inBounds.run, KeyTransfer.decoder_inBounds.run,
      KeyVouch.decoder_inBounds.run⟩
  · exact KeyTransfer.take_toBytes
  · exact KeyVouch.take_toBytes

theorem sampleEd25519_acceptsOwn : AcceptsOwn sampleEd25519 := by
  intro message sk
  exact beq_self_eq_true _

/-- A node's key and a manager that holds it. -/
def heldKey : Key :=
  Key.create (.listed .node) (sampleNode 1) 1200 (Text.ofString "pow") 1

def holder : KeyManager sampleHash := KeyManager.initial.addKey heldKey

/-- Its transfer to node 2, signed by node 1. -/
def sold : KeyTransfer :=
  let unsigned : KeyTransfer :=
    { keyId := heldKey.getKeyId sampleHash
      fromNode := sampleNode 1
      toNode := sampleNode 2
      keyType := .listed .node
      transferTimestamp := 1200
      reason := Text.ofString "sold"
      fromSignature := FixedBytes.zero }
  { unsigned with
    fromSignature := sampleEd25519.sign unsigned.verifiedMessage (sampleSecretKey 1) }

theorem createTransfer_sold :
    holder.createTransfer sampleEd25519 sampleTime FixedBytes.zero (heldKey.getKeyId sampleHash)
      (sampleNode 1) (sampleNode 2) (Text.ofString "sold") (sampleSecretKey 1) = some sold := by
  decide +kernel

/-- The key and its transfer are read back, and the transfer verifies. -/
theorem sold_verifies :
    Key.deserialize heldKey.serialize = .value heldKey ∧
      KeyTransfer.fromBytes sold.toBytes = .value sold ∧
      sold.verifySignature sampleEd25519 (sampleSecretKey 1).publicKey = true := by
  obtain ⟨hkey, htransfer, _, _, _, _, hverify⟩ :=
    key_records sampleEd25519 sampleEd25519_acceptsOwn
  have hkeyId : sold.keyId.bytes.length < 2 ^ 32 := by decide +kernel
  exact ⟨hkey heldKey (by decide), htransfer sold hkeyId (by decide),
    hverify.transfer _ _ _ _ _ _ _ _ _ createTransfer_sold⟩

end Cashew.Theorems.KeyCodec
