import Cashew.Keys.Key
import Cashew.Utils.CheckedReads

/-!
# Keys, transfers and vouches as bytes

The binary layouts of `core/keys/key.cpp`. A string stands behind its length in four bytes.
A transfer or a vouch ends with its signature; the message under the signature is cut off
the encoding by the side that signs and put together again, field by field, by
`verify_signature`.
-/

namespace Cashew

open Cashew.Lib

namespace Key

/-- `Key::serialize`. -/
def serialize (k : Key) : Bytes :=
  [k.type.toByte] ++ (k.owner.id.bytes ++ (u64Bytes k.issuedTimestamp ++
    (u64Bytes k.lastUsedTimestamp ++ ((leBytes 4 k.source.bytes.length ++ k.source.bytes) ++
      u64Bytes k.nonce))))

/-- The reads of `Key::deserialize`. -/
def decoder : Decoder Key := do
  let type ← Checked.byte
  let owner ← Checked.fixed 32
  let issuedTimestamp ← Checked.u64
  let lastUsedTimestamp ← Checked.u64
  let source ← Checked.counted
  let nonce ← Checked.u64
  pure {
    type := Wire.ofByte type, owner := ⟨owner⟩, issuedTimestamp, lastUsedTimestamp
    source := ⟨source⟩, nonce }

/-- `Key::deserialize`. -/
def deserialize (data : Bytes) : Outcome Key := decoder.run data

theorem decodes (k : Key) (hsource : k.source.bytes.length < 2 ^ 32) :
    Decodes decoder k.serialize k := by
  refine (Checked.byte_decodes _).bind ?_
  refine (Checked.fixed_decodes _).bind ?_
  refine (Checked.u64_decodes _).bind ?_
  refine (Checked.u64_decodes _).bind ?_
  refine (Checked.counted_decodes hsource).bind ?_
  rw [Wire.ofByte_toByte]
  exact (Checked.u64_decodes k.nonce).bind_pure (f := fun nonce => { k with nonce })

theorem decoder_inBounds : InBounds decoder 0 := by
  refine Checked.byte_inBounds.bind fun _ => ?_
  refine (Checked.fixed_inBounds 32).bind fun _ => ?_
  refine Checked.u64_inBounds.bind fun _ => ?_
  refine Checked.u64_inBounds.bind fun _ => ?_
  refine Checked.counted_inBounds.bind fun _ => ?_
  exact Checked.u64_inBounds.bind fun _ => InBounds.pure _ 0

end Key

namespace KeyTransfer

/-- The reads of `KeyTransfer::from_bytes`. -/
def decoder : Decoder KeyTransfer := do
  let keyId ← Checked.counted
  let fromNode ← Checked.fixed 32
  let toNode ← Checked.fixed 32
  let keyType ← Checked.byte
  let transferTimestamp ← Checked.u64
  let reason ← Checked.counted
  let fromSignature ← Checked.fixed 64
  pure {
    keyId := ⟨keyId⟩, fromNode := ⟨fromNode⟩, toNode := ⟨toNode⟩
    keyType := Wire.ofByte keyType, transferTimestamp, reason := ⟨reason⟩, fromSignature }

/-- `KeyTransfer::from_bytes`. -/
def fromBytes (data : Bytes) : Outcome KeyTransfer := decoder.run data

/-- The message `verify_signature` writes anew. -/
def verifiedMessage (t : KeyTransfer) : Bytes :=
  leBytes 4 t.keyId.bytes.length ++ t.keyId.bytes ++ t.fromNode.id.bytes ++ t.toNode.id.bytes ++
    [t.keyType.toByte] ++ u64Bytes t.transferTimestamp ++ leBytes 4 t.reason.bytes.length ++
    t.reason.bytes

/-- `KeyTransfer::verify_signature`. -/
def verifySignature (ed : Ed25519) (t : KeyTransfer) (fromPublicKey : PublicKey) : Bool :=
  ed.verify t.verifiedMessage t.fromSignature fromPublicKey

theorem decodes (t : KeyTransfer) (hkeyId : t.keyId.bytes.length < 2 ^ 32)
    (hreason : t.reason.bytes.length < 2 ^ 32) : Decodes decoder t.toBytes t := by
  have hbytes : t.toBytes = (leBytes 4 t.keyId.bytes.length ++ t.keyId.bytes) ++
      (t.fromNode.id.bytes ++ (t.toNode.id.bytes ++ ([t.keyType.toByte] ++
        (u64Bytes t.transferTimestamp ++ ((leBytes 4 t.reason.bytes.length ++ t.reason.bytes) ++
          t.fromSignature.bytes))))) := by
    simp only [toBytes, signedBytes, List.append_assoc]
  rw [hbytes]
  refine (Checked.counted_decodes hkeyId).bind ?_
  refine (Checked.fixed_decodes _).bind ?_
  refine (Checked.fixed_decodes _).bind ?_
  refine (Checked.byte_decodes _).bind ?_
  refine (Checked.u64_decodes _).bind ?_
  refine (Checked.counted_decodes hreason).bind ?_
  rw [Wire.ofByte_toByte]
  exact (Checked.fixed_decodes t.fromSignature).bind_pure
    (f := fun fromSignature => { t with fromSignature })

theorem decoder_inBounds : InBounds decoder 0 := by
  refine Checked.counted_inBounds.bind fun _ => ?_
  refine (Checked.fixed_inBounds 32).bind fun _ => ?_
  refine (Checked.fixed_inBounds 32).bind fun _ => ?_
  refine Checked.byte_inBounds.bind fun _ => ?_
  refine Checked.u64_inBounds.bind fun _ => ?_
  refine Checked.counted_inBounds.bind fun _ => ?_
  exact (Checked.fixed_inBounds 64).bind fun _ => InBounds.pure _ 0

/-- The encoding without the signature at its end is the message written anew. -/
theorem take_toBytes (t : KeyTransfer) :
    t.toBytes.take (t.toBytes.length - 64) = t.verifiedMessage := by
  have hlen : t.toBytes.length - 64 = t.signedBytes.length := by
    rw [toBytes, List.length_append, t.fromSignature.size, Nat.add_sub_cancel]
  rw [hlen, toBytes, List.take_left]
  simp only [signedBytes, verifiedMessage, List.append_assoc]

end KeyTransfer

namespace KeyVouch

/-- The reads of `KeyVouch::from_bytes`. -/
def decoder : Decoder KeyVouch := do
  let voucher ← Checked.fixed 32
  let vouchee ← Checked.fixed 32
  let keyType ← Checked.byte
  let keyCount ← Checked.u32
  let vouchTimestamp ← Checked.u64
  let statement ← Checked.counted
  let voucherSignature ← Checked.fixed 64
  pure {
    voucher := ⟨voucher⟩, vouchee := ⟨vouchee⟩, keyType := Wire.ofByte keyType, keyCount
    vouchTimestamp, statement := ⟨statement⟩, voucherSignature }

/-- `KeyVouch::from_bytes`. -/
def fromBytes (data : Bytes) : Outcome KeyVouch := decoder.run data

/-- The message `verify_signature` writes anew. -/
def verifiedMessage (v : KeyVouch) : Bytes :=
  v.voucher.id.bytes ++ v.vouchee.id.bytes ++ [v.keyType.toByte] ++ u32Bytes v.keyCount ++
    u64Bytes v.vouchTimestamp ++ leBytes 4 v.statement.bytes.length ++ v.statement.bytes

/-- `KeyVouch::verify_signature`. -/
def verifySignature (ed : Ed25519) (v : KeyVouch) (voucherPublicKey : PublicKey) : Bool :=
  ed.verify v.verifiedMessage v.voucherSignature voucherPublicKey

theorem decodes (v : KeyVouch) (hstatement : v.statement.bytes.length < 2 ^ 32) :
    Decodes decoder v.toBytes v := by
  have hbytes : v.toBytes = v.voucher.id.bytes ++ (v.vouchee.id.bytes ++ ([v.keyType.toByte] ++
      (u32Bytes v.keyCount ++ (u64Bytes v.vouchTimestamp ++
        ((leBytes 4 v.statement.bytes.length ++ v.statement.bytes) ++
          v.voucherSignature.bytes))))) := by
    simp only [toBytes, signedBytes, List.append_assoc]
  rw [hbytes]
  refine (Checked.fixed_decodes _).bind ?_
  refine (Checked.fixed_decodes _).bind ?_
  refine (Checked.byte_decodes _).bind ?_
  refine (Checked.u32_decodes _).bind ?_
  refine (Checked.u64_decodes _).bind ?_
  refine (Checked.counted_decodes hstatement).bind ?_
  rw [Wire.ofByte_toByte]
  exact (Checked.fixed_decodes v.voucherSignature).bind_pure
    (f := fun voucherSignature => { v with voucherSignature })

theorem decoder_inBounds : InBounds decoder 0 := by
  refine (Checked.fixed_inBounds 32).bind fun _ => ?_
  refine (Checked.fixed_inBounds 32).bind fun _ => ?_
  refine Checked.byte_inBounds.bind fun _ => ?_
  refine Checked.u32_inBounds.bind fun _ => ?_
  refine Checked.u64_inBounds.bind fun _ => ?_
  refine Checked.counted_inBounds.bind fun _ => ?_
  exact (Checked.fixed_inBounds 64).bind fun _ => InBounds.pure _ 0

/-- The encoding without the signature at its end is the message written anew. -/
theorem take_toBytes (v : KeyVouch) :
    v.toBytes.take (v.toBytes.length - 64) = v.verifiedMessage := by
  have hlen : v.toBytes.length - 64 = v.signedBytes.length := by
    rw [toBytes, List.length_append, v.voucherSignature.size, Nat.add_sub_cancel]
  rw [hlen, toBytes, List.take_left]
  simp only [signedBytes, verifiedMessage, List.append_assoc]

end KeyVouch

end Cashew
