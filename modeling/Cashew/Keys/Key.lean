import Cashew.Ledger.Event

/-!
# Participation keys

`Key`, `KeyTransfer` and `KeyVouch` of `core/keys/key.cpp`. A key is known by the
hash of its type, owner, time of issue and nonce; the nonce is drawn from a
counter that lives as long as the process.
-/

namespace Cashew

open Cashew.Lib

/-- `key_type_to_string`. -/
def keyTypeToString : Wire KeyType → Text
  | .listed .identity => Text.ofString "identity"
  | .listed .node => Text.ofString "node"
  | .listed .network => Text.ofString "network"
  | .listed .service => Text.ofString "service"
  | .listed .routing => Text.ofString "routing"
  | .unlisted _ _ => Text.ofString "unknown"

/-- `Key`. -/
structure Key where
  type : Wire KeyType
  owner : NodeID
  issuedTimestamp : UInt64
  lastUsedTimestamp : UInt64
  source : Text
  nonce : UInt64
  deriving DecidableEq

namespace Key

/-- `Key::create` with the nonce it draws from the counter. -/
def create (type : Wire KeyType) (owner : NodeID) (issuedTimestamp : UInt64) (source : Text)
    (nonce : UInt64) : Key :=
  { type, owner, issuedTimestamp, lastUsedTimestamp := issuedTimestamp, source, nonce }

/-- The text `get_key_id` hashes; 95 is the underscore. -/
def material (k : Key) : Bytes :=
  (keyTypeToString k.type).bytes ++ 95 :: (Text.hashToHex k.owner.id).bytes ++
    95 :: (Text.decimal k.issuedTimestamp.toNat).bytes ++ 95 :: (Text.decimal k.nonce.toNat).bytes

/-- `Key::get_key_id`. -/
def getKeyId (H : Bytes → Hash256) (k : Key) : Text := Text.hashToHex (H k.material)

/-- The nonce stands behind the last underscore. -/
theorem nonce_eq_of_material {k k' : Key} (h : k.material = k'.material) : k.nonce = k'.nonce := by
  have hdigits := Text.suffix_inj (Text.underscore_not_mem_decimal _)
    (Text.underscore_not_mem_decimal _) h
  have hdecimal : Text.decimal k.nonce.toNat = Text.decimal k'.nonce.toNat :=
    congrArg Text.mk hdigits
  exact UInt64.toNat_inj.mp (Text.decimal_injective hdecimal)

end Key

/-- `KeyTransfer`. -/
structure KeyTransfer where
  keyId : Text
  fromNode : NodeID
  toNode : NodeID
  keyType : Wire KeyType
  transferTimestamp : UInt64
  reason : Text
  fromSignature : Signature
  deriving DecidableEq

namespace KeyTransfer

/-- The fields in front of the signature, which is what the sender signs. -/
def signedBytes (t : KeyTransfer) : Bytes :=
  leBytes 4 t.keyId.bytes.length ++ (t.keyId.bytes ++ (t.fromNode.id.bytes ++
    (t.toNode.id.bytes ++ ([t.keyType.toByte] ++ (u64Bytes t.transferTimestamp ++
      (leBytes 4 t.reason.bytes.length ++ t.reason.bytes))))))

/-- `KeyTransfer::to_bytes`. -/
def toBytes (t : KeyTransfer) : Bytes := t.signedBytes ++ t.fromSignature.bytes

end KeyTransfer

/-- `KeyVouch`. -/
structure KeyVouch where
  voucher : NodeID
  vouchee : NodeID
  keyType : Wire KeyType
  keyCount : UInt32
  vouchTimestamp : UInt64
  statement : Text
  voucherSignature : Signature
  deriving DecidableEq

namespace KeyVouch

/-- The fields in front of the signature, which is what the voucher signs. -/
def signedBytes (v : KeyVouch) : Bytes :=
  v.voucher.id.bytes ++ (v.vouchee.id.bytes ++ ([v.keyType.toByte] ++ (u32Bytes v.keyCount ++
    (u64Bytes v.vouchTimestamp ++ (leBytes 4 v.statement.bytes.length ++ v.statement.bytes)))))

/-- `KeyVouch::to_bytes`. -/
def toBytes (v : KeyVouch) : Bytes := v.signedBytes ++ v.voucherSignature.bytes

end KeyVouch

end Cashew
