import Cashew.Keys.KeyCodec
import Cashew.Lib.RecordFiles

/-!
# Keys on disk

`KeyStore` of `core/keys/key.cpp`: three directories, with a file for each key, transfer and
vouch. A key's file is named after its id, a transfer's after the key and the second, a vouch's
after the node vouched for and the second.

What the file system does with a write comes with the call. Ids are plain file names, as
`get_key_id` makes them; one with a slash in it would leave the directory, which is left out.
So are errors of `std::filesystem` other than a file that is missing.
-/

namespace Cashew

open Cashew.Lib

/-! ## Records that are cut off -/

namespace Checked

theorem fixed_rejectsCut {n : Nat} (a : FixedBytes n) : RejectsCut (fixed n) a.bytes :=
  RejectsCut.require_bind (Nat.le_of_eq a.size)

theorem byte_rejectsCut (b : UInt8) : RejectsCut byte [b] :=
  RejectsCut.require_bind (Nat.le_refl 1)

theorem u32_rejectsCut (x : UInt32) : RejectsCut u32 (u32Bytes x) :=
  RejectsCut.require_bind (Nat.le_of_eq (u32Bytes_length x))

theorem u64_rejectsCut (x : UInt64) : RejectsCut u64 (u64Bytes x) :=
  RejectsCut.require_bind (Nat.le_of_eq (u64Bytes_length x))

theorem counted_rejectsCut {field : Bytes} (h : field.length < 2 ^ 32) :
    RejectsCut counted (leBytes 4 field.length ++ field) := by
  have hvalue : (UInt32.ofNat field.length).toNat = field.length := UInt32.toNat_ofNat_of_lt' h
  have hcount := u32_rejectsCut (UInt32.ofNat field.length)
  rw [u32Bytes, hvalue] at hcount
  refine RejectsCut.bind (count_decodes h) hcount ?_
  exact RejectsCut.require_bind (Nat.le_of_eq hvalue.symm)

end Checked

theorem Key.rejectsCut (k : Key) (hsource : k.source.bytes.length < 2 ^ 32) :
    RejectsCut decoder k.serialize := by
  refine RejectsCut.bind (Checked.byte_decodes _) (Checked.byte_rejectsCut _) ?_
  refine RejectsCut.bind (Checked.fixed_decodes _) (Checked.fixed_rejectsCut _) ?_
  refine RejectsCut.bind (Checked.u64_decodes _) (Checked.u64_rejectsCut _) ?_
  refine RejectsCut.bind (Checked.u64_decodes _) (Checked.u64_rejectsCut _) ?_
  refine RejectsCut.bind (Checked.counted_decodes hsource) (Checked.counted_rejectsCut hsource) ?_
  exact (Checked.u64_rejectsCut k.nonce).bind_pure

theorem KeyTransfer.rejectsCut (t : KeyTransfer) (hkeyId : t.keyId.bytes.length < 2 ^ 32)
    (hreason : t.reason.bytes.length < 2 ^ 32) : RejectsCut decoder t.toBytes := by
  have hbytes : t.toBytes = (leBytes 4 t.keyId.bytes.length ++ t.keyId.bytes) ++
      (t.fromNode.id.bytes ++ (t.toNode.id.bytes ++ ([t.keyType.toByte] ++
        (u64Bytes t.transferTimestamp ++ ((leBytes 4 t.reason.bytes.length ++ t.reason.bytes) ++
          t.fromSignature.bytes))))) := by
    simp only [toBytes, signedBytes, List.append_assoc]
  rw [hbytes]
  refine RejectsCut.bind (Checked.counted_decodes hkeyId) (Checked.counted_rejectsCut hkeyId) ?_
  refine RejectsCut.bind (Checked.fixed_decodes _) (Checked.fixed_rejectsCut _) ?_
  refine RejectsCut.bind (Checked.fixed_decodes _) (Checked.fixed_rejectsCut _) ?_
  refine RejectsCut.bind (Checked.byte_decodes _) (Checked.byte_rejectsCut _) ?_
  refine RejectsCut.bind (Checked.u64_decodes _) (Checked.u64_rejectsCut _) ?_
  refine RejectsCut.bind (Checked.counted_decodes hreason) (Checked.counted_rejectsCut hreason) ?_
  exact (Checked.fixed_rejectsCut t.fromSignature).bind_pure

theorem KeyVouch.rejectsCut (v : KeyVouch) (hstatement : v.statement.bytes.length < 2 ^ 32) :
    RejectsCut decoder v.toBytes := by
  have hbytes : v.toBytes = v.voucher.id.bytes ++ (v.vouchee.id.bytes ++ ([v.keyType.toByte] ++
      (u32Bytes v.keyCount ++ (u64Bytes v.vouchTimestamp ++
        ((leBytes 4 v.statement.bytes.length ++ v.statement.bytes) ++
          v.voucherSignature.bytes))))) := by
    simp only [toBytes, signedBytes, List.append_assoc]
  rw [hbytes]
  refine RejectsCut.bind (Checked.fixed_decodes _) (Checked.fixed_rejectsCut _) ?_
  refine RejectsCut.bind (Checked.fixed_decodes _) (Checked.fixed_rejectsCut _) ?_
  refine RejectsCut.bind (Checked.byte_decodes _) (Checked.byte_rejectsCut _) ?_
  refine RejectsCut.bind (Checked.u32_decodes _) (Checked.u32_rejectsCut _) ?_
  refine RejectsCut.bind (Checked.u64_decodes _) (Checked.u64_rejectsCut _) ?_
  refine RejectsCut.bind (Checked.counted_decodes hstatement)
    (Checked.counted_rejectsCut hstatement) ?_
  exact (Checked.fixed_rejectsCut v.voucherSignature).bind_pure

/-! ## The files -/

namespace KeyStore

/-- `KeyStore::get_key_path`, in its directory. -/
def getKeyPath (keyId : Text) : Text := ⟨keyId.bytes ++ (Text.ofString ".key").bytes⟩

/-- `KeyStore::get_transfer_path`, in its directory. -/
def getTransferPath (transferId : Text) : Text :=
  ⟨transferId.bytes ++ (Text.ofString ".transfer").bytes⟩

/-- `KeyStore::get_vouch_path`, in its directory. -/
def getVouchPath (vouchId : Text) : Text := ⟨vouchId.bytes ++ (Text.ofString ".vouch").bytes⟩

/-- The id that `save_transfer` makes. -/
def transferId (t : KeyTransfer) : Text :=
  ⟨t.keyId.bytes ++ 95 :: (Text.decimal t.transferTimestamp.toNat).bytes⟩

/-- The id that `save_vouch` makes. -/
def vouchId (v : KeyVouch) : Text :=
  ⟨(Text.hashToHex v.vouchee.id).bytes ++ 95 :: (Text.decimal v.vouchTimestamp.toNat).bytes⟩

/-- The files of keys. -/
def keyFormat (H : Bytes → Hash256) : RecordFormat Key Text where
  name k := getKeyPath (k.getKeyId H)
  encode := Key.serialize
  parse data := (Key.deserialize data).toOption
  Fits k := k.source.bytes.length < 2 ^ 32
  parse_take k hsource := RejectsCut.run_take (k.decodes hsource) (k.rejectsCut hsource)

/-- The files of transfers. -/
def transferFormat : RecordFormat KeyTransfer Text where
  name t := getTransferPath (transferId t)
  encode := KeyTransfer.toBytes
  parse data := (KeyTransfer.fromBytes data).toOption
  Fits t := t.keyId.bytes.length < 2 ^ 32 ∧ t.reason.bytes.length < 2 ^ 32
  parse_take t h := RejectsCut.run_take (t.decodes h.1 h.2) (t.rejectsCut h.1 h.2)

/-- The files of vouches. -/
def vouchFormat : RecordFormat KeyVouch Text where
  name v := getVouchPath (vouchId v)
  encode := KeyVouch.toBytes
  parse data := (KeyVouch.fromBytes data).toOption
  Fits v := v.statement.bytes.length < 2 ^ 32
  parse_take v hstatement := RejectsCut.run_take (v.decodes hstatement) (v.rejectsCut hstatement)

end KeyStore

/-- `KeyStore`: the files in its three directories. -/
structure KeyStore where
  keys : OrdMap Text Bytes := .empty
  transfers : OrdMap Text Bytes := .empty
  vouches : OrdMap Text Bytes := .empty

namespace KeyStore

variable (H : Bytes → Hash256) (s : KeyStore)

/-- `KeyStore::save_key`. -/
def saveKey (key : Key) (write : FileWrite) : KeyStore × Bool :=
  ({ s with keys := (keyFormat H).save s.keys key write }, write.opened && write.good)

/-- `KeyStore::delete_key`. -/
def deleteKey (keyId : Text) : KeyStore × Bool :=
  ({ s with keys := s.keys.erase (getKeyPath keyId) }, s.keys.contains (getKeyPath keyId))

/-- `KeyStore::save_transfer`. -/
def saveTransfer (transfer : KeyTransfer) (write : FileWrite) : KeyStore × Bool :=
  ({ s with transfers := transferFormat.save s.transfers transfer write },
    write.opened && write.good)

/-- `KeyStore::save_vouch`. -/
def saveVouch (vouch : KeyVouch) (write : FileWrite) : KeyStore × Bool :=
  ({ s with vouches := vouchFormat.save s.vouches vouch write }, write.opened && write.good)

/-- `KeyStore::clear_all`. The directories are there, so removing each of them counts. -/
def clearAll (_ : KeyStore) : KeyStore × Bool := ({}, true)

end KeyStore

/-- A call that changes the store. -/
inductive KeyStoreCall where
  | saveKey (key : Key) (write : FileWrite)
  | deleteKey (keyId : Text)
  | saveTransfer (transfer : KeyTransfer) (write : FileWrite)
  | saveVouch (vouch : KeyVouch) (write : FileWrite)
  | clearAll

/-- A store driven by calls. -/
def keyStoreMachine (H : Bytes → Hash256) : Machine KeyStore KeyStoreCall Bool where
  step s
    | .saveKey key write => (s.saveKey H key write).map id ([·])
    | .deleteKey keyId => (s.deleteKey keyId).map id ([·])
    | .saveTransfer transfer write => (s.saveTransfer transfer write).map id ([·])
    | .saveVouch vouch write => (s.saveVouch vouch write).map id ([·])
    | .clearAll => s.clearAll.map id ([·])

end Cashew
