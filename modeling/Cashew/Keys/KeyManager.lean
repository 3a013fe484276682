import Cashew.Keys.Key
import Cashew.Lib.Machine

/-!
# The key manager

`KeyManager` of `core/keys/key.cpp`: the keys by id, beside them the ids of each
owner, and the transfers and vouches executed so far. The counter `Key::create`
draws nonces from belongs to the process, so it stands beside the manager in the
state of the system; a process starts it at 1.

Log lines are left out, and calls are made one after another.
-/

namespace Cashew

open Cashew.Lib

variable {H : Bytes → Hash256}

/-- `KeyManager`. A key is stored under its own id. -/
structure KeyManager (H : Bytes → Hash256) where
  keys : OrdMap Text Key
  keyIndex : OrdMap NodeID (List Text)
  transferHistory : List KeyTransfer
  vouchRecords : List KeyVouch
  vouchCountsThisEpoch : OrdMap NodeID UInt32
  keyed : ∀ id key, keys.find? id = some key → key.getKeyId H = id

namespace KeyManager

def minKeysToTransfer : UInt32 := 1

def maxVouchPerEpoch : UInt32 := 3

/-- A manager as constructed. -/
def initial : KeyManager H where
  keys := OrdMap.empty
  keyIndex := OrdMap.empty
  transferHistory := []
  vouchRecords := []
  vouchCountsThisEpoch := OrdMap.empty
  keyed _ _ h := nomatch h

/-! ## The inventory -/

/-- `KeyManager::add_key`. A key that is there already is not stored again, but
its id goes into the index again. -/
def addKey (m : KeyManager H) (key : Key) : KeyManager H :=
  { m with
    keys := m.keys.insertNew (key.getKeyId H) key
    keyIndex := m.keyIndex.upsert key.owner [] (· ++ [key.getKeyId H])
    keyed := by
      intro id stored h
      rw [OrdMap.find?_insertNew] at h
      split at h
      · rename_i hid
        cases hold : m.keys.find? (key.getKeyId H) with
        | none =>
          rw [hold] at h
          cases h
          exact hid
        | some old =>
          rw [hold] at h
          cases h
          exact (m.keyed _ _ hold).trans hid
      · exact m.keyed id stored h }

/-- The manager without the key `id` of `owner`. -/
def dropKey (m : KeyManager H) (id : Text) (owner : NodeID) : KeyManager H :=
  { m with
    keys := m.keys.erase id
    keyIndex := m.keyIndex.upsert owner [] (·.filter (· ≠ id))
    keyed := by
      intro id' stored h
      rw [OrdMap.find?_erase] at h
      split at h
      · cases h
      · exact m.keyed id' stored h }

/-- `KeyManager::remove_key`. -/
def removeKey (m : KeyManager H) (id : Text) : KeyManager H × Bool :=
  match m.keys.find? id with
  | none => (m, false)
  | some key => (m.dropKey id key.owner, true)

/-- `KeyManager::get_key`. -/
def getKey (m : KeyManager H) (id : Text) : Option Key := m.keys.find? id

/-- The ids the index has for an owner. -/
def indexOf (m : KeyManager H) (owner : NodeID) : List Text := (m.keyIndex.find? owner).getD []

/-- `KeyManager::get_keys_by_owner`. -/
def getKeysByOwner (m : KeyManager H) (owner : NodeID) : List Key :=
  (m.indexOf owner).filterMap m.keys.find?

/-- `KeyManager::count_keys`. -/
def countKeys (m : KeyManager H) (owner : NodeID) (type : Wire KeyType) : UInt32 :=
  (m.indexOf owner).foldl
    (fun count id => if (m.keys.find? id).any (·.type = type) then count + 1 else count) 0

/-! ## Transfers and vouches -/

/-- `KeyManager::create_transfer`. -/
def createTransfer (ed : Ed25519) (m : KeyManager H) (now : Time) (unset : Signature)
    (keyId : Text) (fromNode toNode : NodeID) (reason : Text) (secretKey : SecretKey) :
    Option KeyTransfer :=
  match m.keys.find? keyId with
  | none => none
  | some key =>
    if key.owner ≠ fromNode then none
    else if m.countKeys fromNode key.type < minKeysToTransfer then none
    else
      let transfer : KeyTransfer :=
        { keyId, fromNode, toNode, keyType := key.type, transferTimestamp := now.secs, reason,
          fromSignature := unset }
      -- the signature at the end is cut off before signing
      let message := transfer.toBytes.take (transfer.toBytes.length - 64)
      some { transfer with fromSignature := ed.sign message secretKey }

/-- `KeyManager::can_vouch`. -/
def canVouch (m : KeyManager H) (voucher vouchee : NodeID) : Bool :=
  if voucher = vouchee then false
  else
    match m.vouchCountsThisEpoch.find? voucher with
    | some count => !(maxVouchPerEpoch ≤ count)
    | none => true

/-- `KeyManager::create_vouch`. -/
def createVouch (ed : Ed25519) (m : KeyManager H) (now : Time) (unset : Signature)
    (voucher vouchee : NodeID) (keyType : Wire KeyType) (keyCount : UInt32) (statement : Text)
    (secretKey : SecretKey) : Option KeyVouch :=
  if !m.canVouch voucher vouchee then none
  else
    let vouch : KeyVouch :=
      { voucher, vouchee, keyType, keyCount, vouchTimestamp := now.secs, statement,
        voucherSignature := unset }
    let message := vouch.toBytes.take (vouch.toBytes.length - 64)
    some { vouch with voucherSignature := ed.sign message secretKey }

/-- `transfer_history_.push_back(transfer)`. -/
def recordTransfer (m : KeyManager H) (t : KeyTransfer) : KeyManager H :=
  { m with transferHistory := m.transferHistory ++ [t] }

/-- `vouch_records_.push_back(vouch); vouch_counts_this_epoch_[vouch.voucher]++`. -/
def recordVouch (m : KeyManager H) (v : KeyVouch) : KeyManager H :=
  { m with
    vouchRecords := m.vouchRecords ++ [v]
    vouchCountsThisEpoch := m.vouchCountsThisEpoch.upsert v.voucher 0 (· + 1) }

end KeyManager

/-- A key manager and the counter of `Key::create`. -/
structure KeySystem (H : Bytes → Hash256) where
  manager : KeyManager H
  keyNonceCounter : UInt64

namespace KeySystem

/-- The key `execute_transfer` creates for the recipient. -/
def transferredKey (s : KeySystem H) (t : KeyTransfer) : Key :=
  Key.create t.keyType t.toNode t.transferTimestamp (Text.ofString "transferred") s.keyNonceCounter

/-- `KeyManager::execute_transfer`. -/
def executeTransfer (s : KeySystem H) (t : KeyTransfer) : KeySystem H × Bool :=
  match s.manager.getKey t.keyId with
  | none => (s, false)
  | some key =>
    if key.owner ≠ t.fromNode then (s, false)
    else
      let (removed, found) := s.manager.removeKey t.keyId
      if !found then ({ s with manager := removed }, false)
      else
        ({ manager := (removed.addKey (s.transferredKey t)).recordTransfer t
           keyNonceCounter := s.keyNonceCounter + 1 }, true)

/-- `count` rounds of the loop of `execute_vouch`. -/
def issueKeys (v : KeyVouch) (now : UInt64) : Nat → KeySystem H → KeySystem H
  | 0, s => s
  | count + 1, s =>
    let key := Key.create v.keyType v.vouchee now (Text.ofString "vouched") s.keyNonceCounter
    issueKeys v now count
      { manager := s.manager.addKey key, keyNonceCounter := s.keyNonceCounter + 1 }

/-- `KeyManager::execute_vouch`, which always succeeds. -/
def executeVouch (s : KeySystem H) (v : KeyVouch) (now : UInt64) : KeySystem H :=
  let issued := issueKeys v now v.keyCount.toNat s
  { issued with manager := issued.manager.recordVouch v }

end KeySystem

/-! ## Runs -/

/-- The calls that change a key manager, and `create_vouch`. -/
inductive KeyInput where
  | addKey (key : Key)
  | removeKey (id : Text)
  | executeTransfer (t : KeyTransfer)
  | createVouch (now : Time) (unset : Signature) (voucher vouchee : NodeID)
      (keyType : Wire KeyType) (keyCount : UInt32) (statement : Text) (secretKey : SecretKey)
  | executeVouch (v : KeyVouch) (now : UInt64)

/-- The state after one call. -/
def KeySystem.call (s : KeySystem H) : KeyInput → KeySystem H
  | .addKey key => { s with manager := s.manager.addKey key }
  | .removeKey id => { s with manager := (s.manager.removeKey id).1 }
  | .executeTransfer t => (s.executeTransfer t).1
  | .createVouch .. => s
  | .executeVouch v now => s.executeVouch v now

/-- The vouch a call returns. -/
def KeySystem.created (ed : Ed25519) (s : KeySystem H) : KeyInput → Option KeyVouch
  | .createVouch now unset voucher vouchee keyType keyCount statement secretKey =>
    s.manager.createVouch ed now unset voucher vouchee keyType keyCount statement secretKey
  | _ => none

/-- A key manager driven by calls; it shows the vouches they return. -/
def keyMachine (ed : Ed25519) : Machine (KeySystem H) KeyInput KeyVouch where
  step s input := (s.call input, (s.created ed input).toList)

/-- A transfer that succeeded, with the states before and after it. -/
structure Transferred (H : Bytes → Hash256) where
  before : KeySystem H
  transfer : KeyTransfer
  after : KeySystem H

/-- A key manager driven by `execute_transfer`; it shows the transfers that
succeed. -/
def transferMachine : Machine (KeySystem H) KeyTransfer (Transferred H) where
  step s t :=
    ((s.executeTransfer t).1,
      if (s.executeTransfer t).2 then [⟨s, t, (s.executeTransfer t).1⟩] else [])

end Cashew
