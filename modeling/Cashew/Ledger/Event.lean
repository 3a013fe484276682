import Cashew.Common
import Cashew.Lib.Wire

/-!
# Ledger events

`core/ledger/ledger.hpp` and the first half of `core/ledger/ledger.cpp`: the
event record, its byte layout and its hash, and the payloads that key,
membership, replication and reputation events carry in their `data`.
-/

namespace Cashew

open Cashew.Lib

/-! ## Enumerations -/

/-- `EventType : uint8_t`. -/
inductive EventType where
  | nodeJoined
  | nodeLeft
  | keyIssued
  | keyTransferred
  | keyRevoked
  | keyDecayed
  | networkCreated
  | networkInvitationSent
  | networkInvitationAccepted
  | networkMemberAdded
  | networkMemberRemoved
  | networkDisbanded
  | thingCreated
  | thingReplicated
  | thingRemoved
  | reputationUpdated
  | attestationCreated
  | vouchCreated
  | powSolutionSubmitted
  | postakeContribution
  | identityCreated
  | identityRotated
  | identityRevoked
  deriving DecidableEq

instance : Enumeration EventType where
  all := [.nodeJoined, .nodeLeft, .keyIssued, .keyTransferred, .keyRevoked, .keyDecayed,
    .networkCreated, .networkInvitationSent, .networkInvitationAccepted, .networkMemberAdded,
    .networkMemberRemoved, .networkDisbanded, .thingCreated, .thingReplicated, .thingRemoved,
    .reputationUpdated, .attestationCreated, .vouchCreated, .powSolutionSubmitted,
    .postakeContribution, .identityCreated, .identityRotated, .identityRevoked]
  code
    | .nodeJoined => 1
    | .nodeLeft => 2
    | .keyIssued => 10
    | .keyTransferred => 11
    | .keyRevoked => 12
    | .keyDecayed => 13
    | .networkCreated => 20
    | .networkInvitationSent => 21
    | .networkInvitationAccepted => 22
    | .networkMemberAdded => 23
    | .networkMemberRemoved => 24
    | .networkDisbanded => 25
    | .thingCreated => 30
    | .thingReplicated => 31
    | .thingRemoved => 32
    | .reputationUpdated => 40
    | .attestationCreated => 41
    | .vouchCreated => 42
    | .powSolutionSubmitted => 50
    | .postakeContribution => 51
    | .identityCreated => 60
    | .identityRotated => 61
    | .identityRevoked => 62
  complete e := by cases e <;> decide
  codes_nodup := by decide

/-- `core::KeyType : uint8_t`. -/
inductive KeyType where
  | identity
  | node
  | network
  | service
  | routing
  deriving DecidableEq

instance : Enumeration KeyType where
  all := [.identity, .node, .network, .service, .routing]
  code
    | .identity => 1
    | .node => 2
    | .network => 3
    | .service => 4
    | .routing => 5
  complete e := by cases e <;> decide
  codes_nodup := by decide

/-- `IssuanceMethod : uint8_t`. -/
inductive IssuanceMethod where
  | pow
  | postake
  | vouched
  deriving DecidableEq

instance : Enumeration IssuanceMethod where
  all := [.pow, .postake, .vouched]
  code
    | .pow => 1
    | .postake => 2
    | .vouched => 3
  complete e := by cases e <;> decide
  codes_nodup := by decide

/-! ## The event record -/

/-- `LedgerEvent`. -/
structure LedgerEvent where
  eventId : Hash256
  eventType : Wire EventType
  sourceNode : NodeID
  timestamp : UInt64
  epoch : UInt64
  previousHash : Hash256
  data : Bytes
  signature : Signature
  deriving DecidableEq

namespace LedgerEvent

/-- `LedgerEvent::to_bytes`. -/
def toBytes (e : LedgerEvent) : Bytes :=
  e.eventId.bytes ++ ([e.eventType.toByte] ++ (e.sourceNode.id.bytes ++
    (u64Bytes e.timestamp ++ (u64Bytes e.epoch ++ (e.previousHash.bytes ++
      (leBytes 4 e.data.length ++ (e.data ++ e.signature.bytes)))))))

/-- The bytes of an event without its variable part:
`32 + 1 + 32 + 8 + 8 + 32 + 4 + 64`. -/
def minSize : Nat := 32 + 1 + 32 + 8 + 8 + 32 + 4 + 64

/-- The reads of `LedgerEvent::from_bytes`. -/
def decoder : Decoder LedgerEvent := do
  Decoder.require minSize
  let eventId ← FixedBytes.decoder 32
  let eventType ← Decoder.byte
  let sourceNode ← FixedBytes.decoder 32
  let timestamp ← Decoder.u64
  let epoch ← Decoder.u64
  let previousHash ← FixedBytes.decoder 32
  let dataLen ← Decoder.le 4
  -- `offset + data_len + 64 > bytes.size()`
  Decoder.require (dataLen + 64)
  let data ← Decoder.take dataLen
  let signature ← FixedBytes.decoder 64
  pure {
    eventId, eventType := Wire.ofByte eventType, sourceNode := ⟨sourceNode⟩, timestamp, epoch,
    previousHash, data, signature }

/-- `LedgerEvent::from_bytes`. -/
def fromBytes (bytes : Bytes) : Outcome LedgerEvent := decoder.run bytes

/-- `LedgerEvent::compute_hash`. -/
def computeHash (H : Bytes → Hash256) (e : LedgerEvent) : Hash256 := H e.toBytes

theorem toBytes_length (e : LedgerEvent) : e.toBytes.length = minSize + e.data.length := by
  simp only [toBytes, minSize, List.length_append, List.length_singleton, FixedBytes.size,
    u64Bytes_length, leBytes_length]
  omega

/-- An event with fewer than `2 ^ 32` bytes of data is read back as written, in
any surrounding buffer. -/
theorem decodes (e : LedgerEvent) (hdata : e.data.length < 2 ^ 32) :
    Decodes decoder e.toBytes e := by
  have hlen : minSize ≤ e.toBytes.length := by
    rw [toBytes_length]
    omega
  have hlen4 : e.data.length < 256 ^ 4 := hdata
  have htail : e.data.length + 64 ≤ (e.data ++ e.signature.bytes).length := by
    rw [List.length_append, e.signature.size]
  apply Decodes.require_bind hlen
  refine (FixedBytes.decodes _).bind ?_
  refine (Decodes.byte _).bind ?_
  refine (FixedBytes.decodes _).bind ?_
  refine (Decodes.u64 _).bind ?_
  refine (Decodes.u64 _).bind ?_
  refine (FixedBytes.decodes _).bind ?_
  refine (Decodes.le hlen4).bind ?_
  apply Decodes.require_bind htail
  refine (Decodes.take rfl).bind ?_
  rw [Wire.ofByte_toByte]
  exact (FixedBytes.decodes e.signature).bind_pure (f := fun signature => { e with signature })

/-- `from_bytes` undoes `to_bytes`. -/
theorem fromBytes_toBytes (e : LedgerEvent) (hdata : e.data.length < 2 ^ 32) :
    fromBytes e.toBytes = .value e :=
  (e.decodes hdata).run

/-- The size test at the top and the one in front of the data cover every read. -/
theorem decoder_inBounds (n : Nat) : InBounds decoder n := by
  apply InBounds.require_bind
  refine FixedBytes.decoder_inBounds (m := 1 + 32 + 8 + 8 + 32 + 4 + 64) fun _ => ?_
  refine InBounds.byte_bind (n := 32 + 8 + 8 + 32 + 4 + 64) fun _ => ?_
  refine FixedBytes.decoder_inBounds (m := 8 + 8 + 32 + 4 + 64) fun _ => ?_
  refine InBounds.u64_bind (n := 8 + 32 + 4 + 64) fun _ => ?_
  refine InBounds.u64_bind (n := 32 + 4 + 64) fun _ => ?_
  refine FixedBytes.decoder_inBounds (m := 4 + 64) fun _ => ?_
  refine InBounds.le_bind fun dataLen _ => ?_
  apply InBounds.require_bind
  refine InBounds.take_bind fun _ _ => ?_
  exact FixedBytes.decoder_inBounds (m := 0) fun _ => InBounds.pure _ 0

/-- What is read back is what the bytes spell; bytes behind the signature are
left unread. -/
theorem decoder_spells : Spells [] decoder toBytes := by
  apply Spells.require_bind
  refine FixedBytes.decoder_spells fun eventId => ?_
  refine Spells.byte_bind fun eventType => ?_
  refine FixedBytes.decoder_spells fun sourceNode => ?_
  refine Spells.u64_bind fun timestamp => ?_
  refine Spells.u64_bind fun epoch => ?_
  refine FixedBytes.decoder_spells fun previousHash => ?_
  refine Spells.le_bind fun dataLen => ?_
  apply Spells.require_bind
  refine Spells.take_bind fun data hlen => ?_
  refine FixedBytes.decoder_spells fun signature => ?_
  apply Spells.pure
  simp only [toBytes, Wire.toByte_ofByte, hlen, List.append_assoc, List.nil_append]

/-- The layout determines the event, whatever the length of its data: all other
fields have fixed widths. -/
theorem toBytes_injective : Function.Injective toBytes := by
  intro a b h
  have hlen : a.data.length = b.data.length := by
    have := congrArg List.length h
    rw [toBytes_length, toBytes_length] at this
    omega
  unfold toBytes at h
  obtain ⟨hid, h⟩ := List.append_inj h (a.eventId.size.trans b.eventId.size.symm)
  obtain ⟨htype, h⟩ := List.append_inj h rfl
  obtain ⟨hsource, h⟩ := List.append_inj h (a.sourceNode.id.size.trans b.sourceNode.id.size.symm)
  obtain ⟨hts, h⟩ := List.append_inj h (by rw [u64Bytes_length, u64Bytes_length])
  obtain ⟨hepoch, h⟩ := List.append_inj h (by rw [u64Bytes_length, u64Bytes_length])
  obtain ⟨hprev, h⟩ := List.append_inj h (a.previousHash.size.trans b.previousHash.size.symm)
  obtain ⟨_, h⟩ := List.append_inj h (by rw [leBytes_length, leBytes_length])
  obtain ⟨hdata, hsig⟩ := List.append_inj h hlen
  have htype' : a.eventType = b.eventType := Wire.toByte_injective (List.singleton_inj.mp htype)
  have hsource' : a.sourceNode = b.sourceNode := NodeID.id_injective (FixedBytes.ext hsource)
  cases a
  cases b
  simp only [LedgerEvent.mk.injEq]
  exact ⟨FixedBytes.ext hid, htype', hsource', u64Bytes_injective hts, u64Bytes_injective hepoch,
    FixedBytes.ext hprev, hdata, FixedBytes.ext hsig⟩

end LedgerEvent

end Cashew
