import Cashew.Ledger.Event

/-!
# Event payloads

The records `core/ledger/ledger.cpp` packs into an event's `data`. Strings are
byte strings; their length field has 16 bits. The decoders keep the source's
size tests, so a payload that is too short is rejected and trailing bytes are
ignored.
-/

namespace Cashew

open Cashew.Lib

/-- `KeyIssuanceData`. -/
structure KeyIssuanceData where
  keyType : Wire KeyType
  count : UInt32
  method : Wire IssuanceMethod
  proof : Hash256
  deriving DecidableEq

namespace KeyIssuanceData

/-- `KeyIssuanceData::to_bytes`. -/
def toBytes (d : KeyIssuanceData) : Bytes :=
  [d.keyType.toByte] ++ (u32Bytes d.count ++ ([d.method.toByte] ++ d.proof.bytes))

/-- The reads of `KeyIssuanceData::from_bytes`. -/
def decoder : Decoder KeyIssuanceData := do
  Decoder.require (1 + 4 + 1 + 32)
  let keyType ← Decoder.byte
  let count ← Decoder.u32
  let method ← Decoder.byte
  let proof ← FixedBytes.decoder 32
  pure { keyType := Wire.ofByte keyType, count, method := Wire.ofByte method, proof }

/-- `KeyIssuanceData::from_bytes`. -/
def fromBytes (bytes : Bytes) : Outcome KeyIssuanceData := decoder.run bytes

theorem fromBytes_toBytes (d : KeyIssuanceData) : fromBytes d.toBytes = .value d := by
  have hlen : 1 + 4 + 1 + 32 ≤ d.toBytes.length := by
    simp [toBytes, FixedBytes.size]
  refine Decodes.run (Decodes.require_bind hlen ?_)
  refine (Decodes.byte _).bind ?_
  refine (Decodes.u32 _).bind ?_
  refine (Decodes.byte _).bind ?_
  rw [Wire.ofByte_toByte, Wire.ofByte_toByte]
  exact (FixedBytes.decodes d.proof).bind_pure (f := fun proof => { d with proof })

theorem fromBytes_inBounds (bytes : Bytes) : fromBytes bytes ≠ .outOfBounds := by
  refine InBounds.run (InBounds.require_bind ?_)
  refine InBounds.byte_bind (n := 4 + 1 + 32) fun _ => ?_
  refine InBounds.u32_bind (n := 1 + 32) fun _ => ?_
  refine InBounds.byte_bind (n := 32) fun _ => ?_
  exact FixedBytes.decoder_inBounds (m := 0) fun _ => InBounds.pure _ 0

end KeyIssuanceData

/-- `NetworkMembershipData`. -/
structure NetworkMembershipData where
  networkId : Hash256
  memberNode : NodeID
  role : Bytes
  deriving DecidableEq

namespace NetworkMembershipData

/-- `NetworkMembershipData::to_bytes`. -/
def toBytes (d : NetworkMembershipData) : Bytes :=
  d.networkId.bytes ++ (d.memberNode.id.bytes ++ (leBytes 2 d.role.length ++ d.role))

/-- The reads of `NetworkMembershipData::from_bytes`. -/
def decoder : Decoder NetworkMembershipData := do
  Decoder.require (32 + 32 + 2)
  let networkId ← FixedBytes.decoder 32
  let memberNode ← FixedBytes.decoder 32
  let roleLen ← Decoder.le 2
  Decoder.require roleLen
  let role ← Decoder.take roleLen
  pure { networkId, memberNode := ⟨memberNode⟩, role }

/-- `NetworkMembershipData::from_bytes`. -/
def fromBytes (bytes : Bytes) : Outcome NetworkMembershipData := decoder.run bytes

/-- The length of the role is written in 16 bits, and so much of the role comes back as
these say. -/
theorem fromBytes_toBytes_eq (d : NetworkMembershipData) :
    fromBytes d.toBytes = .value { d with role := d.role.take (d.role.length % 256 ^ 2) } := by
  have hlen : 32 + 32 + 2 ≤ d.toBytes.length := by
    simp only [toBytes, List.length_append, FixedBytes.size, leBytes_length]
    omega
  have hkept : d.role.length % 256 ^ 2 ≤ d.role.length := Nat.mod_le _ _
  unfold fromBytes Decoder.run decoder
  rw [Decoder.require_bind_of_le hlen]
  unfold toBytes
  rw [(FixedBytes.decodes _).bind_append, (FixedBytes.decodes _).bind_append,
    (Decodes.le_mod 2 _).bind_append, Decoder.require_bind_of_le hkept,
    Decoder.take_bind_of_le hkept]
  rfl

/-- A role of at most 65535 bytes comes back whole, and no longer one does. -/
theorem fromBytes_toBytes_iff (d : NetworkMembershipData) :
    fromBytes d.toBytes = .value d ↔ d.role.length < 65536 := by
  have hwidth : (256 : Nat) ^ 2 = 65536 := by norm_num
  rw [fromBytes_toBytes_eq, hwidth]
  constructor
  · intro h
    injection h with hsame
    have hrole := congrArg (fun d => d.role.length) hsame
    have hlt := Nat.mod_lt d.role.length (y := 65536) (by omega)
    simp only [List.length_take] at hrole
    omega
  · intro h
    rw [Nat.mod_eq_of_lt h, List.take_length]

theorem fromBytes_inBounds (bytes : Bytes) : fromBytes bytes ≠ .outOfBounds := by
  refine InBounds.run (InBounds.require_bind ?_)
  refine FixedBytes.decoder_inBounds (m := 32 + 2) fun _ => ?_
  refine FixedBytes.decoder_inBounds (m := 2) fun _ => ?_
  refine InBounds.le_bind (n := 0) fun _ _ => InBounds.require_bind ?_
  exact InBounds.take_bind (n := 0) fun _ _ => InBounds.pure _ 0

end NetworkMembershipData

/-- `ThingReplicationData`. -/
structure ThingReplicationData where
  contentHash : ContentHash
  networkId : Hash256
  hostingNode : NodeID
  sizeBytes : UInt64
  deriving DecidableEq

namespace ThingReplicationData

/-- `ThingReplicationData::to_bytes`. -/
def toBytes (d : ThingReplicationData) : Bytes :=
  d.contentHash.hash.bytes ++ (d.networkId.bytes ++
    (d.hostingNode.id.bytes ++ u64Bytes d.sizeBytes))

/-- The reads of `ThingReplicationData::from_bytes`. -/
def decoder : Decoder ThingReplicationData := do
  Decoder.require (32 + 32 + 32 + 8)
  let contentHash ← FixedBytes.decoder 32
  let networkId ← FixedBytes.decoder 32
  let hostingNode ← FixedBytes.decoder 32
  let sizeBytes ← Decoder.u64
  pure { contentHash := ⟨contentHash⟩, networkId, hostingNode := ⟨hostingNode⟩, sizeBytes }

/-- `ThingReplicationData::from_bytes`. -/
def fromBytes (bytes : Bytes) : Outcome ThingReplicationData := decoder.run bytes

theorem fromBytes_toBytes (d : ThingReplicationData) : fromBytes d.toBytes = .value d := by
  have hlen : 32 + 32 + 32 + 8 ≤ d.toBytes.length := by
    simp [toBytes, FixedBytes.size]
  refine Decodes.run (Decodes.require_bind hlen ?_)
  refine (FixedBytes.decodes _).bind ?_
  refine (FixedBytes.decodes _).bind ?_
  refine (FixedBytes.decodes _).bind ?_
  exact (Decodes.u64 d.sizeBytes).bind_pure (f := fun sizeBytes => { d with sizeBytes })

theorem fromBytes_inBounds (bytes : Bytes) : fromBytes bytes ≠ .outOfBounds := by
  refine InBounds.run (InBounds.require_bind ?_)
  refine FixedBytes.decoder_inBounds (m := 32 + 32 + 8) fun _ => ?_
  refine FixedBytes.decoder_inBounds (m := 32 + 8) fun _ => ?_
  refine FixedBytes.decoder_inBounds (m := 8) fun _ => ?_
  exact InBounds.u64_bind (n := 0) fun _ => InBounds.pure _ 0

end ThingReplicationData

/-- `ReputationUpdateData`. -/
structure ReputationUpdateData where
  subjectNode : NodeID
  scoreDelta : Int32
  reason : Bytes
  evidence : Hash256
  deriving DecidableEq

namespace ReputationUpdateData

/-- `ReputationUpdateData::to_bytes`: the signed delta is written in two's
complement. -/
def toBytes (d : ReputationUpdateData) : Bytes :=
  d.subjectNode.id.bytes ++ (u32Bytes d.scoreDelta.toUInt32 ++
    (leBytes 2 d.reason.length ++ (d.reason ++ d.evidence.bytes)))

/-- The reads of `ReputationUpdateData::from_bytes`. -/
def decoder : Decoder ReputationUpdateData := do
  Decoder.require (32 + 4 + 2 + 32)
  let subjectNode ← FixedBytes.decoder 32
  let scoreDelta ← Decoder.u32
  let reasonLen ← Decoder.le 2
  Decoder.require (reasonLen + 32)
  let reason ← Decoder.take reasonLen
  let evidence ← FixedBytes.decoder 32
  pure { subjectNode := ⟨subjectNode⟩, scoreDelta := scoreDelta.toInt32, reason, evidence }

/-- `ReputationUpdateData::from_bytes`. -/
def fromBytes (bytes : Bytes) : Outcome ReputationUpdateData := decoder.run bytes

/-- The delta comes back with its sign, a reason of at most 65535 bytes whole. -/
theorem fromBytes_toBytes {d : ReputationUpdateData} (h : d.reason.length < 65536) :
    fromBytes d.toBytes = .value d := by
  have hlen : 32 + 4 + 2 + 32 ≤ d.toBytes.length := by
    simp only [toBytes, List.length_append, FixedBytes.size, leBytes_length, u32Bytes_length]
    omega
  have hreason : d.reason.length < 256 ^ 2 := h
  have htail : d.reason.length + 32 ≤ (d.reason ++ d.evidence.bytes).length := by
    rw [List.length_append, d.evidence.size]
  refine Decodes.run (Decodes.require_bind hlen ?_)
  refine (FixedBytes.decodes _).bind ?_
  refine (Decodes.u32 _).bind ?_
  refine (Decodes.le hreason).bind ?_
  apply Decodes.require_bind htail
  refine (Decodes.take rfl).bind ?_
  rw [Int32.toInt32_toUInt32]
  exact (FixedBytes.decodes d.evidence).bind_pure (f := fun evidence => { d with evidence })

/-- No reason that is read is longer. -/
theorem reason_lt_of_fromBytes {bytes : Bytes} {d : ReputationUpdateData}
    (h : fromBytes bytes = .value d) : d.reason.length < 65536 := by
  refine Yields.run (P := fun d : ReputationUpdateData => d.reason.length < 65536) ?_ h
  refine Yields.skip fun _ => ?_
  refine Yields.skip fun _ => ?_
  refine Yields.skip fun _ => ?_
  refine (Yields.le 2).bind fun reasonLen hlt => ?_
  refine Yields.skip fun _ => ?_
  refine (Yields.take reasonLen).bind fun reason hlen => ?_
  refine Yields.skip fun _ => Yields.pure ?_
  rw [hlen]
  exact hlt

theorem fromBytes_inBounds (bytes : Bytes) : fromBytes bytes ≠ .outOfBounds := by
  refine InBounds.run (InBounds.require_bind ?_)
  refine FixedBytes.decoder_inBounds (m := 4 + 2 + 32) fun _ => ?_
  refine InBounds.u32_bind (n := 2 + 32) fun _ => ?_
  refine InBounds.le_bind (n := 32) fun _ _ => InBounds.require_bind ?_
  refine InBounds.take_bind (n := 32) fun _ _ => ?_
  exact FixedBytes.decoder_inBounds (m := 0) fun _ => InBounds.pure _ 0

end ReputationUpdateData

end Cashew
