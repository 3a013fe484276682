import Cashew.Network.Network
import Cashew.Utils.CheckedReads

/-!
# The byte layout of networks

`Network::serialize` and `Network::deserialize`. Quorum values, which are
`size_t`, and the two counts are written in 32 bits; every read tests the size
first. `deserialize_serialize_iff`: a network comes back as it was exactly when
these numbers fit.
-/

namespace Cashew

open Cashew.Lib

/-! ## Members and invitations -/

namespace NetworkMember

def serialize (m : NetworkMember) : Bytes :=
  m.nodeId.id.bytes ++ (m.publicKey.bytes ++ ([m.role.toByte] ++ (u64Bytes m.joinedTimestamp ++
    (u64Bytes m.lastSeenTimestamp ++ ([if m.hasCompleteReplica then 1 else 0] ++
      u32Bytes m.reliabilityScore)))))

/-- One round of the loop over the members. -/
def decoder : Decoder NetworkMember := do
  let nodeId ← Checked.fixed 32
  let publicKey ← Checked.fixed 32
  let role ← Checked.byte
  let joinedTimestamp ← Checked.u64
  let lastSeenTimestamp ← Checked.u64
  let hasReplica ← Checked.byte
  let reliabilityScore ← Checked.u32
  pure {
    nodeId := ⟨nodeId⟩, publicKey, role := Wire.ofByte role, joinedTimestamp, lastSeenTimestamp,
    hasCompleteReplica := hasReplica != 0, reliabilityScore }

theorem decodes (m : NetworkMember) : Decodes decoder m.serialize m := by
  have hreplica : ((if m.hasCompleteReplica then 1 else 0 : UInt8) != 0) =
      m.hasCompleteReplica := by
    cases m.hasCompleteReplica <;> rfl
  refine (Checked.fixed_decodes _).bind ?_
  refine (Checked.fixed_decodes _).bind ?_
  refine (Checked.byte_decodes _).bind ?_
  refine (Checked.u64_decodes _).bind ?_
  refine (Checked.u64_decodes _).bind ?_
  refine (Checked.byte_decodes _).bind ?_
  rw [Wire.ofByte_toByte, hreplica]
  exact (Checked.u32_decodes m.reliabilityScore).bind_pure
    (f := fun reliabilityScore => { m with reliabilityScore })

end NetworkMember

namespace PendingInvitation

def serialize (p : PendingInvitation) : Bytes :=
  p.invitation.networkId.id.bytes ++ (p.invitation.inviterId.id.bytes ++
    (p.invitation.inviteeId.id.bytes ++ (p.invitation.inviterPublicKey.bytes ++
      ([p.invitation.proposedRole.toByte] ++ (u64Bytes p.invitation.expiresTimestamp ++
        (p.invitation.signature.bytes ++ u64Bytes p.createdTimestamp))))))

/-- One round of the loop over the pending invitations. -/
def decoder : Decoder PendingInvitation := do
  let networkId ← Checked.fixed 32
  let inviterId ← Checked.fixed 32
  let inviteeId ← Checked.fixed 32
  let inviterPublicKey ← Checked.fixed 32
  let role ← Checked.byte
  let expiresTimestamp ← Checked.u64
  let signature ← Checked.fixed 64
  let createdTimestamp ← Checked.u64
  pure {
    invitation := {
      networkId := ⟨networkId⟩, inviterId := ⟨inviterId⟩, inviteeId := ⟨inviteeId⟩,
      inviterPublicKey, proposedRole := Wire.ofByte role, expiresTimestamp, signature }
    createdTimestamp }

theorem decodes (p : PendingInvitation) : Decodes decoder p.serialize p := by
  refine (Checked.fixed_decodes _).bind ?_
  refine (Checked.fixed_decodes _).bind ?_
  refine (Checked.fixed_decodes _).bind ?_
  refine (Checked.fixed_decodes _).bind ?_
  refine (Checked.byte_decodes _).bind ?_
  refine (Checked.u64_decodes _).bind ?_
  refine (Checked.fixed_decodes _).bind ?_
  rw [Wire.ofByte_toByte]
  exact (Checked.u64_decodes p.createdTimestamp).bind_pure
    (f := fun createdTimestamp => { p with createdTimestamp })

end PendingInvitation

/-! ## The network -/

namespace Network

/-- `CSNW`. -/
def magic : Bytes := [67, 83, 78, 87]

/-- The header of a file, with the network's id and its Thing. -/
def headerBytes (n : Network) : Bytes :=
  magic ++ (u32Bytes 1 ++ (n.networkId.id.bytes ++ n.thingHash.hash.bytes))

/-- Everything behind the header. -/
def bodyBytes (n : Network) : Bytes :=
  u32Bytes n.quorum.minReplicas.toUInt32 ++ (u32Bytes n.quorum.targetReplicas.toUInt32 ++
    (u32Bytes n.quorum.maxReplicas.toUInt32 ++ (u64Bytes n.createdTimestamp ++
      (leBytes 4 n.members.length ++ (n.members.flatMap NetworkMember.serialize ++
        (leBytes 4 n.pendingInvitations.length ++
          n.pendingInvitations.flatMap PendingInvitation.serialize))))))

/-- `Network::serialize`. -/
def serialize (n : Network) : Bytes := n.headerBytes ++ n.bodyBytes

/-- The reads of the header: the size test at the top covers the magic bytes. -/
def headerDecoder : Decoder (NetworkID × ContentHash) := do
  Decoder.require (8 + 32 + 32)
  let found ← Decoder.take 4
  if found ≠ magic then Decoder.reject
  else
    let version ← Checked.u32
    if version ≠ 1 then Decoder.reject
    else
      let networkId ← Checked.fixed 32
      let thingHash ← Checked.fixed 32
      pure (⟨networkId⟩, ⟨thingHash⟩)

/-- The reads behind the header. -/
def bodyDecoder (networkId : NetworkID) (thingHash : ContentHash) : Decoder Network := do
  let minReplicas ← Checked.u32
  let targetReplicas ← Checked.u32
  let maxReplicas ← Checked.u32
  let createdTimestamp ← Checked.u64
  let memberCount ← Checked.u32
  let members ← Decoder.replicate NetworkMember.decoder memberCount.toNat
  let pendingCount ← Checked.u32
  let pendingInvitations ← Decoder.replicate PendingInvitation.decoder pendingCount.toNat
  pure {
    networkId, thingHash, members
    quorum := {
      minReplicas := minReplicas.toUInt64, targetReplicas := targetReplicas.toUInt64
      maxReplicas := maxReplicas.toUInt64 }
    createdTimestamp, pendingInvitations }

/-- The reads of `Network::deserialize`. -/
def decoder : Decoder Network := do
  let header ← headerDecoder
  bodyDecoder header.1 header.2

/-- `Network::deserialize`. -/
def deserialize (data : Bytes) : Outcome Network := decoder.run data

/-- The numbers written in 32 bits fit. -/
structure Fits (n : Network) : Prop where
  minReplicas : n.quorum.minReplicas.toNat < 2 ^ 32
  targetReplicas : n.quorum.targetReplicas.toNat < 2 ^ 32
  maxReplicas : n.quorum.maxReplicas.toNat < 2 ^ 32
  members : n.members.length < 2 ^ 32
  pendingInvitations : n.pendingInvitations.length < 2 ^ 32

theorem header_decodes (n : Network) :
    Decodes headerDecoder n.headerBytes (n.networkId, n.thingHash) := by
  have hlen : 8 + 32 + 32 ≤ n.headerBytes.length := by
    simp [headerBytes, magic, FixedBytes.size]
  have hmagic : Decodes (Decoder.take 4) magic magic := Decodes.take rfl
  refine Decodes.require_bind hlen ?_
  refine hmagic.bind ?_
  rw [if_neg (fun h => h rfl)]
  refine (Checked.u32_decodes 1).bind ?_
  rw [if_neg (fun h => h rfl)]
  refine (Checked.fixed_decodes _).bind ?_
  exact (Checked.fixed_decodes n.thingHash.hash).bind_pure
    (f := fun thingHash => (n.networkId, ContentHash.mk thingHash))

/-- A quorum value below `2 ^ 32` survives the cast to 32 bits and back. -/
theorem toUInt64_toUInt32 {x : UInt64} (h : x.toNat < 2 ^ 32) : x.toUInt32.toUInt64 = x := by
  apply UInt64.toNat_inj.mp
  rw [UInt32.toNat_toUInt64, UInt64.toNat_toUInt32, Nat.mod_eq_of_lt h]

theorem body_decodes {n : Network} (h : n.Fits) :
    Decodes (bodyDecoder n.networkId n.thingHash) n.bodyBytes n := by
  have hmembers : (UInt32.ofNat n.members.length).toNat = n.members.length :=
    UInt32.toNat_ofNat_of_lt' h.members
  have hpending : (UInt32.ofNat n.pendingInvitations.length).toNat = n.pendingInvitations.length :=
    UInt32.toNat_ofNat_of_lt' h.pendingInvitations
  refine (Checked.u32_decodes _).bind ?_
  refine (Checked.u32_decodes _).bind ?_
  refine (Checked.u32_decodes _).bind ?_
  rw [toUInt64_toUInt32 h.minReplicas, toUInt64_toUInt32 h.targetReplicas,
    toUInt64_toUInt32 h.maxReplicas]
  refine (Checked.u64_decodes _).bind ?_
  refine (Checked.count_decodes h.members).bind ?_
  rw [hmembers]
  refine (Decodes.replicate fun m _ => m.decodes).bind ?_
  refine (Checked.count_decodes h.pendingInvitations).bind ?_
  rw [hpending]
  exact (Decodes.replicate fun p _ => p.decodes).bind_pure
    (f := fun pendingInvitations => { n with pendingInvitations })

/-- What comes out behind the header has the header's id, and its numbers fit. -/
theorem body_yields (networkId : NetworkID) (thingHash : ContentHash) :
    Yields (bodyDecoder networkId thingHash) fun n => n.networkId = networkId ∧ n.Fits := by
  have hany : ∀ {α : Type} (d : Decoder α), Yields d fun _ => True :=
    fun _ _ _ _ _ => trivial
  have hquorum : ∀ x : UInt32, x.toUInt64.toNat < 2 ^ 32 := by
    intro x
    rw [UInt32.toNat_toUInt64]
    exact x.toNat_lt
  refine Yields.skip fun minReplicas => ?_
  refine Yields.skip fun targetReplicas => ?_
  refine Yields.skip fun maxReplicas => ?_
  refine Yields.skip fun createdTimestamp => ?_
  refine Yields.skip fun memberCount => ?_
  refine ((hany _).replicate memberCount.toNat).bind fun members hmembers => ?_
  refine Yields.skip fun pendingCount => ?_
  refine ((hany _).replicate pendingCount.toNat).bind fun pendingInvitations hpending => ?_
  refine Yields.pure ⟨rfl, hquorum _, hquorum _, hquorum _, ?_, ?_⟩
  · rw [hmembers.1]
    exact memberCount.toNat_lt
  · rw [hpending.1]
    exact pendingCount.toNat_lt

/-- Whatever a serialized network is read as has its id, and its numbers fit. -/
theorem deserialize_serialize {n n' : Network} (h : deserialize n.serialize = .value n') :
    n'.networkId = n.networkId ∧ n'.Fits := by
  obtain ⟨rest, hd⟩ := Decoder.run_eq_value h
  rw [serialize, decoder, n.header_decodes.bind_append] at hd
  exact body_yields n.networkId n.thingHash n.bodyBytes n' rest hd

/-- A network comes back exactly when its numbers fit. -/
theorem deserialize_serialize_iff (n : Network) :
    deserialize n.serialize = .value n ↔ n.Fits := by
  constructor
  · exact fun h => (deserialize_serialize h).2
  · exact fun h => (n.header_decodes.bind (body_decodes h)).run

end Network

end Cashew
