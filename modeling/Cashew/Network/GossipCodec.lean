import Cashew.Network.Gossip

/-!
# The byte layouts of gossip

The records of `network/gossip.cpp` that travel as gossip payloads, and the
envelope `GossipMessage`, with their `to_bytes` and `from_bytes`. A decoder keeps
the source's size tests and nothing else: after the test at the top a count, a
length or a flag of the sender decides how far the next reads go.
-/

namespace Cashew

open Cashew.Lib

/-! ## Capabilities -/

/-- `NodeCapabilities`. -/
structure NodeCapabilities where
  canHostThings : Bool := true
  canRouteContent : Bool := true
  canProvideStorage : Bool := true
  storageCapacityBytes : UInt64 := 0
  bandwidthCapacityMbps : UInt64 := 0
  deriving DecidableEq

namespace NodeCapabilities

/-- The three booleans as the bits of one byte. -/
def flags (c : NodeCapabilities) : UInt8 :=
  (if c.canHostThings then 0x01 else 0) ||| (if c.canRouteContent then 0x02 else 0) |||
    (if c.canProvideStorage then 0x04 else 0)

/-- `NodeCapabilities::to_bytes`. -/
def toBytes (c : NodeCapabilities) : Bytes :=
  [c.flags] ++ (u64Bytes c.storageCapacityBytes ++ u64Bytes c.bandwidthCapacityMbps)

/-- The reads of `NodeCapabilities::from_bytes`. -/
def decoder : Decoder NodeCapabilities := do
  Decoder.require (1 + 8 + 8)
  let flags ← Decoder.byte
  let storageCapacityBytes ← Decoder.u64
  let bandwidthCapacityMbps ← Decoder.u64
  pure {
    canHostThings := flags &&& 0x01 != 0
    canRouteContent := flags &&& 0x02 != 0
    canProvideStorage := flags &&& 0x04 != 0
    storageCapacityBytes, bandwidthCapacityMbps }

/-- `NodeCapabilities::from_bytes`. -/
def fromBytes (data : Bytes) : Outcome NodeCapabilities := decoder.run data

theorem toBytes_length (c : NodeCapabilities) : c.toBytes.length = 17 := by
  simp [toBytes]

/-- Each bit comes back as it was set. -/
theorem flags_bits (c : NodeCapabilities) :
    (c.flags &&& 0x01 != 0) = c.canHostThings ∧ (c.flags &&& 0x02 != 0) = c.canRouteContent ∧
      (c.flags &&& 0x04 != 0) = c.canProvideStorage := by
  obtain ⟨host, route, storage, _, _⟩ := c
  cases host <;> cases route <;> cases storage <;> simp [flags] <;> decide

theorem decodes (c : NodeCapabilities) : Decodes decoder c.toBytes c := by
  obtain ⟨hhost, hroute, hstorage⟩ := c.flags_bits
  apply Decodes.require_bind (Nat.le_of_eq c.toBytes_length.symm)
  refine (Decodes.byte _).bind ?_
  rw [hhost, hroute, hstorage]
  refine (Decodes.u64 _).bind ?_
  exact (Decodes.u64 c.bandwidthCapacityMbps).bind_pure
    (f := fun bandwidthCapacityMbps => { c with bandwidthCapacityMbps })

end NodeCapabilities

/-! ## Announcements -/

/-- `PeerAnnouncement`. -/
structure PeerAnnouncement where
  nodeId : NodeID
  publicKey : PublicKey
  capabilities : NodeCapabilities
  timestamp : UInt64
  signature : Signature
  deriving DecidableEq

namespace PeerAnnouncement

/-- `PeerAnnouncement::to_bytes`. -/
def toBytes (a : PeerAnnouncement) : Bytes :=
  a.nodeId.id.bytes ++ (a.publicKey.bytes ++ (a.capabilities.toBytes ++
    (u64Bytes a.timestamp ++ a.signature.bytes)))

/-- The reads of `PeerAnnouncement::from_bytes`: the capabilities are copied out
and decoded on their own. -/
def decoder : Decoder PeerAnnouncement := do
  Decoder.require (32 + 32 + 17 + 8 + 64)
  let nodeId ← FixedBytes.decoder 32
  let publicKey ← FixedBytes.decoder 32
  let capabilities ← Decoder.nested 17 NodeCapabilities.decoder
  let timestamp ← Decoder.u64
  let signature ← FixedBytes.decoder 64
  pure { nodeId := ⟨nodeId⟩, publicKey, capabilities, timestamp, signature }

/-- `PeerAnnouncement::from_bytes`. -/
def fromBytes (data : Bytes) : Outcome PeerAnnouncement := decoder.run data

theorem decodes (a : PeerAnnouncement) : Decodes decoder a.toBytes a := by
  have hlen : 32 + 32 + 17 + 8 + 64 ≤ a.toBytes.length := by
    simp [toBytes, FixedBytes.size, NodeCapabilities.toBytes_length]
  apply Decodes.require_bind hlen
  refine (FixedBytes.decodes _).bind ?_
  refine (FixedBytes.decodes _).bind ?_
  refine (Decodes.nested a.capabilities.toBytes_length a.capabilities.decodes.run).bind ?_
  refine (Decodes.u64 _).bind ?_
  exact (FixedBytes.decodes a.signature).bind_pure (f := fun signature => { a with signature })

end PeerAnnouncement

/-- `ContentAnnouncement`. -/
structure ContentAnnouncement where
  contentHash : ContentHash
  contentSize : UInt64
  hostingNode : NodeID
  networkId : Option Hash256
  timestamp : UInt64
  signature : Signature
  deriving DecidableEq

namespace ContentAnnouncement

/-- The optional network id behind its flag. -/
def networkBytes : Option Hash256 → Bytes
  | some networkId => [1] ++ networkId.bytes
  | none => [0]

/-- `ContentAnnouncement::to_bytes`. -/
def toBytes (a : ContentAnnouncement) : Bytes :=
  a.contentHash.hash.bytes ++ (u64Bytes a.contentSize ++ (a.hostingNode.id.bytes ++
    (networkBytes a.networkId ++ (u64Bytes a.timestamp ++ a.signature.bytes))))

/-- The network id, which is there if the flag is 1. -/
def networkDecoder (hasNetwork : UInt8) : Decoder (Option Hash256) :=
  if hasNetwork = 1 then do
    Decoder.require 32
    let networkId ← FixedBytes.decoder 32
    pure (some networkId)
  else pure none

/-- The reads of `ContentAnnouncement::from_bytes`. The test at the top counts
no network id. -/
def decoder : Decoder ContentAnnouncement := do
  Decoder.require (32 + 8 + 32 + 1 + 8 + 64)
  let contentHash ← FixedBytes.decoder 32
  let contentSize ← Decoder.u64
  let hostingNode ← FixedBytes.decoder 32
  let hasNetwork ← Decoder.byte
  let networkId ← networkDecoder hasNetwork
  let timestamp ← Decoder.u64
  let signature ← FixedBytes.decoder 64
  pure {
    contentHash := ⟨contentHash⟩, contentSize, hostingNode := ⟨hostingNode⟩, networkId, timestamp,
    signature }

/-- `ContentAnnouncement::from_bytes`. -/
def fromBytes (data : Bytes) : Outcome ContentAnnouncement := decoder.run data

theorem network_decodes (networkId : Option Hash256) :
    Decodes (Decoder.byte >>= networkDecoder) (networkBytes networkId) networkId := by
  cases networkId with
  | none => exact (Decodes.byte 0).bind (Decodes.pure none)
  | some networkId =>
    refine (Decodes.byte 1).bind ?_
    show Decodes (Decoder.require 32 >>= fun _ => _) networkId.bytes (some networkId)
    apply Decodes.require_bind (Nat.le_of_eq networkId.size.symm)
    exact (FixedBytes.decodes networkId).bind_pure (f := some)

theorem decodes (a : ContentAnnouncement) : Decodes decoder a.toBytes a := by
  have hnetwork : 1 ≤ (networkBytes a.networkId).length := by
    cases a.networkId <;> simp [networkBytes]
  have hlen : 32 + 8 + 32 + 1 + 8 + 64 ≤ a.toBytes.length := by
    simp only [toBytes, List.length_append, FixedBytes.size, u64Bytes_length]
    omega
  apply Decodes.require_bind hlen
  refine (FixedBytes.decodes _).bind ?_
  refine (Decodes.u64 _).bind ?_
  refine (FixedBytes.decodes _).bind ?_
  rw [← bind_assoc]
  refine (network_decodes a.networkId).bind ?_
  refine (Decodes.u64 _).bind ?_
  exact (FixedBytes.decodes a.signature).bind_pure (f := fun signature => { a with signature })

end ContentAnnouncement

/-! ## Network state -/

/-- `NetworkStateUpdate`. -/
structure NetworkStateUpdate where
  epochNumber : UInt64
  activeNodes : List NodeID
  powDifficulty : UInt32
  entropySeed : Bytes
  timestamp : UInt64
  signatures : List Signature
  deriving DecidableEq

namespace NetworkStateUpdate

/-- `NetworkStateUpdate::to_bytes`. -/
def toBytes (u : NetworkStateUpdate) : Bytes :=
  u64Bytes u.epochNumber ++ (leBytes 4 u.activeNodes.length ++
    (u.activeNodes.flatMap (fun node => node.id.bytes) ++ (u32Bytes u.powDifficulty ++
      (leBytes 4 u.entropySeed.length ++ (u.entropySeed ++ (u64Bytes u.timestamp ++
        (leBytes 4 u.signatures.length ++ u.signatures.flatMap FixedBytes.bytes)))))))

/-- One round of the loop over the active nodes. -/
def nodeDecoder : Decoder NodeID := do
  Decoder.require 32
  let id ← FixedBytes.decoder 32
  pure ⟨id⟩

/-- One round of the loop over the signatures. -/
def signatureDecoder : Decoder Signature := do
  Decoder.require 64
  FixedBytes.decoder 64

/-- The reads of `NetworkStateUpdate::from_bytes`. Both loops and the seed test
the size again; the fixed fields between them do not. -/
def decoder : Decoder NetworkStateUpdate := do
  Decoder.require (8 + 4 + 4 + 4 + 8 + 4)
  let epochNumber ← Decoder.u64
  let nodeCount ← Decoder.le 4
  let activeNodes ← Decoder.replicate nodeDecoder nodeCount
  let powDifficulty ← Decoder.u32
  let seedSize ← Decoder.le 4
  Decoder.require seedSize
  let entropySeed ← Decoder.take seedSize
  let timestamp ← Decoder.u64
  let sigCount ← Decoder.le 4
  let signatures ← Decoder.replicate signatureDecoder sigCount
  pure { epochNumber, activeNodes, powDifficulty, entropySeed, timestamp, signatures }

/-- `NetworkStateUpdate::from_bytes`. -/
def fromBytes (data : Bytes) : Outcome NetworkStateUpdate := decoder.run data

theorem node_decodes (node : NodeID) : Decodes nodeDecoder node.id.bytes node := by
  apply Decodes.require_bind (Nat.le_of_eq node.id.size.symm)
  exact (FixedBytes.decodes node.id).bind_pure (f := NodeID.mk)

theorem signature_decodes (signature : Signature) :
    Decodes signatureDecoder signature.bytes signature :=
  Decodes.require_bind (Nat.le_of_eq signature.size.symm) (FixedBytes.decodes signature)

/-- Counts and lengths below `2 ^ 32` fit their fields. -/
theorem decodes (u : NetworkStateUpdate) (hnodes : u.activeNodes.length < 2 ^ 32)
    (hseed : u.entropySeed.length < 2 ^ 32) (hsigs : u.signatures.length < 2 ^ 32) :
    Decodes decoder u.toBytes u := by
  have hlen : 8 + 4 + 4 + 4 + 8 + 4 ≤ u.toBytes.length := by
    simp only [toBytes, List.length_append, leBytes_length, u64Bytes_length, u32Bytes_length]
    omega
  have htail : u.entropySeed.length ≤ (u.entropySeed ++ (u64Bytes u.timestamp ++
      (leBytes 4 u.signatures.length ++ u.signatures.flatMap FixedBytes.bytes))).length := by
    rw [List.length_append]
    omega
  have hnodes4 : u.activeNodes.length < 256 ^ 4 := hnodes
  have hseed4 : u.entropySeed.length < 256 ^ 4 := hseed
  have hsigs4 : u.signatures.length < 256 ^ 4 := hsigs
  apply Decodes.require_bind hlen
  refine (Decodes.u64 _).bind ?_
  refine (Decodes.le hnodes4).bind ?_
  refine (Decodes.replicate fun node _ => node_decodes node).bind ?_
  refine (Decodes.u32 _).bind ?_
  refine (Decodes.le hseed4).bind ?_
  apply Decodes.require_bind htail
  refine (Decodes.take rfl).bind ?_
  refine (Decodes.u64 _).bind ?_
  refine (Decodes.le hsigs4).bind ?_
  exact (Decodes.replicate fun signature _ => signature_decodes signature).bind_pure
    (f := fun signatures => { u with signatures })

end NetworkStateUpdate

/-! ## The envelope -/

namespace GossipMessage

/-- The reads of `GossipMessage::from_bytes`. The payload's own test does not
count the timestamp and the hop count behind it. -/
def decoder : Decoder GossipMessage := do
  Decoder.require (1 + 32 + 4 + 8 + 1)
  let type ← Decoder.byte
  let messageId ← FixedBytes.decoder 32
  let payloadSize ← Decoder.le 4
  Decoder.require payloadSize
  let payload ← Decoder.take payloadSize
  let timestamp ← Decoder.u64
  let hopCount ← Decoder.byte
  pure { type := Wire.ofByte type, messageId, payload, timestamp, hopCount }

/-- `GossipMessage::from_bytes`. -/
def fromBytes (data : Bytes) : Outcome GossipMessage := decoder.run data

theorem decodes (m : GossipMessage) (hpayload : m.payload.length < 2 ^ 32) :
    Decodes decoder m.toBytes m := by
  have hlen : 1 + 32 + 4 + 8 + 1 ≤ m.toBytes.length := by
    simp only [toBytes, List.length_append, List.length_singleton, FixedBytes.size,
      leBytes_length, u64Bytes_length]
    omega
  have htail : m.payload.length ≤
      (m.payload ++ (u64Bytes m.timestamp ++ [m.hopCount])).length := by
    rw [List.length_append]
    omega
  have hpayload4 : m.payload.length < 256 ^ 4 := hpayload
  apply Decodes.require_bind hlen
  refine (Decodes.byte _).bind ?_
  refine (FixedBytes.decodes _).bind ?_
  refine (Decodes.le hpayload4).bind ?_
  apply Decodes.require_bind htail
  refine (Decodes.take rfl).bind ?_
  refine (Decodes.u64 _).bind ?_
  rw [Wire.ofByte_toByte]
  exact (Decodes.byte m.hopCount).bind_pure (f := fun hopCount => { m with hopCount })

end GossipMessage

end Cashew
