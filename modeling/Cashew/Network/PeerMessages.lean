import Cashew.Lib.BigEndian
import Cashew.Network.GossipCodec

/-!
# The messages of peer discovery

The byte layouts of `network/peer.cpp`: announcements, peer lists and the answer
of a NAT traversal. Numbers are big-endian. As in the gossip layouts a decoder
keeps the source's size tests and nothing else.

The capabilities of an announcement are JSON. The JSON library stands outside;
`parseCapabilities` is what the decoder gets from it: the three flags, or nothing
when parsing, a lookup or a conversion throws.
-/

namespace Cashew

open Cashew.Lib

/-! ## Announcements -/

/-- `PeerAnnouncementMessage`. -/
structure PeerAnnouncementMessage where
  nodeId : NodeID
  listenAddress : Text
  capabilities : NodeCapabilities
  timestamp : UInt64
  signature : Signature
  deriving DecidableEq

namespace PeerAnnouncementMessage

/-- The capabilities and what stands behind them. -/
def capabilitiesDecoder (parseCapabilities : Bytes → Option (Bool × Bool × Bool))
    (nodeId : NodeID) (listenAddress : Text) (timestamp : UInt64) (capsLen : Nat) :
    Decoder PeerAnnouncementMessage := do
  Decoder.require (capsLen + 64)
  let caps ← Decoder.take capsLen
  match parseCapabilities caps with
  | none => Decoder.reject
  | some (canHostThings, canRouteContent, canProvideStorage) =>
    let signature ← FixedBytes.decoder 64
    pure {
      nodeId, listenAddress, timestamp, signature
      capabilities := { canHostThings, canRouteContent, canProvideStorage } }

/-- The reads of `PeerAnnouncementMessage::from_bytes`. -/
def decoder (parseCapabilities : Bytes → Option (Bool × Bool × Bool)) :
    Decoder PeerAnnouncementMessage := do
  Decoder.require 140
  Decoder.tag 0x01
  let nodeId ← FixedBytes.decoder 32
  let addrLen ← Decoder.be 2
  Decoder.require addrLen
  let listenAddress ← Decoder.take addrLen
  let timestamp ← Decoder.beU64
  let capsLen ← Decoder.be 2
  capabilitiesDecoder parseCapabilities ⟨nodeId⟩ ⟨listenAddress⟩ timestamp capsLen

/-- `PeerAnnouncementMessage::from_bytes`. -/
def fromBytes (parseCapabilities : Bytes → Option (Bool × Bool × Bool)) (data : Bytes) :
    Outcome PeerAnnouncementMessage :=
  (decoder parseCapabilities).run data

end PeerAnnouncementMessage

/-! ## Peer lists -/

/-- `PeerRequestMessage`. -/
structure PeerRequestMessage where
  requesterId : NodeID
  maxPeers : UInt32
  timestamp : UInt64
  signature : Signature
  deriving DecidableEq

/-- `PeerResponseMessage::PeerEntry`. -/
structure PeerEntry where
  nodeId : NodeID
  address : Text
  capabilities : NodeCapabilities := {}
  lastSeen : UInt64
  deriving DecidableEq

namespace PeerEntry

/-- The body of the loop in `PeerResponseMessage::to_bytes`. The capabilities are
not written. -/
def toBytes (entry : PeerEntry) : Bytes :=
  entry.nodeId.id.bytes ++
    (beBytes 2 entry.address.bytes.length ++
      (entry.address.bytes ++ beU64Bytes entry.lastSeen))

/-- The body of the loop in `PeerResponseMessage::from_bytes`. -/
def decoder : Decoder PeerEntry := do
  Decoder.require 42
  let nodeId ← FixedBytes.decoder 32
  let addrLen ← Decoder.be 2
  Decoder.require addrLen
  let address ← Decoder.take addrLen
  let lastSeen ← Decoder.beU64
  pure { nodeId := ⟨nodeId⟩, address := ⟨address⟩, lastSeen }

end PeerEntry

/-- `PeerResponseMessage`. -/
structure PeerResponseMessage where
  responderId : NodeID
  peers : List PeerEntry
  timestamp : UInt64
  signature : Signature
  deriving DecidableEq

namespace PeerResponseMessage

/-- `PeerResponseMessage::to_bytes`. -/
def toBytes (m : PeerResponseMessage) : Bytes :=
  [0x03] ++
    (m.responderId.id.bytes ++
      (beBytes 2 m.peers.length ++
        (m.peers.flatMap PeerEntry.toBytes ++ (beU64Bytes m.timestamp ++ m.signature.bytes))))

/-- What stands behind the peers. -/
def tailDecoder (responderId : NodeID) (peers : List PeerEntry) :
    Decoder PeerResponseMessage := do
  Decoder.require 72
  let timestamp ← Decoder.beU64
  let signature ← FixedBytes.decoder 64
  pure { responderId, peers, timestamp, signature }

/-- The reads of `PeerResponseMessage::from_bytes`. -/
def decoder : Decoder PeerResponseMessage := do
  Decoder.require 107
  Decoder.tag 0x03
  let responderId ← FixedBytes.decoder 32
  let peerCount ← Decoder.be 2
  let peers ← Decoder.replicate PeerEntry.decoder peerCount
  tailDecoder ⟨responderId⟩ peers

/-- `PeerResponseMessage::from_bytes`. -/
def fromBytes (data : Bytes) : Outcome PeerResponseMessage := decoder.run data

end PeerResponseMessage

/-! ## NAT traversal -/

/-- `NATTraversalResponse`. -/
structure NATTraversalResponse where
  publicAddress : Text
  publicPort : UInt16
  timestamp : UInt64
  deriving DecidableEq

namespace NATTraversalResponse

/-- The reads of `NATTraversalResponse::from_bytes`. -/
def decoder : Decoder NATTraversalResponse := do
  Decoder.require 13
  Decoder.tag 0x05
  let addrLen ← Decoder.be 2
  Decoder.require (addrLen + 10)
  let publicAddress ← Decoder.take addrLen
  let publicPort ← Decoder.be 2
  let timestamp ← Decoder.beU64
  pure { publicAddress := ⟨publicAddress⟩, publicPort := UInt16.ofNat publicPort, timestamp }

/-- `NATTraversalResponse::from_bytes`. -/
def fromBytes (data : Bytes) : Outcome NATTraversalResponse := decoder.run data

end NATTraversalResponse

end Cashew
