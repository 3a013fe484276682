import Cashew.Common
import Cashew.Lib.Machine
import Cashew.Lib.Wire

/-!
# Gossip

`GossipMessage` and `GossipProtocol` of `network/gossip.cpp`: epidemic
propagation behind a bounded cache of message ids. A message whose id is in the
cache is dropped without a look at its content, so the id decides which
messages a node ever handles.

Handlers and the send callback are the environment: `receive_message` yields
the invocations it makes. Drawing random peers takes the draws as an argument.
-/

namespace Cashew

open Cashew.Lib

/-- `GossipMessageType : uint8_t`. -/
inductive GossipMessageType where
  | peerAnnouncement
  | contentAnnouncement
  | networkStateUpdate
  | keyRevocation
  | nodeCapability
  | tokenRevocation
  deriving DecidableEq

instance : Enumeration GossipMessageType where
  all := [.peerAnnouncement, .contentAnnouncement, .networkStateUpdate, .keyRevocation,
    .nodeCapability, .tokenRevocation]
  code
    | .peerAnnouncement => 1
    | .contentAnnouncement => 2
    | .networkStateUpdate => 3
    | .keyRevocation => 4
    | .nodeCapability => 5
    | .tokenRevocation => 6
  complete e := by cases e <;> decide
  codes_nodup := by decide

/-- `GossipMessage`. -/
structure GossipMessage where
  type : Wire GossipMessageType
  messageId : Hash256
  payload : Bytes
  timestamp : UInt64
  hopCount : UInt8
  deriving DecidableEq

namespace GossipMessage

def maxHops : UInt8 := 10

def maxAgeSeconds : UInt64 := 300

/-- `GossipMessage::is_too_old`. The subtraction is unsigned: a message from
the future is too old. -/
def isTooOld (m : GossipMessage) (now : Time) : Bool :=
  maxAgeSeconds < now.secs - m.timestamp

/-- `GossipMessage::has_exceeded_hops`. -/
def hasExceededHops (m : GossipMessage) : Bool := maxHops ≤ m.hopCount

/-- `GossipMessage::to_bytes`. -/
def toBytes (m : GossipMessage) : Bytes :=
  [m.type.toByte] ++ (m.messageId.bytes ++ (leBytes 4 m.payload.length ++ (m.payload ++
    (u64Bytes m.timestamp ++ [m.hopCount]))))

/-- `GossipMessage::compute_id`: the hash covers whatever the id field held before. -/
def computeId (H : Bytes → Hash256) (m : GossipMessage) : Hash256 := H m.toBytes

end GossipMessage

/-- `GossipProtocol::SeenMessage`. -/
structure SeenMessage where
  messageId : Hash256
  timestamp : UInt64
  deriving DecidableEq

/-- `GossipProtocol`. -/
structure GossipProtocol where
  localNodeId : NodeID
  peers : List NodeID := []
  seenMessages : List SeenMessage := []
  handlers : List (Wire GossipMessageType) := []
  fanout : Nat := 3
  maxSeenMessages : Nat := 10000

/-- What a node does with a message. -/
inductive GossipEffect where
  | handle (m : GossipMessage)
  | send (peer : NodeID) (m : GossipMessage)
  deriving DecidableEq

namespace GossipProtocol

def seenMessageTtlSeconds : UInt64 := 600

/-- `GossipProtocol::has_seen_message`. -/
def hasSeenMessage (g : GossipProtocol) (messageId : Hash256) : Bool :=
  g.seenMessages.any fun seen => seen.messageId == messageId

/-- `GossipProtocol::should_propagate`. -/
def shouldPropagate (g : GossipProtocol) (now : Time) (m : GossipMessage) : Bool :=
  if g.hasSeenMessage m.messageId then false
  else if m.isTooOld now then false
  else if m.hasExceededHops then false
  else true

/-- `GossipProtocol::mark_as_seen`: a full cache drops its oldest entry. -/
def markAsSeen (g : GossipProtocol) (now : Time) (messageId : Hash256) : GossipProtocol :=
  let kept :=
    if g.maxSeenMessages ≤ g.seenMessages.length then g.seenMessages.tail
    else g.seenMessages
  { g with seenMessages := kept ++ [{ messageId, timestamp := now.secs }] }

/-- `GossipProtocol::cleanup_old_seen_messages`. -/
def cleanupOldSeenMessages (g : GossipProtocol) (now : Time) : GossipProtocol :=
  { g with
    seenMessages := g.seenMessages.filter fun seen =>
      !(seenMessageTtlSeconds < now.secs - seen.timestamp) }

/-- `GossipProtocol::add_peer`. -/
def addPeer (g : GossipProtocol) (peerId : NodeID) : GossipProtocol :=
  if g.peers.contains peerId then g else { g with peers := g.peers ++ [peerId] }

/-- `GossipProtocol::remove_peer`. -/
def removePeer (g : GossipProtocol) (peerId : NodeID) : GossipProtocol :=
  { g with peers := g.peers.filter (· ≠ peerId) }

/-- `GossipProtocol::get_random_peers`: one draw per selected peer, out of those
still available. -/
def getRandomPeers : List NodeID → Nat → (Nat → UInt32) → List NodeID
  | [], _, _ => []
  | _, 0, _ => []
  | available@(first :: _), count + 1, draws =>
    let index := (draws 0).toNat % available.length
    available.getD index first ::
      getRandomPeers (available.eraseIdx index) count fun i => draws (i + 1)

/-- `GossipProtocol::receive_message`: readings 0 and 1 of the clock date the
age check and the cache entry. -/
def receiveMessage (g : GossipProtocol) (clock : Clock) (draws : Nat → UInt32)
    (m : GossipMessage) : GossipProtocol × List GossipEffect :=
  if !g.shouldPropagate (clock.read 0) m then (g, [])
  else
    -- handlers see the hop count as received
    let forwarded := { m with hopCount := m.hopCount + 1 }
    (g.markAsSeen (clock.read 1) m.messageId,
     ((g.handlers.filter (· = m.type)).map fun _ => .handle m) ++
       (getRandomPeers g.peers g.fanout draws).map fun peer => .send peer forwarded)

/-- `GossipProtocol::broadcast_message`. -/
def broadcastMessage (g : GossipProtocol) (now : Time) (draws : Nat → UInt32)
    (m : GossipMessage) : GossipProtocol × List GossipEffect :=
  (g.markAsSeen now m.messageId,
   (getRandomPeers g.peers g.fanout draws).map fun peer => .send peer m)

theorem hasSeenMessage_iff {g : GossipProtocol} {messageId : Hash256} :
    g.hasSeenMessage messageId = true ↔
      ∃ seen ∈ g.seenMessages, seen.messageId = messageId := by
  unfold hasSeenMessage
  rw [List.any_eq_true]
  constructor
  · rintro ⟨seen, hmem, heq⟩
    exact ⟨seen, hmem, by simpa using heq⟩
  · rintro ⟨seen, hmem, heq⟩
    exact ⟨seen, hmem, by simpa using heq⟩

/-- After marking one id, another one counts as seen only if it did before. -/
theorem hasSeenMessage_markAsSeen {g : GossipProtocol} {now : Time} {marked id : Hash256}
    (h : (g.markAsSeen now marked).hasSeenMessage id = true) :
    g.hasSeenMessage id = true ∨ marked = id := by
  obtain ⟨seen, hmem, heq⟩ := hasSeenMessage_iff.mp h
  rcases List.mem_append.mp hmem with hold | hnew
  · refine .inl (hasSeenMessage_iff.mpr ⟨seen, ?_, heq⟩)
    split at hold
    · exact List.mem_of_mem_tail hold
    · exact hold
  · rw [List.mem_singleton.mp hnew] at heq
    exact .inr heq

end GossipProtocol

/-! ## Runs -/

/-- The calls on a gossip protocol, with the peers they draw. What a handler
calls happens after the mark of the message it handles, and is a call of its
own here. -/
inductive GossipInput where
  | receiveMessage (draws : Nat → UInt32) (m : GossipMessage)
  | broadcastMessage (draws : Nat → UInt32) (m : GossipMessage)
  | cleanupOldSeenMessages

/-- One call, with the clock readings made during it. -/
def GossipProtocol.call (g : GossipProtocol) (clock : Clock) :
    GossipInput → GossipProtocol × List GossipEffect
  | .receiveMessage draws m => g.receiveMessage clock draws m
  | .broadcastMessage draws m => g.broadcastMessage (clock.read 0) draws m
  | .cleanupOldSeenMessages => (g.cleanupOldSeenMessages (clock.read 0), [])

def gossipMachine : Machine GossipProtocol (Clock × GossipInput) GossipEffect where
  step g input := g.call input.1 input.2

end Cashew
