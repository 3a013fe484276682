import Cashew.Ledger.Ledger
import Cashew.Ledger.State
import Cashew.Network.Gossip

/-!
# Ledger synchronisation over gossip

`network/ledger_sync.cpp`. A `LedgerGossipBridge` sits between a ledger, the
state derived from it and the gossip protocol: it wraps events, checkpoints,
sync requests and responses into gossip messages, and feeds the events it
receives through its own checks into `add_external_event`, applying each one to
the state manager when that call returns true.

The bridge holds references to the ledger and the state manager; here they are
fields, so that a step is a function of one state. What it hands to the gossip
protocol is returned as a list of `GossipSend`s.
-/

namespace Cashew

open Cashew.Lib

/-! ## The message and its bytes -/

/-- `LedgerSyncMessage::Type`. -/
inductive SyncType where
  | eventBroadcast
  | syncRequest
  | syncResponse
  | checkpoint
  deriving DecidableEq

instance : Enumeration SyncType where
  all := [.eventBroadcast, .syncRequest, .syncResponse, .checkpoint]
  code
    | .eventBroadcast => 0
    | .syncRequest => 1
    | .syncResponse => 2
    | .checkpoint => 3
  complete e := by cases e <;> decide
  codes_nodup := by decide

/-- `LedgerSyncMessage`. -/
structure LedgerSyncMessage where
  type : Wire SyncType
  events : List LedgerEvent
  startEpoch : UInt64
  endEpoch : UInt64
  ledgerHash : Hash256
  deriving DecidableEq

namespace LedgerSyncMessage

/-- One event of a message: its size in four bytes, then its encoding. -/
def eventField (e : LedgerEvent) : Bytes := leBytes 4 e.toBytes.length ++ e.toBytes

/-- `LedgerSyncMessage::serialize`. -/
def serialize (m : LedgerSyncMessage) : Bytes :=
  [m.type.toByte] ++ (u64Bytes m.startEpoch ++ (u64Bytes m.endEpoch ++ (m.ledgerHash.bytes ++
    (leBytes 4 m.events.length ++ m.events.flatMap eventField))))

/-- `if (data.size() < 57)`, with the source's reckoning `1 + 16 + 32 + 4 + 4`. -/
def minSize : Nat := 57

/-- The body of the event loop of `deserialize`. -/
def eventDecoder : Decoder LedgerEvent := do
  Decoder.require 4
  let eventSize ← Decoder.le 4
  Decoder.require eventSize
  Decoder.nested eventSize LedgerEvent.decoder

/-- The reads of `LedgerSyncMessage::deserialize`. -/
def decoder : Decoder LedgerSyncMessage := do
  Decoder.require minSize
  let type ← Decoder.byte
  let startEpoch ← Decoder.u64
  let endEpoch ← Decoder.u64
  let ledgerHash ← FixedBytes.decoder 32
  let eventCount ← Decoder.le 4
  let events ← Decoder.replicate eventDecoder eventCount
  pure { type := Wire.ofByte type, events, startEpoch, endEpoch, ledgerHash }

/-- `LedgerSyncMessage::deserialize`. -/
def deserialize (data : Bytes) : Outcome LedgerSyncMessage := decoder.run data

end LedgerSyncMessage

/-! ## The bridge -/

/-- `SyncState`. -/
structure SyncState where
  peerId : NodeID := default
  lastSyncedEpoch : UInt64 := 0
  lastKnownHash : Hash256 := FixedBytes.zero
  lastSyncTime : UInt64 := 0
  deriving DecidableEq

/-- `LedgerGossipBridge`. -/
structure LedgerGossipBridge where
  ledger : Ledger
  stateManager : StateManager
  peerSyncStates : OrdMap NodeID SyncState := .empty
  seenEventIds : Finset Hash256 := ∅
  eventsReceived : UInt64 := 0
  eventsSent : UInt64 := 0
  syncRequests : UInt64 := 0

/-- A call into the gossip protocol. -/
inductive GossipSend where
  | broadcast (m : GossipMessage)
  | direct (peer : NodeID) (m : GossipMessage)
  deriving DecidableEq

/-- Bytes taken from two fields in turn. -/
def interleave : Bytes → Bytes → Bytes
  | a :: as, b :: bs => a :: b :: interleave as bs
  | _, _ => []

/-- The `id_data` of `request_sync`: the bytes of the two epochs in turn. -/
def requestIdData (startEpoch endEpoch : UInt64) : Bytes :=
  interleave (u64Bytes startEpoch) (u64Bytes endEpoch)

namespace LedgerGossipBridge

variable (H : Bytes → Hash256)

/-! ### Sending -/

/-- The envelope all four senders build. -/
def gossipMessage (now : Time) (messageId : Hash256) (m : LedgerSyncMessage) : GossipMessage where
  type := .listed .networkStateUpdate
  messageId
  payload := m.serialize
  timestamp := now.secs
  hopCount := 0

/-- The message `broadcast_event` wraps. -/
def eventMessage (b : LedgerGossipBridge) (e : LedgerEvent) : LedgerSyncMessage where
  type := .listed .eventBroadcast
  events := [e]
  startEpoch := e.epoch
  endEpoch := e.epoch
  ledgerHash := b.ledger.latestHash

/-- `LedgerGossipBridge::broadcast_event`. -/
def broadcastEvent (b : LedgerGossipBridge) (now : Time) (e : LedgerEvent) :
    LedgerGossipBridge × GossipSend :=
  ({ b with eventsSent := b.eventsSent + 1 },
   .broadcast (gossipMessage now e.eventId (b.eventMessage e)))

/-- The message `broadcast_checkpoint` wraps. -/
def checkpointMessage (b : LedgerGossipBridge) (epoch : UInt64) : LedgerSyncMessage where
  type := .listed .checkpoint
  events := []
  startEpoch := epoch
  endEpoch := epoch
  ledgerHash := b.ledger.latestHash

/-- `LedgerGossipBridge::broadcast_checkpoint`. -/
def broadcastCheckpoint (b : LedgerGossipBridge) (now : Time) (epoch : UInt64) :
    LedgerGossipBridge × GossipSend :=
  (b, .broadcast (gossipMessage now (b.checkpointMessage epoch).ledgerHash
    (b.checkpointMessage epoch)))

/-- The message `request_sync` wraps. -/
def requestMessage (b : LedgerGossipBridge) (startEpoch endEpoch : UInt64) :
    LedgerSyncMessage where
  type := .listed .syncRequest
  events := []
  startEpoch
  endEpoch
  ledgerHash := b.ledger.latestHash

/-- `LedgerGossipBridge::request_sync`. -/
def requestSync (b : LedgerGossipBridge) (now : Time) (peerId : NodeID)
    (startEpoch endEpoch : UInt64) : LedgerGossipBridge × GossipSend :=
  ({ b with syncRequests := b.syncRequests + 1 },
   .direct peerId (gossipMessage now (H (requestIdData startEpoch endEpoch))
    (b.requestMessage startEpoch endEpoch)))

/-- The message `handle_sync_request` answers with: the events of the requested
epochs, in ledger order. -/
def responseMessage (b : LedgerGossipBridge) (startEpoch endEpoch : UInt64) :
    LedgerSyncMessage where
  type := .listed .syncResponse
  events := b.ledger.events.filter fun e => startEpoch ≤ e.epoch ∧ e.epoch ≤ endEpoch
  startEpoch
  endEpoch
  ledgerHash := b.ledger.latestHash

/-- `LedgerGossipBridge::handle_sync_request`. -/
def handleSyncRequest (b : LedgerGossipBridge) (now : Time) (peerId : NodeID)
    (startEpoch endEpoch : UInt64) : GossipSend :=
  let m := b.responseMessage startEpoch endEpoch
  .direct peerId (gossipMessage now (H m.serialize) m)

/-! ### Receiving -/

/-- `LedgerGossipBridge::validate_event_chain`. An event of a future epoch skips
the chain test. -/
def validateEventChain (b : LedgerGossipBridge) (clock : Clock) (e : LedgerEvent) : Bool :=
  if (clock.read 0).skewLimit < e.timestamp then false
  else if e.sourceNode.id = (default : NodeID).id then false
  else if currentEpoch (clock.read 1) < e.epoch then true
  else b.ledger.verifyEventChain H (clock.read 2) e

/-- `LedgerGossipBridge::process_received_event`. Readings 0 to 2 belong to the
bridge's own checks, 3 to 5 to `add_external_event`. -/
def processReceivedEvent (b : LedgerGossipBridge) (clock : Clock) (e : LedgerEvent) :
    LedgerGossipBridge :=
  if e.eventId ∈ b.seenEventIds then b
  else if !b.validateEventChain H clock e then b
  else
    let (ledger, added) := b.ledger.addExternalEvent H (clock.after 3) e
    if added then
      { b with
        ledger
        seenEventIds := insert e.eventId b.seenEventIds
        eventsReceived := b.eventsReceived + 1
        stateManager := b.stateManager.applyEvent e }
    else { b with ledger }

/-- `for (const auto& event : events) process_received_event(event)`: six
readings an event. -/
def processReceivedEvents : LedgerGossipBridge → Clock → List LedgerEvent → LedgerGossipBridge
  | b, _, [] => b
  | b, clock, e :: rest =>
    processReceivedEvents (b.processReceivedEvent H clock e) (clock.after 6) rest

/-- `LedgerGossipBridge::update_peer_sync_state`. -/
def updatePeerSyncState (b : LedgerGossipBridge) (now : Time) (peerId : NodeID)
    (epoch : UInt64) (hash : Hash256) : LedgerGossipBridge :=
  { b with
    peerSyncStates := b.peerSyncStates.upsert peerId {} fun state =>
      { state with
        peerId
        lastSyncedEpoch := epoch
        lastKnownHash := hash
        lastSyncTime := now.secs } }

/-- `LedgerGossipBridge::handle_sync_response`. -/
def handleSyncResponse (b : LedgerGossipBridge) (clock : Clock) (peerId : NodeID)
    (events : List LedgerEvent) : LedgerGossipBridge :=
  let b' := b.processReceivedEvents H clock events
  match events.getLast? with
  | none => b'
  | some last =>
    -- the id of the last event, where a checkpoint stores a ledger hash
    b'.updatePeerSyncState (clock.read (6 * events.length)) peerId last.epoch last.eventId

/-- `LedgerGossipBridge::handle_gossip_message`. -/
def handleGossipMessage (b : LedgerGossipBridge) (clock : Clock) (source : NodeID)
    (message : GossipMessage) : LedgerGossipBridge × List GossipSend :=
  match (LedgerSyncMessage.deserialize message.payload).toOption with
  | none => (b, [])
  | some m =>
    match m.type with
    | .listed .eventBroadcast => (b.processReceivedEvents H clock m.events, [])
    | .listed .syncRequest =>
      (b, [b.handleSyncRequest H (clock.read 0) source m.startEpoch m.endEpoch])
    | .listed .syncResponse => (b.handleSyncResponse H clock source m.events, [])
    | .listed .checkpoint =>
      (b.updatePeerSyncState (clock.read 0) source m.startEpoch m.ledgerHash, [])
    | .unlisted _ _ => (b, [])

/-! ### Periodic maintenance -/

/-- The highest epoch a peer is known to have reached, at least `current`. -/
def maxPeerEpoch (b : LedgerGossipBridge) (current : UInt64) : UInt64 :=
  b.peerSyncStates.entries.foldl
    (fun best (_, state) => if best < state.lastSyncedEpoch then state.lastSyncedEpoch else best)
    current

/-- The peers ahead of `current`. -/
def candidates (b : LedgerGossipBridge) (current : UInt64) : List NodeID :=
  (b.peerSyncStates.entries.filter fun (_, state) =>
    current < state.lastSyncedEpoch).map Prod.fst

/-- `LedgerGossipBridge::sync_with_network`, with the random draw it makes among
its candidates. -/
def syncWithNetwork (b : LedgerGossipBridge) (clock : Clock) (draw : UInt32) :
    LedgerGossipBridge × List GossipSend :=
  let current := currentEpoch (clock.read 0)
  if current < b.maxPeerEpoch current then
    match (b.candidates current)[draw.toNat % (b.candidates current).length]? with
    | none => (b, [])
    | some peerId =>
      let (b', send) :=
        b.requestSync H (clock.read 1) peerId (current + 1) (b.maxPeerEpoch current)
      (b', [send])
  else (b, [])

/-- The loop of `validate_consistency`: one reading for each request sent. -/
def requestMismatched (current : UInt64) (ourHash : Hash256) :
    LedgerGossipBridge → Clock → List (NodeID × SyncState) → LedgerGossipBridge × List GossipSend
  | b, _, [] => (b, [])
  | b, clock, (peerId, state) :: rest =>
    if state.lastSyncedEpoch = current ∧ state.lastKnownHash ≠ ourHash then
      -- in epoch zero the mismatch is only logged
      if 0 < current then
        let (b', send) := b.requestSync H (clock.read 0) peerId current current
        let (b'', sends) := requestMismatched current ourHash b' (clock.after 1) rest
        (b'', send :: sends)
      else requestMismatched current ourHash b clock rest
    else requestMismatched current ourHash b clock rest

/-- `LedgerGossipBridge::validate_consistency`. -/
def validateConsistency (b : LedgerGossipBridge) (clock : Clock) :
    LedgerGossipBridge × List GossipSend :=
  requestMismatched H (currentEpoch (clock.read 0)) b.ledger.latestHash b (clock.after 1)
    b.peerSyncStates.entries

def staleThreshold : UInt64 := 300

/-- `LedgerGossipBridge::cleanup_sync_state`. -/
def cleanupSyncState (b : LedgerGossipBridge) (now : Time) : LedgerGossipBridge :=
  let toRemove := (b.peerSyncStates.entries.filter fun (_, state) =>
    staleThreshold < now.secs - state.lastSyncTime).map Prod.fst
  { b with peerSyncStates := toRemove.foldl OrdMap.erase b.peerSyncStates }

end LedgerGossipBridge

/-! ## Runs -/

/-- What can happen to a node's ledger and its bridge: local calls on the
ledger, the bridge's entry points, and gossip from other nodes. -/
inductive BridgeInput where
  | ledgerCall (c : LedgerCall)
  | broadcastEvent (e : LedgerEvent)
  | broadcastCheckpoint (epoch : UInt64)
  | requestSync (peerId : NodeID) (startEpoch endEpoch : UInt64)
  | handleGossipMessage (source : NodeID) (message : GossipMessage)
  | handleSyncResponse (peerId : NodeID) (events : List LedgerEvent)
  | syncWithNetwork (draw : UInt32)
  | validateConsistency
  | cleanupSyncState

/-- One input, with the clock readings made while it is handled. A local ledger
call leaves the state manager as it is. -/
def LedgerGossipBridge.call (H : Bytes → Hash256) (b : LedgerGossipBridge) (clock : Clock) :
    BridgeInput → LedgerGossipBridge × List GossipSend
  | .ledgerCall c => ({ b with ledger := (b.ledger.call H clock c).1 }, [])
  | .broadcastEvent e => (b.broadcastEvent (clock.read 0) e).map id ([·])
  | .broadcastCheckpoint epoch => (b.broadcastCheckpoint (clock.read 0) epoch).map id ([·])
  | .requestSync peerId s t => (b.requestSync H (clock.read 0) peerId s t).map id ([·])
  | .handleGossipMessage source message => b.handleGossipMessage H clock source message
  | .handleSyncResponse peerId events => (b.handleSyncResponse H clock peerId events, [])
  | .syncWithNetwork draw => b.syncWithNetwork H clock draw
  | .validateConsistency => b.validateConsistency H clock
  | .cleanupSyncState => (b.cleanupSyncState (clock.read 0), [])

def bridgeMachine (H : Bytes → Hash256) :
    Machine LedgerGossipBridge (Clock × BridgeInput) GossipSend where
  step b input := b.call H input.1 input.2

/-- A bridge over a fresh ledger. -/
def LedgerGossipBridge.fresh (localNodeId : NodeID) : LedgerGossipBridge where
  ledger := Ledger.fresh localNodeId
  stateManager := {}

/-- A bridge some run leads to, on a clock that does not go back while an input
is handled. -/
def LedgerGossipBridge.Reachable (H : Bytes → Hash256) (b : LedgerGossipBridge) : Prop :=
  ∃ localNodeId inputs, (∀ input ∈ inputs, input.1.NonDecreasing) ∧
    ((bridgeMachine H).run (LedgerGossipBridge.fresh localNodeId) inputs).1 = b

end Cashew
