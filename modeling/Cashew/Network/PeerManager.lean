import Cashew.Network.Peer
import Cashew.Network.SessionManager

/-!
# Peer connections

`PeerManager` of `network/peer.cpp`, and the random choices of it and of `PeerDiscovery`. A
connection keeps a raw pointer to a session that the `SessionManager` owns; both are one
state here, and every call of either one is a step of it.

`maintain_peer_connections`, `attempt_reconnections`, `connect_to_bootstrap_nodes`
and `broadcast_to_peers` choose peers and call the functions below one after
another; they are in `Network/PeerRecords`. Statistics are left out. The counters
`connection_attempts` and `successful_connections` are incremented on a copy of the
peer's record, so nothing changes there.
-/

namespace Cashew

open Cashew.Lib

/-- `ConnectionPolicy`. -/
structure ConnectionPolicy where
  maxPeers : Nat := 50
  idleTimeoutSeconds : UInt32 := 300
  maxConnectionAttempts : UInt32 := 5
  minReliabilityScore : Float32 := 0.3

/-- `PeerConnection`. -/
structure PeerConnection where
  peerId : NodeID
  address : Text := ⟨[]⟩
  session : SessionRef
  connectedAt : UInt64
  lastActivity : UInt64
  bytesSent : UInt64 := 0
  deriving DecidableEq

namespace PeerConnection

/-- The unsigned `current_time - last_activity`. -/
def idleSeconds (conn : PeerConnection) (now : Time) : UInt64 := now.secs - conn.lastActivity

/-- `PeerConnection::is_idle`. -/
def isIdle (conn : PeerConnection) (now : Time) : Bool := 300 < conn.idleSeconds now

/-- `PeerConnection::idle_duration`, a signed number of seconds. -/
def idleDuration (conn : PeerConnection) (now : Time) : Int64 := (conn.idleSeconds now).toInt64

end PeerConnection

/-- `PeerManager`. -/
structure PeerManager where
  localNodeId : NodeID
  policy : ConnectionPolicy := {}
  discovery : PeerDiscovery := {}
  activeConnections : OrdMap NodeID PeerConnection := OrdMap.empty
  connectionFailureCount : OrdMap NodeID UInt32 := OrdMap.empty

/-- The callbacks, `peer_connected_callback_` and `peer_disconnected_callback_`. -/
inductive PeerEvent where
  | connected (peerId : NodeID)
  | disconnected (peerId : NodeID)
  deriving DecidableEq

/-- What `handle_peer_request` comes to. -/
inductive PeerAnswer where
  | ignored
  | divisionByZero
  | response (m : PeerResponseMessage)
  deriving DecidableEq

/-- `(a > b) ? a - b : b - a`. -/
def timeDiff (a b : UInt64) : UInt64 := if a > b then a - b else b - a

namespace PeerManager

/-- `PeerManager::is_connected`. -/
def isConnected (m : PeerManager) (peerId : NodeID) : Bool := m.activeConnections.contains peerId

/-- `PeerManager::can_connect_more_peers`. -/
def canConnectMorePeers (m : PeerManager) : Bool :=
  m.activeConnections.entries.length < m.policy.maxPeers

/-- The failures counted for a peer. -/
def failureCount (m : PeerManager) (peerId : NodeID) : UInt32 :=
  (m.connectionFailureCount.find? peerId).getD 0

/-- Too many failures of the peer have been counted. -/
def hasFailedTooOften (m : PeerManager) (peerId : NodeID) : Bool :=
  (m.connectionFailureCount.find? peerId).any (m.policy.maxConnectionAttempts ≤ ·)

/-- What is known of the peer says that it is unreliable. -/
def isUnreliable (m : PeerManager) (peerId : NodeID) : Bool :=
  (m.discovery.getPeerInfo peerId).any fun info =>
    decide (info.reliabilityScore < m.policy.minReliabilityScore)

/-- `PeerManager::should_connect_to_peer`. -/
def shouldConnectToPeer (m : PeerManager) (peerId : NodeID) : Bool :=
  peerId != m.localNodeId && !m.hasFailedTooOften peerId && !m.isUnreliable peerId

/-- `PeerManager::handle_successful_connection`. -/
def handleSuccessfulConnection (m : PeerManager) (clock : Clock) (peerId : NodeID)
    (session : SessionRef) : PeerManager :=
  let conn : PeerConnection := {
    peerId, session
    connectedAt := (clock.read 0).secs
    lastActivity := (clock.read 1).secs
    address := ((m.discovery.getPeerInfo peerId).map (·.address)).getD ⟨[]⟩ }
  -- a success clears what was counted before
  { m with
    activeConnections := m.activeConnections.insert peerId conn
    connectionFailureCount := m.connectionFailureCount.insert peerId 0 }

/-- `PeerManager::handle_failed_connection`. -/
def handleFailedConnection (m : PeerManager) (peerId : NodeID) : PeerManager :=
  { m with connectionFailureCount := m.connectionFailureCount.upsert peerId 0 (· + 1) }

/-- `PeerManager::disconnect_peer`. -/
def disconnectPeer (m : PeerManager) (peerId : NodeID) : PeerManager × List PeerEvent :=
  -- only the entry goes; the session stays with the session manager
  if m.isConnected peerId then
    ({ m with activeConnections := m.activeConnections.erase peerId }, [.disconnected peerId])
  else (m, [])

/-- `for (const auto& peer_id : peers) disconnect_peer(peer_id)`. -/
def disconnectPeers (m : PeerManager) : List NodeID → PeerManager × List PeerEvent
  | [] => (m, [])
  | peerId :: rest =>
    let first := m.disconnectPeer peerId
    let others := first.1.disconnectPeers rest
    (others.1, first.2 ++ others.2)

/-- `PeerManager::disconnect_all`. -/
def disconnectAll (m : PeerManager) : PeerManager × List PeerEvent :=
  m.disconnectPeers (m.activeConnections.entries.map (·.1))

/-- The peers `cleanup_idle_connections` disconnects, each looked at with two
readings of the clock. -/
def idlePeers (m : PeerManager) (clock : Clock) : List NodeID :=
  (m.activeConnections.entries.zipIdx.filter fun e =>
    e.1.2.isIdle (clock.read (2 * e.2)) &&
      decide (m.policy.idleTimeoutSeconds.toUInt64.toInt64 <
        e.1.2.idleDuration (clock.read (2 * e.2 + 1)))).map (·.1.1)

/-- `PeerManager::cleanup_idle_connections`. -/
def cleanupIdleConnections (m : PeerManager) (clock : Clock) : PeerManager × List PeerEvent :=
  m.disconnectPeers (m.idlePeers clock)

/-! ## Peer lists -/

/-- The entry of a selected peer. -/
def peerEntry (m : PeerManager) (peerId : NodeID) : Option PeerEntry :=
  (m.discovery.getPeerInfo peerId).map fun info =>
    { nodeId := peerId, address := info.address, capabilities := info.capabilities,
      lastSeen := info.lastSeen }

/-- `PeerManager::handle_peer_request` up to the sending. The signature of the
response is not assigned: it is what stood in its memory. -/
def handlePeerRequest (m : PeerManager) (clock : Clock) (draws : Nat → UInt64)
    (unassigned : Signature) (requestingPeer : NodeID) (msg : PeerRequestMessage) : PeerAnswer :=
  if msg.requesterId ≠ requestingPeer then .ignored
  else if 300 < timeDiff msg.timestamp (clock.read 0).secs then .ignored
  else
    -- neither the requester nor the node itself is listed
    match m.discovery.selectRandomPeers (clock.after 1) draws (min msg.maxPeers.toNat 20)
      [requestingPeer, m.localNodeId] with
    | none => .divisionByZero
    | some selected =>
      .response {
        responderId := m.localNodeId
        timestamp := (clock.read 0).secs
        signature := unassigned
        peers := selected.filterMap m.peerEntry }

/-- What `handle_peer_response` does with one entry. -/
def addEntry (m : PeerManager) (discovery : PeerDiscovery) (now : Time) (entry : PeerEntry) :
    PeerDiscovery :=
  if entry.nodeId = m.localNodeId then discovery
  else
    (discovery.addDiscoveredPeer now entry.nodeId entry.address).updatePeerCapabilities
      entry.nodeId entry.capabilities

/-- `PeerManager::handle_peer_response`. -/
def handlePeerResponse (m : PeerManager) (clock : Clock) (msg : PeerResponseMessage) :
    PeerManager :=
  -- a signature is asked for, not verified
  if msg.signature.bytes.all (· == 0) then m
  else if !m.isConnected msg.responderId then m
  else if 300 < timeDiff msg.timestamp (clock.read 0).secs then m
  else
    { m with
      discovery := msg.peers.zipIdx.foldl
        (fun discovery e => m.addEntry discovery (clock.read (e.2 + 1)) e.1) m.discovery }

end PeerManager

/-! ## Peers and sessions together -/

/-- A `PeerManager` and the `SessionManager` it was made with. -/
structure PeerSystem where
  peers : PeerManager
  sessions : SessionManager

namespace PeerSystem

/-- A node at its start. -/
def fresh (localNodeId : NodeID) (policy : ConnectionPolicy) (discovery : PeerDiscovery) :
    PeerSystem where
  peers := { localNodeId, policy, discovery }
  sessions := { localNodeId }

/-- What `connect_to_peer` does once its tests have passed: a session is made or
found, and its handshake started with the drawn secret. -/
def openConnection (c : SessionCrypto) (s : PeerSystem) (clock : Clock) (secret : SecretKey)
    (peerId : NodeID) : PeerSystem × List PeerEvent :=
  -- a session the peer has already is taken as it is, whatever its state
  let created := s.sessions.createOutboundSession (clock.read 0) peerId
  let called := created.1.withSession created.2 fun session =>
    session.initiateHandshake c (clock.read 1) secret
  if called.2.isSome then
    ({ peers := s.peers.handleSuccessfulConnection (clock.after 2) peerId created.2
       sessions := called.1 }, [.connected peerId])
  else ({ peers := s.peers.handleFailedConnection peerId, sessions := called.1 }, [])

/-- `PeerManager::connect_to_peer`. -/
def connectToPeer (c : SessionCrypto) (s : PeerSystem) (clock : Clock) (secret : SecretKey)
    (peerId : NodeID) : PeerSystem × List PeerEvent :=
  if s.peers.isConnected peerId then (s, [])
  else if !s.peers.canConnectMorePeers then (s, [])
  else if !s.peers.shouldConnectToPeer peerId then (s, [])
  else s.openConnection c clock secret peerId

/-- What `send_to_peer` does with the connection it has found. -/
def sendOver (c : SessionCrypto) (s : PeerSystem) (clock : Clock) (random : FixedBytes 4)
    (peerId : NodeID) (conn : PeerConnection) (data : Bytes) : PeerSystem :=
  let called := s.sessions.withSession conn.session fun session =>
    (session.encryptMessage c (clock.read 0) random data).map id Option.isSome
  if called.2.isSome then
    { peers := { s.peers with
        activeConnections := s.peers.activeConnections.modify peerId fun conn =>
          { conn with
            bytesSent := conn.bytesSent + UInt64.ofNat data.length
            lastActivity := (clock.read 1).secs } }
      sessions := called.1 }
  else { s with sessions := called.1 }

/-- `PeerManager::send_to_peer`. -/
def sendToPeer (c : SessionCrypto) (s : PeerSystem) (clock : Clock) (random : FixedBytes 4)
    (peerId : NodeID) (data : Bytes) : PeerSystem :=
  match s.peers.activeConnections.find? peerId with
  | none => s
  | some conn => s.sendOver c clock random peerId conn data

end PeerSystem

/-- The calls of both managers, and calls on a session through a pointer. -/
inductive PeerInput where
  | connectToPeer (secret : SecretKey) (peerId : NodeID)
  | disconnectPeer (peerId : NodeID)
  | disconnectAll
  | cleanupIdleConnections
  | sendToPeer (random : FixedBytes 4) (peerId : NodeID) (data : Bytes)
  | addDiscoveredPeer (nodeId : NodeID) (address : Text)
  | updatePeerCapabilities (nodeId : NodeID) (capabilities : NodeCapabilities)
  | handlePeerResponse (msg : PeerResponseMessage)
  | createOutboundSession (remoteNodeId : NodeID)
  | handleInboundHandshake (secret : SecretKey) (handshake : HandshakeMessage)
  | callSession (ref : SessionRef) (input : SessionInput)
  | closeSession (remoteNodeId : NodeID)
  | closeAllSessions
  | cleanupStaleSessions

/-- One call, with the clock readings made during it. -/
def PeerSystem.call (c : SessionCrypto) (s : PeerSystem) (clock : Clock) :
    PeerInput → PeerSystem × List PeerEvent
  | .connectToPeer secret peerId => s.connectToPeer c clock secret peerId
  | .disconnectPeer peerId =>
    (s.peers.disconnectPeer peerId).map (fun peers => { s with peers }) id
  | .disconnectAll => s.peers.disconnectAll.map (fun peers => { s with peers }) id
  | .cleanupIdleConnections =>
    (s.peers.cleanupIdleConnections clock).map (fun peers => { s with peers }) id
  | .sendToPeer random peerId data => (s.sendToPeer c clock random peerId data, [])
  | .addDiscoveredPeer nodeId address =>
    ({ s with peers := { s.peers with
        discovery := s.peers.discovery.addDiscoveredPeer (clock.read 0) nodeId address } }, [])
  | .updatePeerCapabilities nodeId capabilities =>
    ({ s with peers := { s.peers with
        discovery := s.peers.discovery.updatePeerCapabilities nodeId capabilities } }, [])
  | .handlePeerResponse msg => ({ s with peers := s.peers.handlePeerResponse clock msg }, [])
  | .createOutboundSession remoteNodeId =>
    ({ s with sessions := (s.sessions.createOutboundSession (clock.read 0) remoteNodeId).1 }, [])
  | .handleInboundHandshake secret handshake =>
    ({ s with sessions := (s.sessions.handleInboundHandshake c clock secret handshake).1 }, [])
  | .callSession ref input =>
    ({ s with sessions := (s.sessions.withSession ref fun session =>
        ((session.call c clock input).1, true)).1 }, [])
  | .closeSession remoteNodeId =>
    ({ s with sessions := s.sessions.closeSession remoteNodeId }, [])
  | .closeAllSessions => ({ s with sessions := s.sessions.closeAllSessions }, [])
  | .cleanupStaleSessions => ({ s with sessions := s.sessions.cleanupStaleSessions clock }, [])

def peerMachine (c : SessionCrypto) : Machine PeerSystem (Clock × PeerInput) PeerEvent where
  step s input := s.call c input.1 input.2

/-! ## Choosing peers at random

`select_random_peers` and `send_to_random_peers` with the loop as it runs on a vector: an
index of type `size_t` that counts down, and accesses that may go wrong.
`selectRandomPeers_eq` connects the first one to the selection of `Network/Peer`, which has
what the loop comes to. -/

/-- The first `count` elements of the shuffled vector. -/
def chooseRandom {α : Type} (draws : Nat → UInt64) (count : Nat) (l : List α) :
    Except LoopError (List α) :=
  (shuffleVector draws l).map (·.take count)

namespace PeerDiscovery

/-- `PeerDiscovery::select_random_peers`, step by step. -/
def selectRandomPeersLoop (d : PeerDiscovery) (clock : Clock) (draws : Nat → UInt64) (count : Nat)
    (exclude : List NodeID) : Except LoopError (List NodeID) :=
  chooseRandom draws count (d.availablePeers clock exclude)

/-- A filtered list of numbered entries has part of their keys. -/
theorem availablePeers_sublist (d : PeerDiscovery) (clock : Clock) (exclude : List NodeID) :
    (d.availablePeers clock exclude).Sublist (d.discoveredPeers.entries.map Prod.fst) := by
  have hkeys : d.discoveredPeers.entries.zipIdx.map (·.1.1) =
      d.discoveredPeers.entries.map Prod.fst := by
    rw [← List.zipIdx_map_fst 0 d.discoveredPeers.entries, List.map_map, List.zipIdx_map_fst]
    rfl
  rw [← hkeys]
  exact List.filter_sublist.map _

/-- Every available peer is there once. -/
theorem availablePeers_nodup (d : PeerDiscovery) (clock : Clock) (exclude : List NodeID) :
    (d.availablePeers clock exclude).Nodup :=
  d.discoveredPeers.keys_nodup.sublist (d.availablePeers_sublist clock exclude)

theorem availablePeers_length_le (d : PeerDiscovery) (clock : Clock) (exclude : List NodeID) :
    (d.availablePeers clock exclude).length ≤ d.discoveredPeers.entries.length := by
  have hle := (d.availablePeers_sublist clock exclude).length_le
  rwa [List.length_map] at hle

/-- The loop comes to the selection of `Network/Peer`. -/
theorem selectRandomPeers_eq {d : PeerDiscovery} (hsize : d.discoveredPeers.entries.length < 2 ^ 64)
    (clock : Clock) (draws : Nat → UInt64) (count : Nat) (exclude : List NodeID) :
    d.selectRandomPeersLoop clock draws count exclude =
      match d.selectRandomPeers clock draws count exclude with
      | some selected => .ok selected
      | none => .error .divisionByZero := by
  have hlen := d.availablePeers_length_le clock exclude
  unfold selectRandomPeersLoop selectRandomPeers chooseRandom
  cases havailable : d.availablePeers clock exclude with
  | nil => rw [shuffleVector_nil]; rfl
  | cons p rest =>
    rw [havailable] at hlen
    rw [shuffleVector_eq draws (List.cons_ne_nil p rest) (by omega)]
    rfl

end PeerDiscovery

namespace PeerSystem

/-- The peers `send_to_random_peers` sends to. -/
def randomConnections (s : PeerSystem) (draws : Nat → UInt64) (count : Nat) :
    Except LoopError (List NodeID) :=
  chooseRandom draws count (s.peers.activeConnections.entries.map (·.1))

/-- `for (...) send_to_peer(peer_ids[i], data)`, each call with its own readings of the clock
and its own random bytes. -/
def sendToPeers (c : SessionCrypto) (data : Bytes) :
    PeerSystem → (Nat → Clock × FixedBytes 4) → List NodeID → PeerSystem
  | s, _, [] => s
  | s, ambient, peerId :: rest =>
    sendToPeers c data (s.sendToPeer c (ambient 0).1 (ambient 0).2 peerId data)
      (fun i => ambient (i + 1)) rest

/-- `PeerManager::send_to_random_peers`. -/
def sendToRandomPeers (c : SessionCrypto) (s : PeerSystem) (ambient : Nat → Clock × FixedBytes 4)
    (draws : Nat → UInt64) (data : Bytes) (count : Nat) : Except LoopError PeerSystem :=
  (s.randomConnections draws count).map (s.sendToPeers c data ambient)

end PeerSystem

end Cashew
