import Cashew.Network.PeerManager

/-!
# Bootstrap nodes, records of peers, and the periodic work

What `PeerManager` of `network/peer.cpp` does with many peers at once, together with the calls
of `Network/PeerManager`: connecting to bootstrap nodes, filling up to the target number of
peers, trying failed peers again, sending to all, cleaning up, reading a peer database. Each
of them chooses peers and then does something for one after the other (`eachRound`).

There are two views of it. A `PeerNode` shows what happens to the peers, to compare the
records with that: `get_peer_info` returns a copy, and `connection_attempts` and
`successful_connections` are incremented on such a copy, and `is_bootstrap` is set on one, so
none of the three reaches the record that is kept. A `PeerKeeper` also keeps the times of its
attempts, and so has what the periodic work goes by; it shows its attempts to connect.

A peer database is given by the nodes and the records that are read from it.
-/

namespace Cashew

open Cashew.Lib

/-- `BootstrapNode`; its description is for the log. -/
structure BootstrapNode where
  address : Text
  publicKey : PublicKey

/-- The id of a bootstrap node, the hash of its key. -/
def BootstrapNode.nodeId (H : Bytes → Hash256) (node : BootstrapNode) : NodeID :=
  ⟨H node.publicKey.bytes⟩

namespace PeerDiscovery

/-- The peers `cleanup_stale_peers` removes, each looked at with its own reading of the
clock. -/
def stalePeers (d : PeerDiscovery) (clock : Clock) : List NodeID :=
  (d.discoveredPeers.entries.zipIdx.filter fun e =>
    e.1.2.isStale (clock.read e.2) && !e.1.2.isBootstrap).map (·.1.1)

/-- `PeerDiscovery::cleanup_stale_peers`. -/
def cleanupStalePeers (d : PeerDiscovery) (clock : Clock) : PeerDiscovery :=
  { d with discoveredPeers := (d.stalePeers clock).foldl OrdMap.erase d.discoveredPeers }

/-- The loop of `PeerDiscovery::load_from_disk` over the records. -/
def loadPeers (d : PeerDiscovery) (infos : List PeerInfo) : PeerDiscovery :=
  { d with
    discoveredPeers :=
      infos.foldl (fun peers info => peers.insert info.nodeId info) d.discoveredPeers }

end PeerDiscovery

/-- What happens to a peer: it gets a record, a record of it is read from a database, a
connection to it succeeds or fails, it is gone through as a bootstrap node. -/
inductive ContactEvent where
  | discovered (p : NodeID)
  | restored (info : PeerInfo)
  | attempted (p : NodeID) (success : Bool)
  | bootstrapped (p : NodeID)
  deriving DecidableEq

/-- The peers that have a record now and had none before. -/
def discoveries (before after : PeerDiscovery) : List ContactEvent :=
  ((after.discoveredPeers.entries.map (·.1)).filter fun p =>
    (before.getPeerInfo p).isNone).map .discovered

/-- The tests of `connect_to_peer` pass. -/
def PeerManager.mayConnect (m : PeerManager) (p : NodeID) : Bool :=
  !m.isConnected p && m.canConnectMorePeers && m.shouldConnectToPeer p

/-- What `connect_to_peer` comes to. -/
def PeerSystem.contacts (c : SessionCrypto) (s : PeerSystem) (clock : Clock) (secret : SecretKey)
    (p : NodeID) : List ContactEvent :=
  if s.peers.mayConnect p then
    [.attempted p (decide (PeerEvent.connected p ∈ (s.connectToPeer c clock secret p).2))]
  else []

/-- A loop over peers, each round with what is its own: its readings of the clock and its
secret. -/
def eachRound {S A I E : Type} (round : S → A → I → S × List E) :
    S → (Nat → A) → List I → S × List E
  | s, _, [] => (s, [])
  | s, ambient, item :: rest =>
    let first := round s (ambient 0) item
    let others := eachRound round first.1 (fun i => ambient (i + 1)) rest
    (others.1, first.2 ++ others.2)

/-- A `PeerManager` with its bootstrap nodes. -/
structure PeerNode where
  system : PeerSystem
  bootstrapNodes : List BootstrapNode := []
  maxBootstrapPeers : Nat := 10

namespace PeerNode

variable (c : SessionCrypto) (H : Bytes → Hash256)

/-- One round of the loop of `connect_to_bootstrap_nodes`. -/
def connectToBootstrapNode (s : PeerSystem) (clock : Clock) (secret : SecretKey)
    (node : BootstrapNode) : PeerSystem × List ContactEvent :=
  let p := node.nodeId H
  let discovery := s.peers.discovery.addDiscoveredPeer (clock.read 0) p node.address
  -- `is_bootstrap` is set on what `get_peer_info` returns, which is dropped
  let added : PeerSystem := { s with peers := { s.peers with discovery } }
  ((added.connectToPeer c (clock.after 1) secret p).1,
    discoveries s.peers.discovery discovery ++
      .bootstrapped p :: added.contacts c (clock.after 1) secret p)

/-- The loop. -/
def connectToBootstrapLoop :
    PeerSystem → (Nat → Clock × SecretKey) → List BootstrapNode → PeerSystem × List ContactEvent :=
  eachRound fun s ambient node => connectToBootstrapNode c H s ambient.1 ambient.2 node

/-- `PeerManager::connect_to_bootstrap_nodes`. -/
def connectToBootstrapNodes (n : PeerNode) (ambient : Nat → Clock × SecretKey) :
    PeerNode × List ContactEvent :=
  let done := connectToBootstrapLoop c H n.system ambient
    (n.bootstrapNodes.take n.maxBootstrapPeers)
  ({ n with system := done.1 }, done.2)

/-- What a call of `Network/PeerManager` comes to for the peers. -/
def callContacts (s : PeerSystem) (clock : Clock) (input : PeerInput) : List ContactEvent :=
  match input with
  | .connectToPeer secret p => s.contacts c clock secret p
  | input => discoveries s.peers.discovery (s.call c clock input).1.peers.discovery

end PeerNode

/-- The calls that bear on the records. -/
inductive RecordInput where
  | call (clock : Clock) (input : PeerInput)
  | addBootstrapNode (node : BootstrapNode)
  | connectToBootstrapNodes (ambient : Nat → Clock × SecretKey)
  | cleanupStalePeers (clock : Clock)
  | loadPeerDatabase (nodes : List BootstrapNode) (infos : List PeerInfo)
  | setPolicy (policy : ConnectionPolicy) (maxBootstrapPeers : Nat)

/-- One call. -/
def PeerNode.call (c : SessionCrypto) (H : Bytes → Hash256) (n : PeerNode) :
    RecordInput → PeerNode × List ContactEvent
  | .call clock input =>
    ({ n with system := (n.system.call c clock input).1 }, callContacts c n.system clock input)
  | .addBootstrapNode node => ({ n with bootstrapNodes := n.bootstrapNodes ++ [node] }, [])
  | .connectToBootstrapNodes ambient => n.connectToBootstrapNodes c H ambient
  | .cleanupStalePeers clock =>
    let discovery := n.system.peers.discovery.cleanupStalePeers clock
    ({ n with system := { n.system with peers := { n.system.peers with discovery } } }, [])
  | .loadPeerDatabase nodes infos =>
    let discovery := n.system.peers.discovery.loadPeers infos
    ({ n with
        system := { n.system with peers := { n.system.peers with discovery } }
        bootstrapNodes := n.bootstrapNodes ++ nodes }, infos.map .restored)
  | .setPolicy policy maxBootstrapPeers =>
    ({ n with
        system := { n.system with peers := { n.system.peers with policy } }
        maxBootstrapPeers }, [])

def recordMachine (c : SessionCrypto) (H : Bytes → Hash256) :
    Machine PeerNode RecordInput ContactEvent where
  step n input := n.call c H input

/-! ## The periodic work

`select_peers_to_connect` sorts by a score with `std::sort`, which may leave peers of one
score in any order: the sorting is a parameter. -/

namespace PeerDiscovery

/-- The score of `select_peers_to_connect`. -/
def connectScore (info : PeerInfo) : Float32 :=
  info.reliabilityScore * 1.0 + if info.isBootstrap then 0.5 else 0.0

/-- The available peers with their scores. -/
def scoredPeers (d : PeerDiscovery) (clock : Clock) (exclude : List NodeID) :
    List (NodeID × Float32) :=
  (d.availablePeers clock exclude).filterMap fun p =>
    (d.getPeerInfo p).map fun info => (p, connectScore info)

/-- `PeerDiscovery::select_peers_to_connect`. -/
def selectPeersToConnect (d : PeerDiscovery) (clock : Clock)
    (sort : List (NodeID × Float32) → List (NodeID × Float32)) (count : Nat)
    (exclude : List NodeID) : List NodeID :=
  ((sort (d.scoredPeers clock exclude)).take count).map Prod.fst

end PeerDiscovery

namespace PeerManager

/-- `PeerManager::handle_peer_announcement`. -/
def handlePeerAnnouncement (m : PeerManager) (clock : Clock) (msg : PeerAnnouncementMessage) :
    PeerManager :=
  if msg.signature.bytes.all (· == 0) then m
  else if 300 < timeDiff msg.timestamp (clock.read 0).secs then m
  else if msg.nodeId = m.localNodeId then m
  else if msg.listenAddress.bytes = [] then m
  else
    { m with
      discovery := (m.discovery.addDiscoveredPeer (clock.read 1) msg.nodeId
        msg.listenAddress).updatePeerCapabilities msg.nodeId msg.capabilities }

end PeerManager

/-- An attempt to connect, and whether it succeeded. -/
abbrev Attempt : Type := NodeID × Bool

/-- The attempts among what happens to the peers. -/
def attemptsOf (events : List ContactEvent) : List Attempt :=
  events.filterMap fun
    | .attempted p success => some (p, success)
    | _ => none

/-- A `PeerManager` with its bootstrap nodes, the times of its attempts and the rest of
its policy. -/
structure PeerKeeper where
  system : PeerSystem
  bootstrapNodes : List BootstrapNode := []
  lastConnectionAttempt : OrdMap NodeID UInt64 := OrdMap.empty
  targetPeers : Nat := 20
  maxBootstrapPeers : Nat := 10
  reconnectDelaySeconds : UInt32 := 60

namespace PeerKeeper

variable (c : SessionCrypto) (H : Bytes → Hash256)

/-- Another state of the peer manager. -/
def withPeers (k : PeerKeeper) (peers : PeerManager) : PeerKeeper :=
  { k with system := { k.system with peers } }

/-- The manager after a call with these attempts, made at this time. -/
def attempted (k : PeerKeeper) (system : PeerSystem) (now : Time) (events : List ContactEvent) :
    PeerKeeper × List Attempt :=
  let attempts := attemptsOf events
  ({ k with
      system
      lastConnectionAttempt := attempts.foldl
        (fun times attempt => times.insert attempt.1 now.secs) k.lastConnectionAttempt },
    attempts)

/-- `PeerManager::connect_to_peer`, with the time it keeps of an attempt. -/
def connectToPeer (k : PeerKeeper) (clock : Clock) (secret : SecretKey) (p : NodeID) :
    PeerKeeper × List Attempt :=
  k.attempted (k.system.connectToPeer c (clock.after 1) secret p).1 (clock.read 0)
    (k.system.contacts c (clock.after 1) secret p)

/-- The loop `for (const auto& peer_id : peers)` over peers that have a record. -/
def connectToPeers : PeerKeeper → (Nat → Clock × SecretKey) → List NodeID →
    PeerKeeper × List Attempt :=
  eachRound fun k ambient p =>
    if (k.system.peers.discovery.getPeerInfo p).isSome then k.connectToPeer c ambient.1 ambient.2 p
    else (k, [])

/-- One round of the loop of `connect_to_bootstrap_nodes`, with the time it keeps of an
attempt. -/
def connectToBootstrapNode (k : PeerKeeper) (clock : Clock) (secret : SecretKey)
    (node : BootstrapNode) : PeerKeeper × List Attempt :=
  -- the clock is read for the attempt once the node has its record
  let others : Clock := ⟨fun i => clock.read (if i = 0 then 0 else i + 1)⟩
  let done := PeerNode.connectToBootstrapNode c H k.system others secret node
  k.attempted done.1 (clock.read 1) done.2

/-- `PeerManager::connect_to_bootstrap_nodes`. -/
def connectToBootstrapNodes (k : PeerKeeper) (ambient : Nat → Clock × SecretKey) :
    PeerKeeper × List Attempt :=
  eachRound (fun k ambient node => k.connectToBootstrapNode c H ambient.1 ambient.2 node) k ambient
    (k.bootstrapNodes.take k.maxBootstrapPeers)

/-- The first half of `maintain_peer_connections`: the cleanups. -/
def cleanup (k : PeerKeeper) (staleClock idleClock : Clock) : PeerKeeper :=
  let discovery := k.system.peers.discovery.cleanupStalePeers staleClock
  k.withPeers ({ k.system.peers with discovery }.cleanupIdleConnections idleClock).1

/-- The peers `maintain_peer_connections` connects to. -/
def peersToConnect (k : PeerKeeper) (clock : Clock)
    (sort : List (NodeID × Float32) → List (NodeID × Float32)) : List NodeID :=
  let connected := k.system.peers.activeConnections.entries.map Prod.fst
  if connected.length < k.targetPeers then
    k.system.peers.discovery.selectPeersToConnect clock sort (k.targetPeers - connected.length)
      (k.system.peers.localNodeId :: connected)
  else []

/-- `PeerManager::maintain_peer_connections`. -/
def maintainPeerConnections (k : PeerKeeper) (staleClock idleClock selectClock : Clock)
    (sort : List (NodeID × Float32) → List (NodeID × Float32))
    (ambient : Nat → Clock × SecretKey) : PeerKeeper × List Attempt :=
  let cleaned := k.cleanup staleClock idleClock
  cleaned.connectToPeers c ambient (cleaned.peersToConnect selectClock sort)

/-- `max_retries`. -/
def maxRetries : Nat := 5

/-- The peers `attempt_reconnections` tries again. -/
def peersToRetry (k : PeerKeeper) (now : Time) : List NodeID :=
  ((k.lastConnectionAttempt.entries.filter fun e =>
    !k.system.peers.isConnected e.1 &&
      decide (k.reconnectDelaySeconds.toUInt64 ≤ now.secs - e.2) &&
        !k.system.peers.hasFailedTooOften e.1).map Prod.fst).take maxRetries

/-- `PeerManager::attempt_reconnections`. -/
def attemptReconnections (k : PeerKeeper) (now : Time) (ambient : Nat → Clock × SecretKey) :
    PeerKeeper × List Attempt :=
  k.connectToPeers c ambient (k.peersToRetry now)

/-- `PeerManager::broadcast_to_peers`. -/
def broadcastToPeers (k : PeerKeeper) (ambient : Nat → Clock × FixedBytes 4) (data : Bytes) :
    PeerKeeper :=
  { k with
    system := k.system.sendToPeers c data ambient
      (k.system.peers.activeConnections.entries.map Prod.fst) }

end PeerKeeper

/-- The calls of a `PeerManager`, the periodic ones included. -/
inductive KeeperInput where
  | call (clock : Clock) (input : PeerInput)
  | addBootstrapNode (node : BootstrapNode)
  | connectToBootstrapNodes (ambient : Nat → Clock × SecretKey)
  | maintainPeerConnections (staleClock idleClock selectClock : Clock)
      (sort : List (NodeID × Float32) → List (NodeID × Float32))
      (ambient : Nat → Clock × SecretKey)
  | attemptReconnections (now : Time) (ambient : Nat → Clock × SecretKey)
  | broadcastToPeers (ambient : Nat → Clock × FixedBytes 4) (data : Bytes)
  | handlePeerAnnouncement (clock : Clock) (msg : PeerAnnouncementMessage)
  | loadPeerDatabase (nodes : List BootstrapNode) (infos : List PeerInfo)

/-- One call. -/
def PeerKeeper.call (c : SessionCrypto) (H : Bytes → Hash256) (k : PeerKeeper) :
    KeeperInput → PeerKeeper × List Attempt
  | .call clock (.connectToPeer secret p) => k.connectToPeer c clock secret p
  | .call clock input => ({ k with system := (k.system.call c clock input).1 }, [])
  | .addBootstrapNode node => ({ k with bootstrapNodes := k.bootstrapNodes ++ [node] }, [])
  | .connectToBootstrapNodes ambient => k.connectToBootstrapNodes c H ambient
  | .maintainPeerConnections staleClock idleClock selectClock sort ambient =>
    k.maintainPeerConnections c staleClock idleClock selectClock sort ambient
  | .attemptReconnections now ambient => k.attemptReconnections c now ambient
  | .broadcastToPeers ambient data => (k.broadcastToPeers c ambient data, [])
  | .handlePeerAnnouncement clock msg =>
    (k.withPeers (k.system.peers.handlePeerAnnouncement clock msg), [])
  | .loadPeerDatabase nodes infos =>
    let discovery := k.system.peers.discovery.loadPeers infos
    ({ k.withPeers { k.system.peers with discovery } with
        bootstrapNodes := k.bootstrapNodes ++ nodes }, [])

def keeperMachine (c : SessionCrypto) (H : Bytes → Hash256) :
    Machine PeerKeeper KeeperInput Attempt where
  step k input := k.call c H input

/-- A node at its start, under a policy. -/
def PeerKeeper.fresh (localNodeId : NodeID) (policy : ConnectionPolicy)
    (targetPeers maxBootstrapPeers : Nat) (reconnectDelaySeconds : UInt32) : PeerKeeper where
  system := PeerSystem.fresh localNodeId policy {}
  targetPeers
  maxBootstrapPeers
  reconnectDelaySeconds

end Cashew
