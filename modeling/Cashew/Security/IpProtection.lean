import Cashew.Common
import Cashew.Lib.Expiring
import Cashew.Lib.Machine

/-!
# Hiding addresses

The three ways of `security/ip_protection.cpp`, and the `IPProtectionCoordinator` over them.
`TrafficPaddingEngine` sends a message with its padding's length and the padding behind it,
and cuts it out of the result again on the other side. `PeerRotationManager` replaces peers,
and `EphemeralAddressManager` keeps addresses that expire.

The clock is read anew at each test; a call that goes over a table gets its readings by the
place where they are taken. What is drawn at random is a parameter of the call: padding bytes,
and the random bytes that an id is the hash of. The jitter and the dummy traffic, which the
coordinator does not ask for, and the texts of the statistics are left out.
-/

namespace Cashew

open Cashew.Lib

/-! ## Traffic padding -/

/-- What `add_padding` draws: how much it pads beyond a full block, and the bytes. -/
structure PaddingDraw where
  randomExtra : Fin 65
  bytes : Nat → UInt8

/-- `crypto::Random::generate`. -/
def PaddingDraw.generate (draw : PaddingDraw) (size : Nat) : Bytes :=
  (List.range size).map draw.bytes

/-- `TrafficPaddingEngine`. -/
structure TrafficPaddingEngine where
  paddingEnabled : Bool := true
  deriving DecidableEq

namespace TrafficPaddingEngine

/-- `TrafficPaddingEngine::calculate_padding_size`. -/
def calculatePaddingSize (draw : PaddingDraw) (messageSize : Nat) : Nat :=
  let blockSize := 128
  let paddedSize := (messageSize + blockSize - 1) / blockSize * blockSize
  (paddedSize - messageSize) + draw.randomExtra

/-- `TrafficPaddingEngine::add_padding`. -/
def addPadding (e : TrafficPaddingEngine) (draw : PaddingDraw) (message : Bytes) : Bytes :=
  if !e.paddingEnabled then message
  else
    let paddingSize := calculatePaddingSize draw message.length
    let padLen := UInt16.ofNat paddingSize
    message ++ [(padLen &&& 0xff).toUInt8, (padLen >>> 8 &&& 0xff).toUInt8] ++
      draw.generate paddingSize

/-- `TrafficPaddingEngine::remove_padding`. The length is read right in front of the last
two bytes. -/
def removePadding (e : TrafficPaddingEngine) (paddedMessage : Bytes) : Option Bytes :=
  if !e.paddingEnabled || paddedMessage.length < 2 then some paddedMessage
  else
    let messageEnd := paddedMessage.length - 2
    if messageEnd < 2 then none
    else
      let low := (paddedMessage[messageEnd - 2]?).getD 0
      let high := (paddedMessage[messageEnd - 1]?).getD 0
      let padLen := low.toUInt16 ||| high.toUInt16 <<< 8
      if messageEnd < 2 + padLen.toNat then none
      else some (paddedMessage.take (messageEnd - 2))

end TrafficPaddingEngine

/-! ## Peer rotation -/

/-- `ConnectionInfo`. -/
structure ConnectionInfo where
  peerId : NodeID
  ipAddress : Text
  port : UInt16
  connectionTime : UInt64
  lastActivityTime : UInt64
  bytesSent : UInt64 := 0
  bytesReceived : UInt64 := 0
  messagesSent : UInt32 := 0
  messagesReceived : UInt32 := 0
  deriving DecidableEq

namespace ConnectionInfo

/-- `ConnectionInfo::connection_duration`, unsigned. -/
def connectionDuration (conn : ConnectionInfo) (now : Time) : UInt64 :=
  now.secs - conn.connectionTime

/-- `ConnectionInfo::is_stale`. -/
def isStale (conn : ConnectionInfo) (now : Time) (staleThreshold : UInt64) : Bool :=
  staleThreshold < now.secs - conn.lastActivityTime

end ConnectionInfo

/-- `PeerRotationPolicy`. The share of the peers to rotate is a product of floats that is cut
off; of fewer than 2^24 peers `0.25f` makes the quarter. -/
structure PeerRotationPolicy where
  maxConnectionDuration : UInt64 := 1800
  minConnectionDuration : UInt64 := 300
  activityTimeout : UInt64 := 600
  rotationInterval : UInt64 := 120
  minPeerPoolSize : Nat := 8
  rotationShare : Nat → Nat := (· / 4)

/-- The places of `select_peers_for_rotation` where the clock is read. -/
inductive RotationReading where
  | start
  | tested (peerId : NodeID)
  | stale (peerId : NodeID)
  | listed (peerId : NodeID)

/-- `std::sort` by duration, the longest first. In which order it leaves equal durations is
not said. -/
structure SortByDuration where
  run : List (NodeID × UInt64) → List (NodeID × UInt64)
  perm : ∀ candidates, (run candidates).Perm candidates
  sorted : ∀ candidates, (run candidates).Pairwise fun a b => b.2 ≤ a.2

/-- One such sort, which leaves equal durations as they stand. -/
def SortByDuration.stable : SortByDuration where
  run candidates := candidates.insertionSort fun a b => b.2 ≤ a.2
  perm candidates := List.perm_insertionSort _ candidates
  sorted _ := List.pairwise_insertionSort (fun a b : NodeID × UInt64 => b.2 ≤ a.2) _

/-- `PeerRotationManager`. `forced_rotations_` is never counted. -/
structure PeerRotationManager where
  policy : PeerRotationPolicy
  connections : OrdMap NodeID ConnectionInfo := .empty
  lastRotationTime : UInt64
  totalRotations : UInt64 := 0

namespace PeerRotationManager

/-- `PeerRotationManager::PeerRotationManager`. -/
def new (policy : PeerRotationPolicy) (now : Time) : PeerRotationManager where
  policy
  lastRotationTime := now.secs

/-- `PeerRotationManager::register_connection`. -/
def registerConnection (m : PeerRotationManager) (now : Time) (peerId : NodeID)
    (ipAddress : Text) (port : UInt16) : PeerRotationManager :=
  { m with
    connections := m.connections.insert peerId
      { peerId, ipAddress, port, connectionTime := now.secs, lastActivityTime := now.secs } }

/-- `PeerRotationManager::update_activity`. -/
def updateActivity (m : PeerRotationManager) (now : Time) (peerId : NodeID)
    (bytesSent bytesReceived : Nat) : PeerRotationManager :=
  { m with
    connections := m.connections.modify peerId fun conn =>
      { conn with
        lastActivityTime := now.secs
        bytesSent := conn.bytesSent + UInt64.ofNat bytesSent
        bytesReceived := conn.bytesReceived + UInt64.ofNat bytesReceived
        messagesSent := conn.messagesSent + if 0 < bytesSent then 1 else 0
        messagesReceived := conn.messagesReceived + if 0 < bytesReceived then 1 else 0 } }

/-- `PeerRotationManager::unregister_connection`. -/
def unregisterConnection (m : PeerRotationManager) (peerId : NodeID) : PeerRotationManager :=
  { m with connections := m.connections.erase peerId }

/-- `PeerRotationManager::meets_rotation_criteria`. -/
def meetsRotationCriteria (m : PeerRotationManager) (tested stale : Time)
    (conn : ConnectionInfo) : Bool :=
  let duration := conn.connectionDuration tested
  if duration < m.policy.minConnectionDuration then false
  else if m.policy.maxConnectionDuration ≤ duration then true
  else conn.isStale stale m.policy.activityTimeout

/-- The peers that should be rotated, with the durations of their connections. -/
def candidates (m : PeerRotationManager) (now : RotationReading → Time) :
    List (NodeID × UInt64) :=
  m.connections.entries.filterMap fun entry =>
    if m.meetsRotationCriteria (now (.tested entry.1)) (now (.stale entry.1)) entry.2 then
      some (entry.1, entry.2.connectionDuration (now (.listed entry.1)))
    else none

/-- `PeerRotationManager::select_peers_for_rotation`. -/
def selectPeersForRotation (m : PeerRotationManager) (sort : SortByDuration)
    (now : RotationReading → Time) : PeerRotationManager × List NodeID :=
  if m.connections.entries.length < m.policy.minPeerPoolSize then (m, [])
  else
    let current := (now .start).secs
    if current - m.lastRotationTime < m.policy.rotationInterval then (m, [])
    else
      let candidates := m.candidates now
      let numToRotate := min (m.policy.rotationShare m.connections.entries.length)
        candidates.length
      let toRotate := ((sort.run candidates).take numToRotate).map Prod.fst
      -- the peers stay in the table until their connections are closed
      if toRotate = [] then (m, [])
      else
        ({ m with
            lastRotationTime := current
            totalRotations := m.totalRotations + UInt64.ofNat toRotate.length },
          toRotate)

/-- `PeerRotationManager::should_rotate_peer`. -/
def shouldRotatePeer (m : PeerRotationManager) (tested stale : Time) (peerId : NodeID) : Bool :=
  (m.connections.find? peerId).any (m.meetsRotationCriteria tested stale)

/-- `PeerRotationManager::time_until_next_rotation`. -/
def timeUntilNextRotation (m : PeerRotationManager) (now : Time) : UInt64 :=
  let elapsed := now.secs - m.lastRotationTime
  if m.policy.rotationInterval ≤ elapsed then 0 else m.policy.rotationInterval - elapsed

end PeerRotationManager

/-- The calls on a rotation manager. -/
inductive RotationInput where
  | registerConnection (now : Time) (peerId : NodeID) (ipAddress : Text) (port : UInt16)
  | updateActivity (now : Time) (peerId : NodeID) (bytesSent bytesReceived : Nat)
  | unregisterConnection (peerId : NodeID)
  | selectPeersForRotation (now : RotationReading → Time)

/-- A round of rotation: when, and which peers. -/
structure RotationRound where
  now : RotationReading → Time
  peers : List NodeID

/-- One call, and the round of rotation it makes. -/
def PeerRotationManager.call (sort : SortByDuration) (m : PeerRotationManager) :
    RotationInput → PeerRotationManager × List RotationRound
  | .registerConnection now peerId ipAddress port =>
    (m.registerConnection now peerId ipAddress port, [])
  | .updateActivity now peerId bytesSent bytesReceived =>
    (m.updateActivity now peerId bytesSent bytesReceived, [])
  | .unregisterConnection peerId => (m.unregisterConnection peerId, [])
  | .selectPeersForRotation now =>
    let selected := m.selectPeersForRotation sort now
    (selected.1, if selected.2 = [] then [] else [⟨now, selected.2⟩])

/-- `EphemeralAddress`. -/
structure EphemeralAddress where
  ephemeralId : Hash256
  creationTime : UInt64
  expiryTime : UInt64
  actualNodeId : NodeID
  deriving DecidableEq

namespace EphemeralAddress

/-- `EphemeralAddress::is_expired`. -/
def isExpired (addr : EphemeralAddress) (now : Time) : Bool := addr.expiryTime ≤ now.secs

/-- `EphemeralAddress::time_remaining`. -/
def timeRemaining (addr : EphemeralAddress) (now : Time) : UInt64 :=
  if addr.expiryTime ≤ now.secs then 0 else addr.expiryTime - now.secs

end EphemeralAddress

/-- `EphemeralAddressManager`. -/
structure EphemeralAddressManager where
  addresses : OrdMap Hash256 EphemeralAddress := .empty
  currentOwnEphemeralId : Hash256
  defaultTtl : UInt64 := 3600
  rotationCount : UInt64 := 0

namespace EphemeralAddressManager

/-- `EphemeralAddressManager::generate_ephemeral_id`. -/
def generateEphemeralId (H : Bytes → Hash256) (random : Hash256) : Hash256 := H random.bytes

variable (H : Bytes → Hash256)

/-- `EphemeralAddressManager::EphemeralAddressManager`. -/
def new (random : Hash256) : EphemeralAddressManager where
  currentOwnEphemeralId := generateEphemeralId H random

/-- The address that `create_address` makes. -/
def makeAddress (defaultTtl : UInt64) (now : Time) (random : Hash256) (nodeId : NodeID)
    (ttl : UInt64) : EphemeralAddress where
  ephemeralId := generateEphemeralId H random
  creationTime := now.secs
  expiryTime := now.secs + if ttl = 0 then defaultTtl else ttl
  actualNodeId := nodeId

/-- `EphemeralAddressManager::create_address`. -/
def createAddress (m : EphemeralAddressManager) (now : Time) (random : Hash256) (nodeId : NodeID)
    (ttl : UInt64) : EphemeralAddressManager × EphemeralAddress :=
  let addr := makeAddress H m.defaultTtl now random nodeId ttl
  ({ m with addresses := m.addresses.insert addr.ephemeralId addr }, addr)

/-- `EphemeralAddressManager::resolve_address`. -/
def resolveAddress (m : EphemeralAddressManager) (now : Time) (ephemeralId : Hash256) :
    EphemeralAddressManager × Option NodeID :=
  match m.addresses.find? ephemeralId with
  | none => (m, none)
  | some addr =>
    if addr.isExpired now then ({ m with addresses := m.addresses.erase ephemeralId }, none)
    else (m, some addr.actualNodeId)

/-- `EphemeralAddressManager::revoke_address`. -/
def revokeAddress (m : EphemeralAddressManager) (ephemeralId : Hash256) :
    EphemeralAddressManager :=
  { m with addresses := m.addresses.erase ephemeralId }

/-- `EphemeralAddressManager::cleanup_expired`, with the reading for each address. -/
def cleanupExpired (m : EphemeralAddressManager) (now : Hash256 → Time) :
    EphemeralAddressManager :=
  { m with addresses := m.addresses.filter fun id addr => !addr.isExpired (now id) }

/-- `EphemeralAddressManager::rotate_own_address`. -/
def rotateOwnAddress (m : EphemeralAddressManager) (random : Hash256) :
    EphemeralAddressManager :=
  { m with
    currentOwnEphemeralId := generateEphemeralId H random
    rotationCount := m.rotationCount + 1 }

end EphemeralAddressManager

/-- The calls on an address manager. -/
inductive EphemeralInput where
  | createAddress (now : Time) (random : Hash256) (nodeId : NodeID) (ttl : UInt64)
  | resolveAddress (now : Time) (ephemeralId : Hash256)
  | revokeAddress (ephemeralId : Hash256)
  | cleanupExpired (now : Hash256 → Time)
  | rotateOwnAddress (random : Hash256)

/-- One call, and the addresses it resolves. -/
def EphemeralAddressManager.call (H : Bytes → Hash256) (m : EphemeralAddressManager) :
    EphemeralInput → EphemeralAddressManager × List NodeID
  | .createAddress now random nodeId ttl => ((m.createAddress H now random nodeId ttl).1, [])
  | .resolveAddress now ephemeralId =>
    ((m.resolveAddress now ephemeralId).1, (m.resolveAddress now ephemeralId).2.toList)
  | .revokeAddress ephemeralId => (m.revokeAddress ephemeralId, [])
  | .cleanupExpired now => (m.cleanupExpired now, [])
  | .rotateOwnAddress random => (m.rotateOwnAddress H random, [])

/-- `IPProtectionCoordinator`. -/
structure IpProtectionCoordinator where
  rotationManager : PeerRotationManager
  ephemeralManager : EphemeralAddressManager
  paddingEngine : TrafficPaddingEngine := {}
  peerRotationEnabled : Bool := true
  ephemeralAddressingEnabled : Bool := true
  lastTickTime : UInt64
  messagesPadded : UInt64 := 0

/-- The calls on a coordinator. -/
inductive IpInput where
  | onConnectionEstablished (now : Time) (peerId : NodeID) (ip : Text) (port : UInt16)
  | onConnectionClosed (peerId : NodeID)
  | onDataSent (now : Time) (peerId : NodeID) (bytes : Nat)
  | onDataReceived (now : Time) (peerId : NodeID) (bytes : Nat)
  | tick (now : Time) (cleanup : Hash256 → Time) (random : Hash256)
  | getPeersToRotate (now : RotationReading → Time)
  | createEphemeralAddress (now : Time) (random : Hash256) (nodeId : NodeID)
  | resolveEphemeralAddress (now : Time) (ephemeralId : Hash256)
  | prepareOutgoingMessage (draw : PaddingDraw) (message : Bytes)
  | enablePeerRotation (enable : Bool)
  | enableEphemeralAddressing (enable : Bool)
  | enableTrafficPadding (enable : Bool)

namespace IpProtectionCoordinator

variable (H : Bytes → Hash256) (sort : SortByDuration)

/-- `IPProtectionCoordinator::IPProtectionCoordinator`. -/
def new (policy : PeerRotationPolicy) (now : Time) (random : Hash256) :
    IpProtectionCoordinator where
  rotationManager := .new policy now
  ephemeralManager := .new H random
  lastTickTime := now.secs

/-- A call passed on to the rotation manager, if rotation is on. -/
def onRotation (c : IpProtectionCoordinator)
    (change : PeerRotationManager → PeerRotationManager) : IpProtectionCoordinator :=
  if c.peerRotationEnabled then { c with rotationManager := change c.rotationManager } else c

/-- `IPProtectionCoordinator::tick`. -/
def tick (c : IpProtectionCoordinator) (now : Time) (cleanup : Hash256 → Time)
    (random : Hash256) : IpProtectionCoordinator :=
  let sinceTick := now.secs - c.lastTickTime
  let cleaned :=
    if c.ephemeralAddressingEnabled ∧ 60 ≤ sinceTick then c.ephemeralManager.cleanupExpired cleanup
    else c.ephemeralManager
  let rotated :=
    if c.ephemeralAddressingEnabled ∧ 1800 ≤ sinceTick then cleaned.rotateOwnAddress H random
    else cleaned
  { c with ephemeralManager := rotated, lastTickTime := now.secs }

/-- `IPProtectionCoordinator::get_peers_to_rotate`. -/
def getPeersToRotate (c : IpProtectionCoordinator) (now : RotationReading → Time) :
    IpProtectionCoordinator × List NodeID :=
  if !c.peerRotationEnabled then (c, [])
  else
    let selected := c.rotationManager.selectPeersForRotation sort now
    ({ c with rotationManager := selected.1 }, selected.2)

/-- `IPProtectionCoordinator::prepare_outgoing_message`. -/
def prepareOutgoingMessage (c : IpProtectionCoordinator) (draw : PaddingDraw) (message : Bytes) :
    IpProtectionCoordinator × Bytes :=
  let padded := c.paddingEngine.addPadding draw message
  ({ c with
      messagesPadded := c.messagesPadded + if padded.length = message.length then 0 else 1 },
    padded)

/-- One call. -/
def call (c : IpProtectionCoordinator) : IpInput → IpProtectionCoordinator
  | .onConnectionEstablished now peerId ip port =>
    c.onRotation (·.registerConnection now peerId ip port)
  | .onConnectionClosed peerId => c.onRotation (·.unregisterConnection peerId)
  | .onDataSent now peerId bytes => c.onRotation (·.updateActivity now peerId bytes 0)
  | .onDataReceived now peerId bytes => c.onRotation (·.updateActivity now peerId 0 bytes)
  | .tick now cleanup random => c.tick H now cleanup random
  | .getPeersToRotate now => (c.getPeersToRotate sort now).1
  | .createEphemeralAddress now random nodeId =>
    { c with ephemeralManager := (c.ephemeralManager.createAddress H now random nodeId 0).1 }
  | .resolveEphemeralAddress now ephemeralId =>
    { c with ephemeralManager := (c.ephemeralManager.resolveAddress now ephemeralId).1 }
  | .prepareOutgoingMessage draw message => (c.prepareOutgoingMessage draw message).1
  | .enablePeerRotation enable => { c with peerRotationEnabled := enable }
  | .enableEphemeralAddressing enable => { c with ephemeralAddressingEnabled := enable }
  | .enableTrafficPadding enable => { c with paddingEngine := ⟨enable⟩ }

end IpProtectionCoordinator

def ipMachine (H : Bytes → Hash256) (sort : SortByDuration) :
    Machine IpProtectionCoordinator IpInput Unit where
  step c input := (c.call H sort input, [])

end Cashew
