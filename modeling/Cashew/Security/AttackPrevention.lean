import Cashew.Common
import Cashew.Keys.ProofOfWork
import Cashew.Lib.Machine
import Cashew.Security.RateLimiter

/-!
# Defences against attacks

The `AttackPreventionCoordinator` of `security/attack_prevention.cpp` and the defences it
owns. An incoming connection is validated by `DDoSMitigation` first; the count of its address
is raised when it is established and lowered when it is closed. Of the fork detector this part
reads the forked nodes only, and the rate limiter and the Sybil defence play no part in it.

`ForkDetector` keeps the keys that nodes were seen with. The times and the count beside a key
are read nowhere and are left out. So are what the coordinator logs, its threat level and the
statistics.
-/

namespace Cashew

open Cashew.Lib

/-- `IPConnectionInfo`. -/
structure IPConnectionInfo where
  activeConnections : Nat := 0
  totalConnections : UInt64 := 0
  lastConnectionTime : UInt64 := 0
  connectionTimestamps : List UInt64 := []

/-- `BlockEntry`. -/
structure BlockEntry where
  blockTime : UInt64
  expiryTime : UInt64
  reason : Text

/-! ## Mitigation -/

/-- `DDoSMitigation`. -/
structure DDoSMitigation where
  ipConnections : OrdMap Text IPConnectionInfo := .empty
  blockedIps : OrdMap Text BlockEntry := .empty
  totalConnections : UInt64 := 0
  blockedConnections : UInt64 := 0

namespace DDoSMitigation

def maxConnectionsPerIp : Nat := 10

variable (d : DDoSMitigation)

/-- `DDoSMitigation::exceeds_connection_limit`. -/
def exceedsConnectionLimit (info : IPConnectionInfo) : Bool :=
  maxConnectionsPerIp ≤ info.activeConnections

/-- `DDoSMitigation::is_blocked`. -/
def isBlocked (now : Time) (ipAddress : Text) : Bool :=
  (d.blockedIps.find? ipAddress).any fun entry => now.secs < entry.expiryTime

/-- `DDoSMitigation::block_ip`. -/
def blockIp (now : Time) (ipAddress : Text) (durationSeconds : UInt64) : DDoSMitigation :=
  { d with
    blockedIps := d.blockedIps.insert ipAddress
      { blockTime := now.secs, expiryTime := now.secs + durationSeconds,
        reason := Text.ofString "Rate limit exceeded" } }

/-- `ip_connections_[ip_address]`, which adds a record where there is none. -/
def connectionsOf (ipAddress : Text) : IPConnectionInfo :=
  (d.ipConnections.find? ipAddress).getD {}

/-- `DDoSMitigation::allow_connection`: reading 0 of the clock is for `is_blocked`,
reading 1 for `block_ip`. -/
def allowConnection (clock : Clock) (ipAddress : Text) : DDoSMitigation × Bool :=
  if d.isBlocked (clock.read 0) ipAddress then
    ({ d with blockedConnections := d.blockedConnections + 1 }, false)
  else
    let info := d.connectionsOf ipAddress
    let listed := { d with ipConnections := d.ipConnections.insert ipAddress info }
    if exceedsConnectionLimit info then
      let blocked := listed.blockIp (clock.read 1) ipAddress 3600
      ({ blocked with blockedConnections := d.blockedConnections + 1 }, false)
    else (listed, true)

/-- The last 100 timestamps. -/
def keepTimestamps (timestamps : List UInt64) : List UInt64 :=
  if 100 < timestamps.length then timestamps.tail else timestamps

/-- `DDoSMitigation::record_connection`. -/
def recordConnection (now : Time) (ipAddress : Text) : DDoSMitigation :=
  let info := d.connectionsOf ipAddress
  { d with
    ipConnections := d.ipConnections.insert ipAddress
      { activeConnections := info.activeConnections + 1
        totalConnections := info.totalConnections + 1
        lastConnectionTime := now.secs
        connectionTimestamps := keepTimestamps (info.connectionTimestamps ++ [now.secs]) }
    totalConnections := d.totalConnections + 1 }

/-- `DDoSMitigation::close_connection`. -/
def closeConnection (ipAddress : Text) : DDoSMitigation :=
  { d with
    ipConnections := d.ipConnections.modify ipAddress fun info =>
      if 0 < info.activeConnections then
        { info with activeConnections := info.activeConnections - 1 }
      else info }

/-- `DDoSMitigation::cleanup_expired_blocks`. -/
def cleanupExpiredBlocks (now : Time) : DDoSMitigation :=
  { d with blockedIps := d.blockedIps.filter fun _ entry => !(entry.expiryTime ≤ now.secs) }

end DDoSMitigation

/-- `ForkDetector`, of which connections are compared with the forked nodes. -/
structure ForkDetector where
  forkedNodes : Finset NodeID := ∅

/-! ## The coordinator -/

/-- `AttackPreventionCoordinator`, as its constructor sets it. -/
structure AttackPreventionCoordinator where
  ddosMitigation : DDoSMitigation := {}
  forkDetector : ForkDetector := {}
  ddosMitigationEnabled : Bool := true
  forkDetectionEnabled : Bool := true

namespace AttackPreventionCoordinator

variable (c : AttackPreventionCoordinator)

/-- `AttackPreventionCoordinator::validate_incoming_connection`. -/
def validateIncomingConnection (clock : Clock) (ipAddress : Text) (nodeId : NodeID) :
    AttackPreventionCoordinator × Bool :=
  let forked := c.forkDetectionEnabled && decide (nodeId ∈ c.forkDetector.forkedNodes)
  if c.ddosMitigationEnabled then
    let (ddosMitigation, allowed) := c.ddosMitigation.allowConnection clock ipAddress
    ({ c with ddosMitigation }, allowed && !forked)
  else (c, !forked)

/-- `AttackPreventionCoordinator::on_connection_established`. -/
def onConnectionEstablished (clock : Clock) (ipAddress : Text) (_nodeId : NodeID) :
    AttackPreventionCoordinator :=
  if c.ddosMitigationEnabled then
    { c with ddosMitigation := c.ddosMitigation.recordConnection (clock.read 0) ipAddress }
  else c

/-- `AttackPreventionCoordinator::on_connection_closed`. -/
def onConnectionClosed (ipAddress : Text) (_nodeId : NodeID) : AttackPreventionCoordinator :=
  if c.ddosMitigationEnabled then
    { c with ddosMitigation := c.ddosMitigation.closeConnection ipAddress }
  else c

/-- `AttackPreventionCoordinator::cleanup`. -/
def cleanup (clock : Clock) : AttackPreventionCoordinator :=
  { c with ddosMitigation := c.ddosMitigation.cleanupExpiredBlocks (clock.read 0) }

end AttackPreventionCoordinator

/-! ## Runs -/

/-- The calls about connections, and the periodic cleanup. -/
inductive ConnectionInput where
  | validateIncomingConnection (ipAddress : Text) (nodeId : NodeID)
  | onConnectionEstablished (ipAddress : Text) (nodeId : NodeID)
  | onConnectionClosed (ipAddress : Text) (nodeId : NodeID)
  | cleanup

/-- One call, with the readings of the clock made during it and the answer to a
validation. -/
def AttackPreventionCoordinator.call (c : AttackPreventionCoordinator) (clock : Clock) :
    ConnectionInput → AttackPreventionCoordinator × Option Bool
  | .validateIncomingConnection ipAddress nodeId =>
    let (next, answer) := c.validateIncomingConnection clock ipAddress nodeId
    (next, some answer)
  | .onConnectionEstablished ipAddress nodeId =>
    (c.onConnectionEstablished clock ipAddress nodeId, none)
  | .onConnectionClosed ipAddress nodeId => (c.onConnectionClosed ipAddress nodeId, none)
  | .cleanup => (c.cleanup clock, none)

/-! ## Forked identities, and the coordinator as a whole -/

/-- `ForkDetector`. -/
structure ForkRecords where
  detector : ForkDetector := {}
  nodeKeys : OrdMap NodeID (List PublicKey) := .empty

namespace ForkRecords

variable (f : ForkRecords)

/-- `ForkDetector::record_node_key`. -/
def recordNodeKey (nodeId : NodeID) (publicKey : PublicKey) : ForkRecords :=
  { f with nodeKeys := f.nodeKeys.upsert nodeId [] (· ++ [publicKey]) }

/-- `ForkDetector::mark_as_forked`. -/
def markAsForked (nodeId : NodeID) : ForkRecords :=
  { f with detector := { forkedNodes := insert nodeId f.detector.forkedNodes } }

/-- `ForkDetector::detect_fork`. -/
def detectFork (nodeId : NodeID) (claimedKey : PublicKey) : ForkRecords × Bool :=
  match f.nodeKeys.find? nodeId with
  | none => (f.recordNodeKey nodeId claimedKey, false)
  | some records =>
    if claimedKey ∈ records then (f, false) else (f.markAsForked nodeId, true)

/-- `ForkDetector::verify_signature_consistency`. -/
def verifySignatureConsistency (ed : Ed25519) (nodeId : NodeID) (message : Bytes)
    (signature : Signature) : Bool :=
  match f.nodeKeys.find? nodeId with
  | none => true
  | some records => records.any fun publicKey => ed.verify message signature publicKey

/-- `ForkDetector::get_detected_forks`. -/
def getDetectedForks : List NodeID := NodeID.sorted f.detector.forkedNodes

end ForkRecords

/-- A call of the detector that changes it. -/
inductive ForkInput where
  | detectFork (nodeId : NodeID) (claimedKey : PublicKey)
  | recordNodeKey (nodeId : NodeID) (publicKey : PublicKey)
  | markAsForked (nodeId : NodeID)
  deriving DecidableEq

/-- A detector driven by calls; it shows what `detect_fork` answers. -/
def forkMachine : Machine ForkRecords ForkInput Bool where
  step f
    | .detectFork nodeId claimedKey => (f.detectFork nodeId claimedKey).map id ([·])
    | .recordNodeKey nodeId publicKey => (f.recordNodeKey nodeId publicKey, [])
    | .markAsForked nodeId => (f.markAsForked nodeId, [])

/-- `SybilDefense`. -/
structure SybilDefense where
  activityLog : OrdMap NodeID (List Text) := .empty
  minPowDifficulty : UInt32 := 20

namespace SybilDefense

variable (d : SybilDefense)

/-- `SybilDefense::validate_new_identity`. -/
def validateNewIdentity (H : Bytes → Hash256) (nodeId : NodeID) (powProof : Hash256) : Bool :=
  if !verifyPowDifficulty powProof d.minPowDifficulty then false
  else if 0 < d.minPowDifficulty then H powProof.bytes == nodeId.id
  else true

/-- `SybilDefense::record_node_activity`. -/
def recordNodeActivity (nodeId : NodeID) (activity : Text) : SybilDefense :=
  { d with
    activityLog := d.activityLog.upsert nodeId [] fun log =>
      let log := log ++ [activity]
      if 100 < log.length then log.tail else log }

end SybilDefense

/-- `AttackPreventionCoordinator` with all its defences; of the fork detector the connections
have the forked nodes. -/
structure AttackDefence where
  connections : AttackPreventionCoordinator := {}
  nodeKeys : OrdMap NodeID (List PublicKey) := .empty
  rateLimiter : RateLimiter := { policy := {} }
  sybilDefense : SybilDefense := {}
  sybilDefenseEnabled : Bool := true
  lastCleanupTime : UInt64

namespace AttackDefence

variable (c : AttackDefence)

/-- `fork_detector_`. -/
def forkDetector : ForkRecords := ⟨c.connections.forkDetector, c.nodeKeys⟩

/-- `AttackPreventionCoordinator::validate_incoming_connection`. -/
def validateIncomingConnection (clock : Clock) (ipAddress : Text) (nodeId : NodeID) :
    AttackDefence × Bool :=
  (c.connections.validateIncomingConnection clock ipAddress nodeId).map
    (fun connections => { c with connections }) id

/-- `AttackPreventionCoordinator::validate_request`. -/
def validateRequest (now : Time) (nodeId : NodeID) (requestType : Text) : AttackDefence × Bool :=
  let (rateLimiter, allowed) := c.rateLimiter.allowRequest now nodeId
  if !allowed then ({ c with rateLimiter }, false)
  else if c.sybilDefenseEnabled then
    ({ c with
        rateLimiter
        sybilDefense := c.sybilDefense.recordNodeActivity nodeId requestType }, true)
  else ({ c with rateLimiter }, true)

/-- `AttackPreventionCoordinator::validate_new_identity`. -/
def validateNewIdentity (H : Bytes → Hash256) (nodeId : NodeID) (powProof : Hash256) : Bool :=
  if !c.sybilDefenseEnabled then true else c.sybilDefense.validateNewIdentity H nodeId powProof

/-- `AttackPreventionCoordinator::validate_signature`. -/
def validateSignature (ed : Ed25519) (nodeId : NodeID) (message : Bytes)
    (signature : Signature) : Bool :=
  if !c.connections.forkDetectionEnabled then true
  else c.forkDetector.verifySignatureConsistency ed nodeId message signature

/-- `AttackPreventionCoordinator::cleanup`: reading 0 of the clock is for the rate limiter. -/
def cleanup (clock : Clock) : AttackDefence :=
  { c with
    rateLimiter := c.rateLimiter.cleanupStaleEntries (clock.read 0)
    connections := c.connections.cleanup (clock.after 1) }

/-- `AttackPreventionCoordinator::tick`. -/
def tick (clock : Clock) : AttackDefence :=
  let current := (clock.read 0).secs
  if 300 ≤ current - c.lastCleanupTime then
    { c.cleanup (clock.after 1) with lastCleanupTime := current }
  else c

/-- `AttackPreventionCoordinator::set_rate_limit_policy`. -/
def setRateLimitPolicy (policy : RateLimitPolicy) : AttackDefence :=
  { c with rateLimiter := { policy } }

/-- `Statistics::detected_forks`. -/
def detectedForks : Nat := c.connections.forkDetector.forkedNodes.card

end AttackDefence

/-- The calls of the coordinator. -/
inductive DefenceInput where
  | validateIncomingConnection (ipAddress : Text) (nodeId : NodeID)
  | onConnectionEstablished (ipAddress : Text) (nodeId : NodeID)
  | onConnectionClosed (ipAddress : Text) (nodeId : NodeID)
  | validateRequest (nodeId : NodeID) (requestType : Text)
  | validateNewIdentity (nodeId : NodeID) (powProof : Hash256)
  | validateSignature (nodeId : NodeID) (message : Bytes) (signature : Signature)
  | tick
  | cleanup
  | setRateLimitPolicy (policy : RateLimitPolicy)
  | enableSybilDefense (enable : Bool)
  | enableDdosMitigation (enable : Bool)
  | enableForkDetection (enable : Bool)

/-- One call, with the readings of the clock made during it. It shows what a validation
answers. -/
def AttackDefence.call (ed : Ed25519) (H : Bytes → Hash256) (c : AttackDefence) (clock : Clock) :
    DefenceInput → AttackDefence × List Bool
  | .validateIncomingConnection ipAddress nodeId =>
    (c.validateIncomingConnection clock ipAddress nodeId).map id ([·])
  | .onConnectionEstablished ipAddress nodeId =>
    ({ c with connections := c.connections.onConnectionEstablished clock ipAddress nodeId }, [])
  | .onConnectionClosed ipAddress nodeId =>
    ({ c with connections := c.connections.onConnectionClosed ipAddress nodeId }, [])
  | .validateRequest nodeId requestType =>
    (c.validateRequest (clock.read 0) nodeId requestType).map id ([·])
  | .validateNewIdentity nodeId powProof => (c, [c.validateNewIdentity H nodeId powProof])
  | .validateSignature nodeId message signature =>
    (c, [c.validateSignature ed nodeId message signature])
  | .tick => (c.tick clock, [])
  | .cleanup => (c.cleanup clock, [])
  | .setRateLimitPolicy policy => (c.setRateLimitPolicy policy, [])
  | .enableSybilDefense enable => ({ c with sybilDefenseEnabled := enable }, [])
  | .enableDdosMitigation enable =>
    ({ c with connections := { c.connections with ddosMitigationEnabled := enable } }, [])
  | .enableForkDetection enable =>
    ({ c with connections := { c.connections with forkDetectionEnabled := enable } }, [])

/-- The coordinator driven by calls. -/
def defenceMachine (ed : Ed25519) (H : Bytes → Hash256) :
    Machine AttackDefence (Clock × DefenceInput) Bool where
  step c input := c.call ed H input.1 input.2

end Cashew
