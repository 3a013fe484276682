import Cashew.Keys.ProofOfWork
import Cashew.Ledger.Event
import Cashew.Lib.BigEndian
import Cashew.Lib.Machine

/-!
# Issuing keys for work and for contribution

`HybridCoordinator` of `core/postake/hybrid_coordinator.cpp`. A node earns keys by a
proof of work, by its contribution, or by both with a bonus. Two limits hold for
all three: a number of keys in each epoch and a time between issuances.

What the contribution engine answers is an argument of the call that asks it:
the metrics that tell a new node, and the score. The clock is read as seconds for
the epoch and as ticks for the rest. Statistics are left out.
-/

namespace Cashew

open Cashew.Lib

/-- `KeyIssuanceMethod`. -/
inductive KeyIssuanceMethod where
  | powOnly
  | postakeOnly
  | hybrid
  deriving DecidableEq

/-- `static_cast<uint8_t>(method)`. -/
def KeyIssuanceMethod.toByte : KeyIssuanceMethod → UInt8
  | .powOnly => 0
  | .postakeOnly => 1
  | .hybrid => 2

/-- `ContributionScore`. -/
structure ContributionScore where
  nodeId : NodeID
  uptimeScore : UInt32 := 0
  bandwidthScore : UInt32 := 0
  storageScore : UInt32 := 0
  routingScore : UInt32 := 0
  witnessScore : UInt32 := 0
  totalScore : UInt32 := 0
  deriving DecidableEq

/-- The metrics `is_new_node` looks at. -/
structure ContributionMetrics where
  totalUptime : UInt64
  thingsHosted : UInt32
  successfulRoutes : UInt32
  deriving DecidableEq

/-- `HybridIssuanceRecord`. -/
structure HybridIssuanceRecord where
  nodeId : NodeID
  method : KeyIssuanceMethod
  powSolution : Option PowSolution := none
  contributionScore : Option ContributionScore := none
  keyType : Wire KeyType
  keyCount : UInt32
  issuedAt : UInt64
  epoch : UInt64
  recordHash : Hash256 := FixedBytes.zero
  deriving DecidableEq

namespace HybridIssuanceRecord

/-- The bytes of the proof of work, if there is one. -/
def powBytes : Option PowSolution → Bytes
  | none => [0]
  | some solution => [1] ++ (solution.solutionHash.bytes ++ beU64Bytes solution.nonce)

/-- The bytes of the score, if there is one. -/
def scoreBytes : Option ContributionScore → Bytes
  | none => [0]
  | some score => [1] ++ beU32Bytes score.totalScore

/-- `HybridIssuanceRecord::to_bytes`. -/
def toBytes (r : HybridIssuanceRecord) : Bytes :=
  r.nodeId.id.bytes ++
    ([r.method.toByte] ++
      (powBytes r.powSolution ++
        (scoreBytes r.contributionScore ++
          ([r.keyType.toByte] ++
            (beU32Bytes r.keyCount ++ (beU64Bytes r.issuedAt ++ beU64Bytes r.epoch))))))

/-- `record.record_hash = record.compute_hash()`. -/
def sealed (H : Bytes → Hash256) (r : HybridIssuanceRecord) : HybridIssuanceRecord :=
  { r with recordHash := H r.toBytes }

end HybridIssuanceRecord

/-- `HybridPolicy`. -/
structure HybridPolicy where
  requirePowForNewNodes : Bool := true
  allowPostakeOnly : Bool := true
  minContributionScore : UInt32 := 100
  enableHybridBonus : Bool := true
  hybridMultiplier : Float32 := 1.5
  maxKeysPerEpoch : UInt32 := 10
  minSecondsBetweenIssuance : UInt64 := 60

/-- `std::pair<NodeID, uint64_t>`: a node and an epoch. -/
structure EpochKey where
  nodeId : NodeID
  epoch : UInt64
  deriving DecidableEq

namespace EpochKey

/-- The pair as one number, the node in front. -/
def rank (k : EpochKey) : Nat := k.nodeId.id.value * 2 ^ 64 + k.epoch.toNat

theorem rank_injective : Function.Injective rank := by
  rintro ⟨a, i⟩ ⟨b, j⟩ h
  have hi := UInt64.toNat_lt i
  have hj := UInt64.toNat_lt j
  have hpair : a.id.value * 2 ^ 64 + i.toNat = b.id.value * 2 ^ 64 + j.toNat := h
  have hnode : a.id.value = b.id.value := by omega
  have hepoch : i.toNat = j.toNat := by omega
  rw [NodeID.id_injective (FixedBytes.value_injective hnode), UInt64.toNat_inj.mp hepoch]

/-- `operator<` of `std::pair`. -/
instance : LinearOrder EpochKey := orderBy rank rank_injective

end EpochKey

/-- The readings of the clock in one request: seconds for the epoch, ticks for the
rate limit, ticks for the record. -/
structure IssuanceClock where
  seconds : UInt64
  checkTicks : UInt64
  issueTicks : UInt64
  deriving DecidableEq

/-- `EpochManager::current_epoch`: ten minutes each. -/
def IssuanceClock.currentEpoch (clock : IssuanceClock) : UInt64 := clock.seconds / 600

/-- `HybridCoordinator`. -/
structure HybridCoordinator where
  policy : HybridPolicy := {}
  issuanceHistory : OrdMap NodeID (List HybridIssuanceRecord) := OrdMap.empty
  lastIssuanceTime : OrdMap NodeID UInt64 := OrdMap.empty
  epochKeyCounts : OrdMap EpochKey UInt32 := OrdMap.empty

namespace HybridCoordinator

/-- `HybridCoordinator::is_new_node`. -/
def isNewNode (metrics : ContributionMetrics) : Bool :=
  metrics.totalUptime == 0 && metrics.thingsHosted == 0 && metrics.successfulRoutes == 0

/-- `HybridCoordinator::calculate_hybrid_bonus`. -/
def calculateHybridBonus (c : HybridCoordinator) (baseKeys : UInt32) : UInt32 :=
  if c.policy.enableHybridBonus then
    (Float32.ofNat baseKeys.toNat * c.policy.hybridMultiplier).toUInt32
  else baseKeys

/-- `HybridCoordinator::check_rate_limit`, unsigned. -/
def checkRateLimit (c : HybridCoordinator) (ticks : UInt64) (nodeId : NodeID) : Bool :=
  (c.lastIssuanceTime.find? nodeId).all fun last =>
    decide (c.policy.minSecondsBetweenIssuance ≤ ticks - last)

/-- `HybridCoordinator::get_keys_issued_in_epoch`. -/
def getKeysIssuedInEpoch (c : HybridCoordinator) (nodeId : NodeID) (epoch : UInt64) : UInt32 :=
  (c.epochKeyCounts.find? ⟨nodeId, epoch⟩).getD 0

/-- `HybridCoordinator::can_issue_keys`. The sum has 32 bits. -/
def canIssueKeys (c : HybridCoordinator) (ticks : UInt64) (nodeId : NodeID) (keyCount : UInt32)
    (epoch : UInt64) : Bool :=
  -- `keyCount` comes from the caller and has no bound of its own
  if c.getKeysIssuedInEpoch nodeId epoch + keyCount > c.policy.maxKeysPerEpoch then false
  else c.checkRateLimit ticks nodeId

/-- `HybridCoordinator::get_issuance_history`. -/
def getIssuanceHistory (c : HybridCoordinator) (nodeId : NodeID) : List HybridIssuanceRecord :=
  (c.issuanceHistory.find? nodeId).getD []

/-- `HybridCoordinator::record_issuance`. -/
def recordIssuance (c : HybridCoordinator) (r : HybridIssuanceRecord) : HybridCoordinator :=
  { c with
    issuanceHistory := c.issuanceHistory.upsert r.nodeId [] (· ++ [r])
    lastIssuanceTime := c.lastIssuanceTime.insert r.nodeId r.issuedAt
    epochKeyCounts := c.epochKeyCounts.upsert ⟨r.nodeId, r.epoch⟩ 0 (· + r.keyCount) }

variable (H : Bytes → Hash256)

/-- `HybridCoordinator::request_keys_via_pow`. -/
def requestKeysViaPow (c : HybridCoordinator) (clock : IssuanceClock) (nodeId : NodeID)
    (powSolution : PowSolution) (keyType : Wire KeyType) (keyCount : UInt32) :
    HybridCoordinator × Option HybridIssuanceRecord :=
  let epoch := clock.currentEpoch
  if !c.canIssueKeys clock.checkTicks nodeId keyCount epoch then (c, none)
  -- against the difficulty that stands in the solution
  else if !powSolutionMeetsClaimedDifficulty powSolution then (c, none)
  else
    let r := HybridIssuanceRecord.sealed H {
      nodeId, keyType, keyCount, epoch
      method := .powOnly
      powSolution := some powSolution
      issuedAt := clock.issueTicks }
    (c.recordIssuance r, some r)

/-- `HybridCoordinator::request_keys_via_postake`. -/
def requestKeysViaPostake (c : HybridCoordinator) (clock : IssuanceClock) (nodeId : NodeID)
    (metrics : ContributionMetrics) (score : ContributionScore) (keyType : Wire KeyType)
    (keyCount : UInt32) : HybridCoordinator × Option HybridIssuanceRecord :=
  let epoch := clock.currentEpoch
  if !c.policy.allowPostakeOnly then (c, none)
  else if c.policy.requirePowForNewNodes && isNewNode metrics then (c, none)
  else if !c.canIssueKeys clock.checkTicks nodeId keyCount epoch then (c, none)
  else if score.totalScore < c.policy.minContributionScore then (c, none)
  else
    let r := HybridIssuanceRecord.sealed H {
      nodeId, keyType, keyCount, epoch
      method := .postakeOnly
      contributionScore := some score
      issuedAt := clock.issueTicks }
    (c.recordIssuance r, some r)

/-- `HybridCoordinator::request_keys_hybrid`. The bonus counts against the limit. -/
def requestKeysHybrid (c : HybridCoordinator) (clock : IssuanceClock) (nodeId : NodeID)
    (powSolution : PowSolution) (score : ContributionScore) (keyType : Wire KeyType)
    (keyCount : UInt32) : HybridCoordinator × Option HybridIssuanceRecord :=
  let epoch := clock.currentEpoch
  let bonusKeys := c.calculateHybridBonus keyCount
  if !c.canIssueKeys clock.checkTicks nodeId bonusKeys epoch then (c, none)
  else if !powSolutionMeetsClaimedDifficulty powSolution then (c, none)
  else
    -- the score is recorded, no minimum is asked of it
    let r := HybridIssuanceRecord.sealed H {
      nodeId, keyType, epoch
      keyCount := bonusKeys
      method := .hybrid
      powSolution := some powSolution
      contributionScore := some score
      issuedAt := clock.issueTicks }
    (c.recordIssuance r, some r)

end HybridCoordinator

/-! ## Runs -/

/-- The requests, with what the contribution engine answers. -/
inductive IssuanceInput where
  | viaPow (nodeId : NodeID) (powSolution : PowSolution) (keyType : Wire KeyType)
      (keyCount : UInt32)
  | viaPostake (nodeId : NodeID) (metrics : ContributionMetrics) (score : ContributionScore)
      (keyType : Wire KeyType) (keyCount : UInt32)
  | hybrid (nodeId : NodeID) (powSolution : PowSolution) (score : ContributionScore)
      (keyType : Wire KeyType) (keyCount : UInt32)

/-- One request. -/
def HybridCoordinator.request (H : Bytes → Hash256) (c : HybridCoordinator)
    (clock : IssuanceClock) : IssuanceInput → HybridCoordinator × Option HybridIssuanceRecord
  | .viaPow nodeId powSolution keyType keyCount =>
    c.requestKeysViaPow H clock nodeId powSolution keyType keyCount
  | .viaPostake nodeId metrics score keyType keyCount =>
    c.requestKeysViaPostake H clock nodeId metrics score keyType keyCount
  | .hybrid nodeId powSolution score keyType keyCount =>
    c.requestKeysHybrid H clock nodeId powSolution score keyType keyCount

/-- Requests one after the other; a granted one puts out its record. -/
def issuanceMachine (H : Bytes → Hash256) :
    Machine HybridCoordinator (IssuanceClock × IssuanceInput) HybridIssuanceRecord where
  step c input := (c.request H input.1 input.2).map id Option.toList

end Cashew
