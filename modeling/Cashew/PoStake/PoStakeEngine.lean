import Cashew.PoStake.ContributionTracker
import Cashew.Utils.Floats

/-!
# Earning keys by contribution

`PoStakeEngine` of `core/postake/postake.cpp`: scores from what the tracker has counted, and
keys from the scores, epoch by epoch.

No number here is negative, too large for a `float` or subnormal, and where a value is cast
that an unsigned integer cannot hold, which C++ leaves open, the cast wraps. The reliability
of a node's routes is computed from its counts, as the tracker does at every change of them.

`epoch_contributions_`, into which nothing is ever put, and its two getters are left out, as
is the ranking of `get_top_contributors`.
-/

namespace Cashew

open Cashew.Lib

/-! ## Floats -/

/-- `static_cast<uint32_t>` of a `float`. -/
def floatToUInt32 (x : ℚ) : UInt32 := UInt32.ofNat ⌊x⌋₊

/-- A number times a weight, in `float`, cut off. -/
def weighted (n : UInt32) (weight : ℚ) : UInt32 :=
  floatToUInt32 (float (float n.toNat * weight))

/-! ## Metrics -/

namespace TrackedMetrics

/-- `ContributionMetrics::uptime_percentage`. -/
def uptimePercentage (metrics : TrackedMetrics) (now : Time) : ℚ :=
  if metrics.firstSeen = 0 then 0
  else
    let timeSinceJoin := now.secs - metrics.firstSeen
    if timeSinceJoin = 0 then 100
    else
      float (float (float metrics.totalUptime.toNat / float timeSinceJoin.toNat) * 100)

/-- The `routing_reliability` that `update_routing_reliability` computes. -/
def reliability (metrics : TrackedMetrics) : ℚ :=
  let total := metrics.successfulRoutes + metrics.failedRoutes
  if total = 0 then 1 else float (float metrics.successfulRoutes.toNat / float total.toNat)

end TrackedMetrics

/-- `ContributionTracker::get_active_contributors`. -/
def ContributionTracker.getActiveContributors (t : ContributionTracker) (now : Time) :
    List NodeID :=
  (t.metrics.entries.filter fun entry => now.secs - entry.2.lastSeen ≤ 300).map Prod.fst

/-! ## The engine -/

/-- `KeyEarningRate`; `KeyEarningRate{}` has zeros. -/
structure KeyEarningRate where
  pointsPerKey : UInt32 := 0
  maxPerEpoch : UInt32 := 0
  minScoreRequired : UInt32 := 0
  deriving DecidableEq

/-- `PoStakeReward`. -/
structure PoStakeReward where
  nodeId : NodeID
  epoch : UInt64
  keyType : Wire KeyType
  keyCount : UInt32
  awardedAt : UInt64
  proofHash : Hash256
  deriving DecidableEq

/-- `PoStakeEngine`. Epochs without an entry have no rewards. -/
structure PoStakeEngine where
  tracker : ContributionTracker := {}
  earningRates : OrdMap (Wire KeyType) KeyEarningRate := .empty
  epochRewards : UInt64 → List PoStakeReward := fun _ => []

namespace PoStakeEngine

/-- `PoStakeEngine::set_earning_rate`. -/
def setEarningRate (e : PoStakeEngine) (keyType : Wire KeyType) (rate : KeyEarningRate) :
    PoStakeEngine :=
  { e with earningRates := e.earningRates.insert keyType rate }

/-- `PoStakeEngine::get_earning_rate`. -/
def getEarningRate (e : PoStakeEngine) (keyType : Wire KeyType) : KeyEarningRate :=
  (e.earningRates.find? keyType).getD {}

/-- `PoStakeEngine::initialize_default_rates`. -/
def initializeDefaultRates (e : PoStakeEngine) : PoStakeEngine :=
  ((e.setEarningRate (.listed .service) ⟨500, 5, 200⟩).setEarningRate (.listed .routing)
    ⟨300, 10, 100⟩).setEarningRate (.listed .network) ⟨400, 3, 150⟩

/-- `PoStakeEngine::PoStakeEngine`. -/
def new : PoStakeEngine := initializeDefaultRates {}

/-! ### Scores -/

/-- `0.3f`. -/
def uptimeWeight : ℚ := 10066330 / 2 ^ 25

/-- `0.25f`. -/
def bandwidthWeight : ℚ := 1 / 4

/-- `0.25f`. -/
def storageWeight : ℚ := 1 / 4

/-- `0.15f`. -/
def routingWeight : ℚ := 10066330 / 2 ^ 26

/-- `0.05f`. -/
def witnessWeight : ℚ := 13421773 / 2 ^ 28

def gigabyte : UInt64 := 1024 * 1024 * 1024

def monthSeconds : UInt64 := 30 * 24 * 60 * 60

/-- `PoStakeEngine::calculate_uptime_score`. -/
def calculateUptimeScore (metrics : TrackedMetrics) (now : Time) : UInt32 :=
  let baseScore := floatToUInt32 (metrics.uptimePercentage now)
  let longevityBonus := min 100 (metrics.totalUptime * 100 / monthSeconds).toUInt32
  weighted (baseScore + longevityBonus) uptimeWeight

/-- `PoStakeEngine::calculate_bandwidth_score`. -/
def calculateBandwidthScore (metrics : TrackedMetrics) : UInt32 :=
  weighted (min 200 (metrics.bytesRouted / gigabyte).toUInt32) bandwidthWeight

/-- `PoStakeEngine::calculate_storage_score`. -/
def calculateStorageScore (metrics : TrackedMetrics) : UInt32 :=
  let thingScore := metrics.thingsHosted * 10
  let storageScore := (metrics.storageBytesProvided / gigabyte).toUInt32
  weighted (min 200 (thingScore + storageScore)) storageWeight

/-- `PoStakeEngine::calculate_routing_score`. -/
def calculateRoutingScore (metrics : TrackedMetrics) : UInt32 :=
  let baseScore := min 100 metrics.successfulRoutes
  weighted (weighted baseScore metrics.reliability) routingWeight

/-- `PoStakeEngine::calculate_witness_score`. -/
def calculateWitnessScore (metrics : TrackedMetrics) : UInt32 :=
  let totalEpochs := metrics.epochsWitnessed + metrics.epochsMissed
  if totalEpochs = 0 then 0
  else
    let participationRate := float (float metrics.epochsWitnessed.toNat / float totalEpochs.toNat)
    weighted (floatToUInt32 (float (participationRate * 100))) witnessWeight

/-- `PoStakeEngine::calculate_score` and `ContributionScore::calculate_total`. -/
def calculateScore (nodeId : NodeID) (metrics : TrackedMetrics) (now : Time) :
    ContributionScore :=
  let uptimeScore := calculateUptimeScore metrics now
  let bandwidthScore := calculateBandwidthScore metrics
  let storageScore := calculateStorageScore metrics
  let routingScore := calculateRoutingScore metrics
  let witnessScore := calculateWitnessScore metrics
  { nodeId, uptimeScore, bandwidthScore, storageScore, routingScore, witnessScore
    totalScore := uptimeScore + bandwidthScore + storageScore + routingScore + witnessScore }

/-! ### Keys -/

/-- `PoStakeEngine::determine_key_type`. -/
def determineKeyType (score : ContributionScore) : Wire KeyType :=
  if score.bandwidthScore < score.storageScore ∧ score.routingScore < score.storageScore then
    .listed .service
  else if score.storageScore < score.bandwidthScore ∧ score.routingScore < score.bandwidthScore then
    .listed .routing
  else .listed .network

/-- `PoStakeEngine::calculate_key_count`. -/
def calculateKeyCount (e : PoStakeEngine) (score : ContributionScore) (keyType : Wire KeyType) :
    UInt32 :=
  let rate := e.getEarningRate keyType
  if score.totalScore < rate.minScoreRequired then 0
  else min rate.maxPerEpoch (score.totalScore / rate.pointsPerKey)

/-- `PoStakeEngine::hash_contribution`. -/
def hashContribution (H : Bytes → Hash256) (metrics : TrackedMetrics) : Hash256 :=
  H (leBytes 8 metrics.totalUptime.toNat ++ leBytes 8 metrics.bytesRouted.toNat ++
    leBytes 8 metrics.storageBytesProvided.toNat ++ leBytes 4 metrics.successfulRoutes.toNat ++
    leBytes 4 metrics.epochsWitnessed.toNat)

/-- The places of `calculate_epoch_rewards` where the clock is read. -/
inductive RewardReading where
  | active
  | metrics (nodeId : NodeID)
  | percentage (nodeId : NodeID)
  | awarded (nodeId : NodeID)

/-- The reward of one node, if it gets any keys. -/
def nodeReward (H : Bytes → Hash256) (e : PoStakeEngine) (now : RewardReading → Time)
    (epoch : UInt64) (nodeId : NodeID) : Option PoStakeReward :=
  let metrics := e.tracker.getMetrics (.still (now (.metrics nodeId))) nodeId
  let score := calculateScore nodeId metrics (now (.percentage nodeId))
  let keyType := determineKeyType score
  let keyCount := e.calculateKeyCount score keyType
  if 0 < keyCount then
    some {
      nodeId, epoch, keyType, keyCount
      awardedAt := (now (.awarded nodeId)).secs
      proofHash := hashContribution H metrics }
  else none

/-- `PoStakeEngine::calculate_epoch_rewards`. -/
def calculateEpochRewards (H : Bytes → Hash256) (e : PoStakeEngine) (now : RewardReading → Time)
    (epoch : UInt64) : List PoStakeReward :=
  (e.tracker.getActiveContributors (now .active)).filterMap (e.nodeReward H now epoch)

/-- `PoStakeEngine::process_epoch`; `award_keys` only logs. -/
def processEpoch (H : Bytes → Hash256) (e : PoStakeEngine) (now : RewardReading → Time)
    (epoch : UInt64) : PoStakeEngine × List PoStakeReward :=
  let rewards := e.calculateEpochRewards H now epoch
  ({ e with epochRewards := Function.update e.epochRewards epoch rewards }, rewards)

end PoStakeEngine

/-- The calls on an engine and on its tracker. -/
inductive PoStakeInput where
  | record (input : ContributionInput)
  | processEpoch (now : PoStakeEngine.RewardReading → Time) (epoch : UInt64)

/-- One call, and the rewards it issues. -/
def PoStakeEngine.call (H : Bytes → Hash256) (e : PoStakeEngine) :
    PoStakeInput → PoStakeEngine × List PoStakeReward
  | .record input => ({ e with tracker := e.tracker.call input }, [])
  | .processEpoch now epoch => e.processEpoch H now epoch

end Cashew
