import Cashew.Network.Replication

/-!
# Adjusting redundancy

`Network::adjust_redundancy` of `network/network.cpp` and what it calls: how many replicas a
network should have, and which of them are given up when it has more. A replica is given up by
marking it incomplete.

Scores are single-precision floats, kept as their 32 bits and compared as IEEE 754 says. Counts
are naturals; where the program subtracts a setting from a count, the difference is taken modulo
`2 ^ 64`. Each count of the active replicas reads the clock once for each complete replica. The
count that only the log shows is made by the program too, so that its readings are skipped here.
-/

namespace Cashew

open Cashew.Lib

/-! ## Scores -/

/-- All ones in the exponent, and a fraction. -/
def floatIsNaN (bits : UInt32) : Bool := 0x7F800000 < bits &&& 0x7FFFFFFF

/-- Where a float that is not NaN lies: sign and magnitude. Both zeros lie at zero. -/
def floatRank (bits : UInt32) : Int :=
  if bits < 0x80000000 then (bits &&& 0x7FFFFFFF).toNat else -((bits &&& 0x7FFFFFFF).toNat : Int)

/-- `a < b` on floats; NaN compares with nothing. -/
def floatLess (a b : UInt32) : Bool :=
  !floatIsNaN a && !floatIsNaN b && floatRank a < floatRank b

/-- `std::sort` by score. It permutes the list, and leaves no smaller score behind a larger one.
In which order it leaves equal scores is not said, and scores that are NaN end up anywhere. -/
structure SortByScore where
  run : List (NodeID × UInt32) → List (NodeID × UInt32)
  perm : ∀ entries, (run entries).Perm entries
  sorted : ∀ entries, (∀ e ∈ entries, floatIsNaN e.2 = false) →
    (run entries).Pairwise fun a b => floatLess b.2 a.2 = false

/-- One such sort, which leaves equal scores as they stand. -/
def SortByScore.stable : SortByScore where
  run entries := entries.insertionSort fun a b => floatRank a.2 ≤ floatRank b.2
  perm entries := List.perm_insertionSort _ entries
  sorted entries _ := by
    have hsorted := List.pairwise_insertionSort
      (fun a b : NodeID × UInt32 => floatRank a.2 ≤ floatRank b.2) entries
    refine hsorted.imp fun {a b} hab => ?_
    rw [floatLess, Bool.and_eq_false_iff]
    exact .inr (decide_eq_false (not_lt.mpr hab))

namespace Network

/-- `MEMBER_TIMEOUT_SECONDS`: 1 hour. -/
def memberTimeout : UInt64 := 3600

/-- `MIN_RELIABILITY_SCORE`, which is `0.5f`. -/
def minReliabilityScore : UInt32 := 0x3F000000

/-- `NetworkQuorum::DEFAULT_TARGET`. -/
def defaultTarget : Nat := 5

/-- `NetworkQuorum::DEFAULT_MAX`. -/
def defaultMax : Nat := 10

/-- `Network::is_member_active`. The subtraction is unsigned. -/
def isMemberActive (m : NetworkMember) (now : Time) : Bool :=
  now.secs - m.lastSeenTimestamp < memberTimeout

/-- The test of `active_replica_count` for each member. The clock is read only for a complete
replica. -/
def activeReplicas : List NetworkMember → Clock → List Bool
  | [], _ => []
  | m :: rest, clock =>
    if m.hasCompleteReplica then
      isMemberActive m (clock.read 0) :: activeReplicas rest (clock.after 1)
    else false :: activeReplicas rest clock

/-- `Network::active_replica_count`. -/
def activeReplicaCount (n : Network) (clock : Clock) : Nat :=
  (activeReplicas n.members clock).count true

/-- How often one count reads the clock. -/
def completeReplicas (n : Network) : Nat := n.members.countP (·.hasCompleteReplica)

/-- `Network::mark_replica_complete`: the first member of this id. -/
def markReplicaComplete (n : Network) (nodeId : NodeID) (complete : Bool) : Network :=
  { n with
    members := modifyFirst (·.nodeId = nodeId)
      (fun m => { m with hasCompleteReplica := complete }) n.members }

/-- `Network::calculate_target_redundancy`. -/
def calculateTargetRedundancy (n : Network) : Nat :=
  let memberCount := n.members.length
  if memberCount ≤ 3 then min memberCount defaultTarget
  else if memberCount ≤ 10 then defaultTarget
  else min (defaultTarget + (memberCount - 10) / 5) defaultMax

/-- `Network::should_add_replicas`. -/
def shouldAddReplicas (n : Network) (clock : Clock) : Bool :=
  n.activeReplicaCount clock < n.quorum.targetReplicas.toNat &&
    !n.quorum.atCapacity n.members.length

/-- The score is below the least one that counts as reliable. -/
def unreliable (score : UInt32) : Bool := floatLess score minReliabilityScore

/-- `Network::should_remove_replicas`. -/
def shouldRemoveReplicas (n : Network) (clock : Clock) : Bool :=
  if n.activeReplicaCount clock ≤ n.quorum.targetReplicas.toNat then false
  else n.members.any fun m => m.hasCompleteReplica && unreliable m.reliabilityScore

/-- The members with a complete replica, active or not, with their scores. -/
def replicaNodes (n : Network) : List (NodeID × UInt32) :=
  (n.members.filter (·.hasCompleteReplica)).map fun m => (m.nodeId, m.reliabilityScore)

/-- `size_t` subtraction. -/
def sizeSub (a b : Nat) : Nat := (2 ^ 64 + a - b) % 2 ^ 64

/-- `Network::select_nodes_for_removal`. -/
def selectNodesForRemoval (sort : SortByScore) (n : Network) (clock : Clock) : List NodeID :=
  let current := n.activeReplicaCount clock
  let target := n.quorum.targetReplicas.toNat
  if current ≤ target then []
  else
    let toRemove := current - target
    let canRemove := min toRemove (sizeSub current n.quorum.minReplicas.toNat)
    (((sort.run n.replicaNodes).take canRemove).filter fun e => unreliable e.2).map Prod.fst

/-- `quorum_.target_replicas = target`, if it is not already. -/
def updateTarget (n : Network) : Network :=
  if n.quorum.targetReplicas.toNat ≠ n.calculateTargetRedundancy then
    { n with
      quorum := { n.quorum with targetReplicas := UInt64.ofNat n.calculateTargetRedundancy } }
  else n

/-- `Network::adjust_redundancy`: the network, and whether anything was changed or should be. -/
def adjustRedundancy (sort : SortByScore) (n : Network) (clock : Clock) : Network × Bool :=
  let readings := n.completeReplicas
  let updated := n.updateTarget
  let adds := updated.shouldAddReplicas (clock.after readings)
  let removed :=
    if updated.shouldRemoveReplicas (clock.after (2 * readings)) then
      updated.selectNodesForRemoval sort (clock.after (3 * readings))
    else []
  (removed.foldl (fun n nodeId => n.markReplicaComplete nodeId false) updated,
    decide (n.quorum.targetReplicas.toNat ≠ n.calculateTargetRedundancy) || adds ||
      !removed.isEmpty)

end Network

end Cashew
