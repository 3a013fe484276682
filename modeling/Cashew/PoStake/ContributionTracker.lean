import Cashew.Keys.HybridCoordinator

/-!
# Contributions

`ContributionTracker` of `core/postake/postake.cpp`: what each node has contributed, and
since when it is online.

`node_id` of a record is left out: it is never set.
-/

namespace Cashew

open Cashew.Lib

/-- `ContributionMetrics` with all its fields; what it extends is the part that
`is_new_node` reads. -/
structure TrackedMetrics extends ContributionMetrics where
  totalUptime := 0
  lastSeen : UInt64 := 0
  firstSeen : UInt64 := 0
  bytesRouted : UInt64 := 0
  bytesSent : UInt64 := 0
  bytesReceived : UInt64 := 0
  thingsHosted := 0
  storageBytesProvided : UInt64 := 0
  successfulRoutes := 0
  failedRoutes : UInt32 := 0
  routingReliability : Float32 := 1
  epochsWitnessed : UInt32 := 0
  epochsMissed : UInt32 := 0

/-- `ContributionTracker`. -/
structure ContributionTracker where
  metrics : OrdMap NodeID TrackedMetrics := .empty
  onlineStatus : OrdMap NodeID Bool := .empty
  onlineSince : OrdMap NodeID UInt64 := .empty

namespace ContributionTracker

variable (t : ContributionTracker)

/-- `auto& metrics = metrics_[node_id]` and a change of it. -/
def change (nodeId : NodeID) (f : TrackedMetrics → TrackedMetrics) : ContributionTracker :=
  { t with metrics := t.metrics.upsert nodeId {} f }

/-- `ContributionTracker::update_uptime`. -/
def updateUptime (nodeId : NodeID) (seconds : UInt64) : ContributionTracker :=
  t.change nodeId fun metrics => { metrics with totalUptime := metrics.totalUptime + seconds }

/-- `ContributionTracker::record_node_online`. Reading 0 of the clock is the start. -/
def recordNodeOnline (clock : Clock) (nodeId : NodeID) : ContributionTracker :=
  let started : ContributionTracker :=
    { t with
      onlineStatus := t.onlineStatus.insert nodeId true
      onlineSince := t.onlineSince.insert nodeId (clock.read 0).secs }
  started.change nodeId fun metrics =>
    if metrics.firstSeen = 0 then
      { metrics with firstSeen := (clock.read 1).secs, lastSeen := (clock.read 2).secs }
    else { metrics with lastSeen := (clock.read 1).secs }

/-- `ContributionTracker::record_node_offline`. -/
def recordNodeOffline (clock : Clock) (nodeId : NodeID) : ContributionTracker :=
  let stopped : ContributionTracker :=
    { t with onlineStatus := t.onlineStatus.insert nodeId false }
  match t.onlineSince.find? nodeId with
  | some start =>
    let counted := stopped.updateUptime nodeId ((clock.read 0).secs - start)
    { counted with onlineSince := t.onlineSince.erase nodeId }.change nodeId fun metrics =>
      { metrics with lastSeen := (clock.read 1).secs }
  | none => stopped.change nodeId fun metrics => { metrics with lastSeen := (clock.read 0).secs }

/-- `ContributionTracker::record_bytes_routed`. -/
def recordBytesRouted (nodeId : NodeID) (bytes : UInt64) : ContributionTracker :=
  t.change nodeId fun metrics => { metrics with bytesRouted := metrics.bytesRouted + bytes }

/-- `ContributionTracker::record_traffic`. -/
def recordTraffic (nodeId : NodeID) (sent received : UInt64) : ContributionTracker :=
  t.change nodeId fun metrics =>
    { metrics with
      bytesSent := metrics.bytesSent + sent, bytesReceived := metrics.bytesReceived + received }

/-- `ContributionTracker::record_thing_hosted`. -/
def recordThingHosted (nodeId : NodeID) (sizeBytes : UInt64) : ContributionTracker :=
  t.change nodeId fun metrics =>
    { metrics with
      thingsHosted := metrics.thingsHosted + 1
      storageBytesProvided := metrics.storageBytesProvided + sizeBytes }

/-- `ContributionTracker::record_thing_removed`. -/
def recordThingRemoved (nodeId : NodeID) (sizeBytes : UInt64) : ContributionTracker :=
  t.change nodeId fun metrics =>
    { metrics with
      thingsHosted :=
        if 0 < metrics.thingsHosted then metrics.thingsHosted - 1 else metrics.thingsHosted
      storageBytesProvided :=
        if sizeBytes ≤ metrics.storageBytesProvided then metrics.storageBytesProvided - sizeBytes
        else metrics.storageBytesProvided }

/-- `ContributionTracker::update_routing_reliability`. -/
def updateRoutingReliability (metrics : TrackedMetrics) : TrackedMetrics :=
  let total := metrics.successfulRoutes + metrics.failedRoutes
  if total = 0 then { metrics with routingReliability := 1 }
  else
    { metrics with
      routingReliability :=
        Float32.ofNat metrics.successfulRoutes.toNat / Float32.ofNat total.toNat }

/-- `ContributionTracker::record_successful_route`. -/
def recordSuccessfulRoute (nodeId : NodeID) : ContributionTracker :=
  t.change nodeId fun metrics =>
    updateRoutingReliability { metrics with successfulRoutes := metrics.successfulRoutes + 1 }

/-- `ContributionTracker::record_failed_route`. -/
def recordFailedRoute (nodeId : NodeID) : ContributionTracker :=
  t.change nodeId fun metrics =>
    updateRoutingReliability { metrics with failedRoutes := metrics.failedRoutes + 1 }

/-- `ContributionTracker::record_epoch_witness`. -/
def recordEpochWitness (nodeId : NodeID) : ContributionTracker :=
  t.change nodeId fun metrics => { metrics with epochsWitnessed := metrics.epochsWitnessed + 1 }

/-- `ContributionTracker::record_epoch_missed`. -/
def recordEpochMissed (nodeId : NodeID) : ContributionTracker :=
  t.change nodeId fun metrics => { metrics with epochsMissed := metrics.epochsMissed + 1 }

/-- `ContributionTracker::get_metrics`: the period that is running is counted up to now. -/
def getMetrics (clock : Clock) (nodeId : NodeID) : TrackedMetrics :=
  match t.metrics.find? nodeId with
  | none => {}
  | some metrics =>
    match t.onlineSince.find? nodeId with
    | some start =>
      { metrics with totalUptime := metrics.totalUptime + ((clock.read 0).secs - start) }
    | none => metrics

end ContributionTracker

/-- The notifications and the other records. -/
inductive ContributionInput where
  | nodeOnline (clock : Clock) (nodeId : NodeID)
  | nodeOffline (clock : Clock) (nodeId : NodeID)
  | bytesRouted (nodeId : NodeID) (bytes : UInt64)
  | traffic (nodeId : NodeID) (sent received : UInt64)
  | thingHosted (nodeId : NodeID) (sizeBytes : UInt64)
  | thingRemoved (nodeId : NodeID) (sizeBytes : UInt64)
  | successfulRoute (nodeId : NodeID)
  | failedRoute (nodeId : NodeID)
  | epochWitness (nodeId : NodeID)
  | epochMissed (nodeId : NodeID)

/-- One call. -/
def ContributionTracker.call (t : ContributionTracker) : ContributionInput → ContributionTracker
  | .nodeOnline clock nodeId => t.recordNodeOnline clock nodeId
  | .nodeOffline clock nodeId => t.recordNodeOffline clock nodeId
  | .bytesRouted nodeId bytes => t.recordBytesRouted nodeId bytes
  | .traffic nodeId sent received => t.recordTraffic nodeId sent received
  | .thingHosted nodeId sizeBytes => t.recordThingHosted nodeId sizeBytes
  | .thingRemoved nodeId sizeBytes => t.recordThingRemoved nodeId sizeBytes
  | .successfulRoute nodeId => t.recordSuccessfulRoute nodeId
  | .failedRoute nodeId => t.recordFailedRoute nodeId
  | .epochWitness nodeId => t.recordEpochWitness nodeId
  | .epochMissed nodeId => t.recordEpochMissed nodeId

/-- A tracker driven by calls; it shows nothing. -/
def contributionMachine : Machine ContributionTracker ContributionInput Empty where
  step t input := (t.call input, [])

end Cashew
