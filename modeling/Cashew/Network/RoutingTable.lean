import Cashew.Common
import Cashew.Lib.Machine

/-!
# The routing table

`RoutingTable` of `network/router.cpp`: what is known about nodes, and which
nodes advertise which content. Reliability scores are single-precision floats.

A method that looks at several entries reads the clock for each of them; the
`i`-th entry of the list it walks is judged at reading `i`.
-/

namespace Cashew

open Cashew.Lib

/-- `RoutingEntry`. -/
structure RoutingEntry where
  nodeId : NodeID
  advertisedContent : List ContentHash := []
  hopDistance : UInt8
  lastSeenTimestamp : UInt64 := 0
  reliabilityScore : Float32 := 1.0

/-- `RoutingEntry::is_stale`: older than `ENTRY_TTL_SECONDS`. -/
def RoutingEntry.isStale (e : RoutingEntry) (now : Time) : Bool :=
  3600 < now.secs - e.lastSeenTimestamp

/-- `RoutingTable`. -/
structure RoutingTable where
  entries : OrdMap NodeID RoutingEntry := .empty
  contentIndex : OrdMap ContentHash (List NodeID) := .empty

namespace RoutingTable

def minReliabilityScore : Float32 := 0.3

/-- `RoutingTable::update_node_seen`. -/
def updateNodeSeen (t : RoutingTable) (now : Time) (nodeId : NodeID) : RoutingTable :=
  { t with entries := t.entries.modify nodeId fun e => { e with lastSeenTimestamp := now.secs } }

/-- `RoutingTable::add_node`. -/
def addNode (t : RoutingTable) (now : Time) (nodeId : NodeID) (hopDistance : UInt8) :
    RoutingTable :=
  match t.entries.find? nodeId with
  | none =>
    { t with
      entries := t.entries.insert nodeId { nodeId, hopDistance, lastSeenTimestamp := now.secs } }
  | some e =>
    let nearer :=
      if hopDistance < e.hopDistance then
        { t with entries := t.entries.insert nodeId { e with hopDistance } }
      else t
    nearer.updateNodeSeen now nodeId

/-- Drop a host from the index of one content; an empty list of hosts goes. -/
def dropHost (index : OrdMap ContentHash (List NodeID)) (nodeId : NodeID)
    (contentHash : ContentHash) : OrdMap ContentHash (List NodeID) :=
  match index.find? contentHash with
  | none => index
  | some hosts =>
    let hosts := hosts.filter (· ≠ nodeId)
    if hosts.isEmpty then index.erase contentHash else index.insert contentHash hosts

/-- `RoutingTable::remove_node`. -/
def removeNode (t : RoutingTable) (nodeId : NodeID) : RoutingTable :=
  match t.entries.find? nodeId with
  | none => t
  | some e =>
    { entries := t.entries.erase nodeId
      contentIndex := e.advertisedContent.foldl (fun index c => dropHost index nodeId c)
        t.contentIndex }

/-- `RoutingTable::update_node_reliability`: a moving average, kept between 0
and 1. -/
def updateNodeReliability (t : RoutingTable) (nodeId : NodeID) (score : Float32) :
    RoutingTable :=
  { t with
    entries := t.entries.modify nodeId fun e =>
      let average := 0.7 * e.reliabilityScore + 0.3 * score
      let average := if average < 0.0 then 0.0 else average
      let average := if 1.0 < average then 1.0 else average
      { e with reliabilityScore := average } }

/-- `RoutingTable::advertise_content`. -/
def advertiseContent (t : RoutingTable) (nodeId : NodeID) (contentHash : ContentHash) :
    RoutingTable where
  entries := t.entries.modify nodeId fun e =>
    if contentHash ∈ e.advertisedContent then e
    else { e with advertisedContent := e.advertisedContent ++ [contentHash] }
  contentIndex := t.contentIndex.upsert contentHash [] fun hosts =>
    if nodeId ∈ hosts then hosts else hosts ++ [nodeId]

/-- `RoutingTable::remove_content_advertisement`. -/
def removeContentAdvertisement (t : RoutingTable) (nodeId : NodeID)
    (contentHash : ContentHash) : RoutingTable where
  entries := t.entries.modify nodeId fun e =>
    { e with advertisedContent := e.advertisedContent.filter (· ≠ contentHash) }
  contentIndex := dropHost t.contentIndex nodeId contentHash

/-- `RoutingTable::find_hosts_for_content`. -/
def findHostsForContent (t : RoutingTable) (contentHash : ContentHash) : List NodeID :=
  (t.contentIndex.find? contentHash).getD []

/-- `RoutingTable::has_content_route`. -/
def hasContentRoute (t : RoutingTable) (contentHash : ContentHash) : Bool :=
  match t.contentIndex.find? contentHash with
  | none => false
  | some hosts => !hosts.isEmpty

/-- One round of the loop of `select_best_host`. -/
def considerHost (t : RoutingTable) (now : Time) (best : NodeID × Float32) (host : NodeID) :
    NodeID × Float32 :=
  match t.entries.find? host with
  | none => best
  | some e =>
    if e.isStale now || e.reliabilityScore < minReliabilityScore then best
    else
      let score := e.reliabilityScore / (1.0 + Float32.ofNat e.hopDistance.toNat)
      if best.2 < score then (host, score) else best

/-- `RoutingTable::select_best_host`. -/
def selectBestHost (t : RoutingTable) (clock : Clock) (contentHash : ContentHash) :
    Option NodeID :=
  match t.findHostsForContent contentHash with
  | [] => none
  | hosts@(first :: _) =>
    let best := hosts.zipIdx.foldl
      (fun best (host, i) => t.considerHost (clock.read i) best host) (first, -1.0)
    if best.2 < 0.0 then none else some best.1

/-- `RoutingTable::cleanup_stale_entries`. -/
def cleanupStaleEntries (t : RoutingTable) (clock : Clock) : RoutingTable :=
  let toRemove := (t.entries.entries.zipIdx.filter fun ((_, e), i) =>
    e.isStale (clock.read i)).map fun ((nodeId, _), _) => nodeId
  toRemove.foldl removeNode t

end RoutingTable

/-! ## Runs -/

/-- The calls that change a routing table. -/
inductive RoutingCall where
  | addNode (nodeId : NodeID) (hopDistance : UInt8)
  | removeNode (nodeId : NodeID)
  | updateNodeSeen (nodeId : NodeID)
  | updateNodeReliability (nodeId : NodeID) (score : Float32)
  | advertiseContent (nodeId : NodeID) (contentHash : ContentHash)
  | removeContentAdvertisement (nodeId : NodeID) (contentHash : ContentHash)
  | cleanupStaleEntries

/-- One call on a routing table. -/
def RoutingTable.call (t : RoutingTable) (clock : Clock) : RoutingCall → RoutingTable
  | .addNode n hops => t.addNode (clock.read 0) n hops
  | .removeNode n => t.removeNode n
  | .updateNodeSeen n => t.updateNodeSeen (clock.read 0) n
  | .updateNodeReliability n score => t.updateNodeReliability n score
  | .advertiseContent n c => t.advertiseContent n c
  | .removeContentAdvertisement n c => t.removeContentAdvertisement n c
  | .cleanupStaleEntries => t.cleanupStaleEntries clock

/-- The routing table as a machine: any call, each with its own clock readings. -/
def routingMachine : Machine RoutingTable (Clock × RoutingCall) Empty where
  step t input := (t.call input.1 input.2, [])

end Cashew
