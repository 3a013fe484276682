import Cashew.Ledger.Payload

/-!
# The ledger index

`LedgerIndex`: the lookup tables a ledger keeps beside its event list. Each
table is a `std::map`; `operator[]` on a missing key starts from an empty list,
an empty set or zero. A payload that does not decode leaves the type-specific
tables alone.
-/

namespace Cashew

open Cashew.Lib

/-- `LedgerIndex`. -/
structure LedgerIndex where
  eventsByNode : OrdMap NodeID (List Hash256)
  eventsByType : OrdMap (Wire EventType) (List Hash256)
  eventsByNetwork : OrdMap Hash256 (List Hash256)
  eventsByThing : OrdMap ContentHash (List Hash256)
  nodeJoinTimes : OrdMap NodeID UInt64
  networkMembers : OrdMap Hash256 (Finset NodeID)
  thingHosts : OrdMap ContentHash (Finset NodeID)
  keyBalances : OrdMap (NodeID ×ₗ Wire KeyType) UInt32

namespace LedgerIndex

/-- The default-constructed index, which is also what `clear()` leaves. -/
def empty : LedgerIndex where
  eventsByNode := .empty
  eventsByType := .empty
  eventsByNetwork := .empty
  eventsByThing := .empty
  nodeJoinTimes := .empty
  networkMembers := .empty
  thingHosts := .empty
  keyBalances := .empty

/-- The type-specific `switch` of `LedgerIndex::add_event`. -/
def addTyped (ix : LedgerIndex) (e : LedgerEvent) : LedgerIndex :=
  match e.eventType with
  | .listed .nodeJoined =>
    { ix with nodeJoinTimes := ix.nodeJoinTimes.insert e.sourceNode e.timestamp }
  | .listed .keyIssued =>
    match (KeyIssuanceData.fromBytes e.data).toOption with
    | some d =>
      { ix with
        keyBalances := ix.keyBalances.upsert (toLex (e.sourceNode, d.keyType)) 0 (· + d.count) }
    | none => ix
  | .listed .networkMemberAdded =>
    match (NetworkMembershipData.fromBytes e.data).toOption with
    | some d =>
      { ix with
        eventsByNetwork := ix.eventsByNetwork.upsert d.networkId [] (· ++ [e.eventId])
        networkMembers := ix.networkMembers.upsert d.networkId ∅ (insert d.memberNode) }
    | none => ix
  | .listed .thingReplicated =>
    match (ThingReplicationData.fromBytes e.data).toOption with
    | some d =>
      { ix with
        eventsByThing := ix.eventsByThing.upsert d.contentHash [] (· ++ [e.eventId])
        thingHosts := ix.thingHosts.upsert d.contentHash ∅ (insert d.hostingNode) }
    | none => ix
  | _ => ix

/-- `LedgerIndex::add_event`. -/
def addEvent (ix : LedgerIndex) (e : LedgerEvent) : LedgerIndex :=
  addTyped
    { ix with
      eventsByNode := ix.eventsByNode.upsert e.sourceNode [] (· ++ [e.eventId])
      eventsByType := ix.eventsByType.upsert e.eventType [] (· ++ [e.eventId]) } e

/-- `LedgerIndex::rebuild_from_events`: clear, then add one by one. -/
def rebuildFromEvents (events : List LedgerEvent) : LedgerIndex :=
  events.foldl addEvent empty

/-- `LedgerIndex::get_events_by_node`. -/
def getEventsByNode (ix : LedgerIndex) (nodeId : NodeID) : List Hash256 :=
  (ix.eventsByNode.find? nodeId).getD []

/-- `LedgerIndex::get_node_join_time`. -/
def getNodeJoinTime (ix : LedgerIndex) (nodeId : NodeID) : Option UInt64 :=
  ix.nodeJoinTimes.find? nodeId

/-- `LedgerIndex::get_network_members`: a `std::set` lists its elements in
ascending order. -/
def getNetworkMembers (ix : LedgerIndex) (networkId : Hash256) : List NodeID :=
  NodeID.sorted ((ix.networkMembers.find? networkId).getD ∅)

/-- `LedgerIndex::get_thing_hosts`. -/
def getThingHosts (ix : LedgerIndex) (contentHash : ContentHash) : List NodeID :=
  NodeID.sorted ((ix.thingHosts.find? contentHash).getD ∅)

/-- Rebuilding over one more event is one more `add_event`. -/
theorem rebuildFromEvents_snoc (events : List LedgerEvent) (e : LedgerEvent) :
    rebuildFromEvents (events ++ [e]) = (rebuildFromEvents events).addEvent e := by
  simp [rebuildFromEvents, List.foldl_append]

end LedgerIndex

end Cashew
