import Cashew.Ledger.Ledger

/-!
# The state derived from the ledger

`core/ledger/state.cpp`: what the events of a ledger say about nodes, networks
and things. `rebuild_state` folds `apply_event` over all events; callers that
append an event apply just that one on top (`rebuildState_snoc` is what makes
the two agree).

`operator[]` on a missing key default-constructs the value. A default-constructed
`NetworkState` has no id yet; it reads as the zero hash here.
-/

namespace Cashew

open Cashew.Lib

/-- `NodeState`. -/
structure NodeState where
  nodeId : NodeID := default
  joinedAt : UInt64 := 0
  isActive : Bool := false
  keyBalances : OrdMap (Wire KeyType) UInt32 := .empty
  networks : Finset Hash256 := ∅
  hostedThings : Finset ContentHash := ∅
  reputationScore : Int32 := 0
  powSolutions : UInt32 := 0
  postakeContributions : UInt32 := 0
  deriving DecidableEq

namespace NodeState

/-- `NodeState::has_key_type`. -/
def hasKeyType (n : NodeState) (type : Wire KeyType) (minCount : UInt32) : Bool :=
  (n.keyBalances.find? type).any (minCount ≤ ·)

/-- `NodeState::can_host_things`. -/
def canHostThings (n : NodeState) : Bool := n.isActive && n.hasKeyType (.listed .service) 1

/-- `NodeState::can_join_networks`. -/
def canJoinNetworks (n : NodeState) : Bool := n.isActive && n.hasKeyType (.listed .network) 1

/-- `NodeState::can_route`. -/
def canRoute (n : NodeState) : Bool := n.isActive && n.hasKeyType (.listed .routing) 1

end NodeState

/-- `NetworkState`. -/
structure NetworkState where
  networkId : Hash256 := FixedBytes.zero
  createdAt : UInt64 := 0
  isActive : Bool := false
  members : Finset NodeID := ∅
  memberRoles : OrdMap NodeID Bytes := .empty
  deriving DecidableEq

namespace NetworkState

/-- `NetworkState::has_member`. -/
def hasMember (net : NetworkState) (nodeId : NodeID) : Bool := nodeId ∈ net.members

/-- `NetworkState::get_member_role`. -/
def getMemberRole (net : NetworkState) (nodeId : NodeID) : Bytes :=
  (net.memberRoles.find? nodeId).getD (Text.ofString "UNKNOWN").bytes

end NetworkState

/-- `ThingState`. -/
structure ThingState where
  contentHash : ContentHash := default
  createdAt : UInt64 := 0
  isAvailable : Bool := false
  hosts : Finset NodeID := ∅
  networks : Finset Hash256 := ∅
  totalSizeBytes : UInt64 := 0
  replicationCount : UInt32 := 0
  deriving DecidableEq

/-- The three maps of `StateManager`. -/
structure StateManager where
  nodes : OrdMap NodeID NodeState := .empty
  networks : OrdMap Hash256 NetworkState := .empty
  things : OrdMap ContentHash ThingState := .empty
  deriving DecidableEq

namespace StateManager

/-- `auto& node_state = nodes_[id]; …`. -/
def updateNode (s : StateManager) (id : NodeID) (f : NodeState → NodeState) : StateManager :=
  { s with nodes := s.nodes.upsert id {} f }

/-- `StateManager::apply_node_joined`: a node that joins again starts over. -/
def applyNodeJoined (s : StateManager) (e : LedgerEvent) : StateManager :=
  { s with
    nodes := s.nodes.insert e.sourceNode
      { nodeId := e.sourceNode, joinedAt := e.timestamp, isActive := true } }

/-- `StateManager::apply_node_left`. -/
def applyNodeLeft (s : StateManager) (e : LedgerEvent) : StateManager :=
  { s with nodes := s.nodes.modify e.sourceNode fun n => { n with isActive := false } }

/-- `StateManager::apply_key_issued`. -/
def applyKeyIssued (s : StateManager) (e : LedgerEvent) : StateManager :=
  match (KeyIssuanceData.fromBytes e.data).toOption with
  | none => s
  | some d => s.updateNode e.sourceNode fun n =>
    { n with keyBalances := n.keyBalances.upsert d.keyType 0 (· + d.count) }

/-- `StateManager::apply_key_revoked`: the balance stops at zero. -/
def applyKeyRevoked (s : StateManager) (e : LedgerEvent) : StateManager :=
  match (KeyIssuanceData.fromBytes e.data).toOption with
  | none => s
  | some d => s.updateNode e.sourceNode fun n =>
    { n with
      keyBalances := n.keyBalances.upsert d.keyType 0 fun balance =>
        if d.count < balance then balance - d.count else 0 }

/-- `StateManager::apply_network_created`: the first 32 bytes of the data name
the network. -/
def applyNetworkCreated (s : StateManager) (e : LedgerEvent) : StateManager :=
  match ((do Decoder.require 32; FixedBytes.decoder 32).run e.data).toOption with
  | none => s
  | some networkId =>
    { s with
      networks := s.networks.insert networkId
        { networkId, createdAt := e.timestamp, isActive := true } }

/-- `StateManager::apply_network_member_added`. -/
def applyNetworkMemberAdded (s : StateManager) (e : LedgerEvent) : StateManager :=
  match (NetworkMembershipData.fromBytes e.data).toOption with
  | none => s
  | some d =>
    let s := { s with
      networks := s.networks.upsert d.networkId {} fun net =>
        { net with
          members := insert d.memberNode net.members
          memberRoles := net.memberRoles.insert d.memberNode d.role } }
    s.updateNode d.memberNode fun n => { n with networks := insert d.networkId n.networks }

/-- `StateManager::apply_network_member_removed`. -/
def applyNetworkMemberRemoved (s : StateManager) (e : LedgerEvent) : StateManager :=
  match (NetworkMembershipData.fromBytes e.data).toOption with
  | none => s
  | some d =>
    { s with
      networks := s.networks.modify d.networkId fun net =>
        { net with
          members := net.members.erase d.memberNode
          memberRoles := net.memberRoles.erase d.memberNode }
      nodes := s.nodes.modify d.memberNode fun n =>
        { n with networks := n.networks.erase d.networkId } }

/-- `StateManager::apply_thing_replicated`. -/
def applyThingReplicated (s : StateManager) (e : LedgerEvent) : StateManager :=
  match (ThingReplicationData.fromBytes e.data).toOption with
  | none => s
  | some d =>
    let s := { s with
      things := s.things.upsert d.contentHash {} fun t =>
        let hosts := insert d.hostingNode t.hosts
        -- a thing that is already there is dated anew
        { contentHash := d.contentHash
          createdAt := e.timestamp
          isAvailable := true
          hosts
          networks := insert d.networkId t.networks
          totalSizeBytes := d.sizeBytes
          replicationCount := UInt32.ofNat hosts.card } }
    s.updateNode d.hostingNode fun n =>
      { n with hostedThings := insert d.contentHash n.hostedThings }

/-- `StateManager::apply_thing_removed`: an unknown thing leaves the node alone
too. -/
def applyThingRemoved (s : StateManager) (e : LedgerEvent) : StateManager :=
  match (ThingReplicationData.fromBytes e.data).toOption with
  | none => s
  | some d =>
    match s.things.find? d.contentHash with
    | none => s
    | some t =>
      let hosts := t.hosts.erase d.hostingNode
      let replicationCount := UInt32.ofNat hosts.card
      { s with
        things := s.things.insert d.contentHash
          { t with
            hosts
            replicationCount
            isAvailable := if replicationCount = 0 then false else t.isAvailable }
        nodes := s.nodes.modify d.hostingNode fun n =>
          { n with hostedThings := n.hostedThings.erase d.contentHash } }

/-- `StateManager::apply_reputation_updated`. -/
def applyReputationUpdated (s : StateManager) (e : LedgerEvent) : StateManager :=
  match (ReputationUpdateData.fromBytes e.data).toOption with
  | none => s
  | some d => s.updateNode d.subjectNode fun n =>
    { n with reputationScore := n.reputationScore + d.scoreDelta }

/-- `StateManager::apply_pow_solution`. -/
def applyPowSolution (s : StateManager) (e : LedgerEvent) : StateManager :=
  s.updateNode e.sourceNode fun n => { n with powSolutions := n.powSolutions + 1 }

/-- `StateManager::apply_postake_contribution`. -/
def applyPostakeContribution (s : StateManager) (e : LedgerEvent) : StateManager :=
  s.updateNode e.sourceNode fun n =>
    { n with postakeContributions := n.postakeContributions + 1 }

/-- `StateManager::apply_event`. -/
def applyEvent (s : StateManager) (e : LedgerEvent) : StateManager :=
  match e.eventType with
  | .listed .nodeJoined => s.applyNodeJoined e
  | .listed .nodeLeft => s.applyNodeLeft e
  | .listed .keyIssued => s.applyKeyIssued e
  | .listed .keyRevoked => s.applyKeyRevoked e
  | .listed .networkCreated => s.applyNetworkCreated e
  | .listed .networkMemberAdded => s.applyNetworkMemberAdded e
  | .listed .networkMemberRemoved => s.applyNetworkMemberRemoved e
  | .listed .thingReplicated => s.applyThingReplicated e
  | .listed .thingRemoved => s.applyThingRemoved e
  | .listed .reputationUpdated => s.applyReputationUpdated e
  | .listed .powSolutionSubmitted => s.applyPowSolution e
  | .listed .postakeContribution => s.applyPostakeContribution e
  | _ => s

/-- `StateManager::rebuild_state`, over the ledger's events. -/
def rebuildState (events : List LedgerEvent) : StateManager :=
  events.foldl applyEvent {}

/-- `StateManager::get_network_state`. -/
def getNetworkState (s : StateManager) (networkId : Hash256) : Option NetworkState :=
  s.networks.find? networkId

/-- `StateManager::get_thing_hosts`. -/
def getThingHosts (s : StateManager) (contentHash : ContentHash) : List NodeID :=
  match s.things.find? contentHash with
  | none => []
  | some t => NodeID.sorted t.hosts

/-- `StateManager::get_all_active_nodes`. -/
def getAllActiveNodes (s : StateManager) : List NodeState :=
  (s.nodes.entries.map Prod.snd).filter (·.isActive)

/-- `StateManager::is_node_active`. -/
def isNodeActive (s : StateManager) (nodeId : NodeID) : Bool :=
  (s.nodes.find? nodeId).any (·.isActive)

/-- `StateManager::get_node_state`. -/
def getNodeState (s : StateManager) (nodeId : NodeID) : Option NodeState :=
  s.nodes.find? nodeId

/-- `StateManager::get_node_key_balance`. -/
def getNodeKeyBalance (s : StateManager) (nodeId : NodeID) (type : Wire KeyType) : UInt32 :=
  match s.nodes.find? nodeId with
  | none => 0
  | some n => (n.keyBalances.find? type).getD 0

/-- `StateManager::get_node_reputation`. -/
def getNodeReputation (s : StateManager) (nodeId : NodeID) : Int32 :=
  match s.nodes.find? nodeId with
  | none => 0
  | some n => n.reputationScore

/-- `StateManager::is_node_in_network`. -/
def isNodeInNetwork (s : StateManager) (nodeId : NodeID) (networkId : Hash256) : Bool :=
  (s.networks.find? networkId).any (·.hasMember nodeId)

/-- `StateManager::can_node_host_things`. -/
def canNodeHostThings (s : StateManager) (nodeId : NodeID) : Bool :=
  (s.nodes.find? nodeId).any (·.canHostThings)

/-- `StateManager::can_node_join_networks`. -/
def canNodeJoinNetworks (s : StateManager) (nodeId : NodeID) : Bool :=
  (s.nodes.find? nodeId).any (·.canJoinNetworks)

/-- `StateManager::can_node_route_traffic`. -/
def canNodeRouteTraffic (s : StateManager) (nodeId : NodeID) : Bool :=
  (s.nodes.find? nodeId).any (·.canRoute)

/-- `StateManager::get_thing_state`. -/
def getThingState (s : StateManager) (contentHash : ContentHash) : Option ThingState :=
  s.things.find? contentHash

/-- `StateManager::get_all_available_things`. -/
def getAllAvailableThings (s : StateManager) : List ThingState :=
  (s.things.entries.map Prod.snd).filter (·.isAvailable)

theorem rebuildState_snoc (events : List LedgerEvent) (e : LedgerEvent) :
    rebuildState (events ++ [e]) = (rebuildState events).applyEvent e := by
  show (events ++ [e]).foldl applyEvent {} = (events.foldl applyEvent {}).applyEvent e
  rw [List.foldl_append]
  rfl

/-! ## Maintenance -/

/-- The last time a node did something, as `update_node_activity` finds it: when
it joined, or when it last recorded an event. -/
def lastActivity (n : NodeState) (events : List LedgerEvent) : UInt64 :=
  events.foldl (fun last e => if last < e.timestamp then e.timestamp else last) n.joinedAt

/-- `INACTIVITY_THRESHOLD_SECONDS`: 14 days. -/
def inactivityThreshold : UInt64 := 14 * 24 * 60 * 60

/-- `StateManager::update_node_activity`. -/
def updateNodeActivity (s : StateManager) (ledger : Ledger) (now : Time) : StateManager :=
  { s with
    nodes := s.nodes.mapValues fun nodeId n =>
      if !n.isActive then n
      else
        let last := lastActivity n (ledger.getEventsByNode nodeId)
        if last < now.secs ∧ inactivityThreshold < now.secs - last then
          { n with isActive := false }
        else n }

/-- `INACTIVE_THRESHOLD`: 30 days. -/
def inactiveThreshold : UInt64 := 86400 * 30

/-- A node `cleanup_stale_state` removes. The subtraction is unsigned, and counts
from the time the node joined. -/
def isStale (n : NodeState) (now : Time) : Bool :=
  !n.isActive && inactiveThreshold < now.secs - n.joinedAt

/-- `StateManager::cleanup_stale_state`. -/
def cleanupStaleState (s : StateManager) (now : Time) : StateManager :=
  { s with nodes := s.nodes.filter fun _ n => !isStale n now }

end StateManager

/-! ## Runs -/

/-- The calls that change a state manager. -/
inductive StateInput where
  | applyEvent (e : LedgerEvent)
  | updateNodeActivity (ledger : Ledger) (now : Time)
  | cleanupStaleState (now : Time)

def stateMachine : Machine StateManager StateInput Empty where
  step s input :=
    (match input with
     | .applyEvent e => s.applyEvent e
     | .updateNodeActivity ledger now => s.updateNodeActivity ledger now
     | .cleanupStaleState now => s.cleanupStaleState now, [])

end Cashew
