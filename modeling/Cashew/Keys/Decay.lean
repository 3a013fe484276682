import Cashew.Ledger.State

/-!
# Keys and Things that decay

`DecayScheduler` of `core/decay/decay.cpp`, and the `DecayRunner` of
`core/decay/decay_runner.cpp` that asks it for decays. Callers record what nodes do; at the
end of an epoch the scheduler goes through the active nodes and picks the keys to take
away, then through the Things.

The clock is read anew at each test of a check, so a check is given its readings by
the place where they are taken. `force_decay_check` is `process_epoch` under another
number. What was picked is the result of a check. The fields of a policy that nothing reads
are left out.
-/

namespace Cashew

open Cashew.Lib

/-- `DecayReason`. -/
inductive DecayReason where
  | inactivity
  | expiration
  | resourceShortage
  | poorPerformance
  | violation
  deriving DecidableEq

/-- `KeyDecayEvent`. -/
structure KeyDecayEvent where
  nodeId : NodeID
  keyType : Wire KeyType
  keysDecayed : UInt32
  reason : DecayReason
  decayedAt : UInt64
  epoch : UInt64
  deriving DecidableEq

/-- `ThingDecayEvent`. -/
structure ThingDecayEvent where
  contentHash : ContentHash
  hostsRemoved : List NodeID
  reason : DecayReason
  decayedAt : UInt64
  deriving DecidableEq

/-- `DecayPolicy`, with the defaults of its constructor. -/
structure DecayPolicy where
  maxAgeSeconds : UInt64 := 30 * 24 * 60 * 60
  inactivityThreshold : UInt64 := 7 * 24 * 60 * 60
  requiresActivity : Bool := false
  minActionsPerEpoch : UInt32 := 0
  deriving DecidableEq

/-- `ThingDecayPolicy`. -/
structure ThingDecayPolicy where
  maxAgeSeconds : UInt64 := 90 * 24 * 60 * 60
  minHostsRequired : UInt32 := 2
  inactivityThreshold : UInt64 := 30 * 24 * 60 * 60
  deriving DecidableEq

/-- `NodeActivity`; `operator[]` makes it with zeros. -/
structure NodeActivity where
  nodeId : NodeID := default
  lastSeen : UInt64 := 0
  lastKeyUse : UInt64 := 0
  lastUseByType : OrdMap (Wire KeyType) UInt64 := .empty
  actionsThisEpoch : OrdMap (Wire KeyType) UInt32 := .empty
  deriving DecidableEq

namespace NodeActivity

/-- `NodeActivity::is_inactive`, unsigned. -/
def isInactive (a : NodeActivity) (now : Time) (threshold : UInt64) : Bool :=
  threshold < now.secs - a.lastSeen

/-- `NodeActivity::has_used_key_type`. -/
def hasUsedKeyType (a : NodeActivity) (now : Time) (type : Wire KeyType) (threshold : UInt64) :
    Bool :=
  (a.lastUseByType.find? type).any fun last => decide (now.secs - last ≤ threshold)

end NodeActivity

/-- `ThingActivity`. -/
structure ThingActivity where
  contentHash : ContentHash := default
  createdAt : UInt64 := 0
  lastAccessed : UInt64 := 0
  accessCount : UInt32 := 0
  currentHosts : List NodeID := []
  deriving DecidableEq

namespace ThingActivity

/-- `ThingActivity::is_inactive`. -/
def isInactive (a : ThingActivity) (now : Time) (threshold : UInt64) : Bool :=
  threshold < now.secs - a.lastAccessed

/-- `ThingActivity::meets_redundancy`. -/
def meetsRedundancy (a : ThingActivity) (minHosts : UInt32) : Bool :=
  minHosts.toNat ≤ a.currentHosts.length

end ThingActivity

/-- The places of a check where the clock is read. -/
inductive Reading where
  | track (nodeId : NodeID)
  | seen (nodeId : NodeID) (keyType : Wire KeyType)
  | used (nodeId : NodeID) (keyType : Wire KeyType)
  | keyDecayed (nodeId : NodeID) (keyType : Wire KeyType)
  | accessed (contentHash : ContentHash)
  | age (contentHash : ContentHash)
  | thingDecayed (contentHash : ContentHash)

/-- `DecayScheduler`. -/
structure DecayScheduler where
  keyPolicies : OrdMap (Wire KeyType) DecayPolicy := .empty
  thingPolicy : ThingDecayPolicy := {}
  nodeActivities : OrdMap NodeID NodeActivity := .empty
  thingActivities : OrdMap ContentHash ThingActivity := .empty
  deriving DecidableEq

namespace DecayScheduler

/-! ## Policies -/

/-- `DecayScheduler::set_key_policy`. -/
def setKeyPolicy (s : DecayScheduler) (keyType : Wire KeyType) (policy : DecayPolicy) :
    DecayScheduler :=
  { s with keyPolicies := s.keyPolicies.insert keyType policy }

/-- `DecayScheduler::get_key_policy`. -/
def getKeyPolicy (s : DecayScheduler) (keyType : Wire KeyType) : DecayPolicy :=
  (s.keyPolicies.find? keyType).getD {}

/-- `DecayScheduler::set_thing_policy`. -/
def setThingPolicy (s : DecayScheduler) (policy : ThingDecayPolicy) : DecayScheduler :=
  { s with thingPolicy := policy }

/-- `DecayScheduler::initialize_default_policies`. -/
def initializeDefaultPolicies (s : DecayScheduler) : DecayScheduler :=
  let s := s.setKeyPolicy (.listed .identity) { maxAgeSeconds := 0 }
  let s := s.setKeyPolicy (.listed .node) { requiresActivity := true, minActionsPerEpoch := 1 }
  let s := s.setKeyPolicy (.listed .service) { requiresActivity := true, minActionsPerEpoch := 1 }
  let s := s.setKeyPolicy (.listed .routing) { requiresActivity := true, minActionsPerEpoch := 10 }
  s.setKeyPolicy (.listed .network) { inactivityThreshold := 14 * 24 * 60 * 60 }

/-- `DecayScheduler::DecayScheduler`. -/
def new : DecayScheduler := initializeDefaultPolicies {}

/-! ## Recording -/

/-- `DecayScheduler::record_node_activity`. -/
def recordNodeActivity (s : DecayScheduler) (now : Time) (nodeId : NodeID) : DecayScheduler :=
  { s with
    nodeActivities := s.nodeActivities.upsert nodeId {} fun a =>
      { a with nodeId, lastSeen := now.secs } }

/-- `DecayScheduler::record_key_use`. The time the node was seen stays. -/
def recordKeyUse (s : DecayScheduler) (now : Time) (nodeId : NodeID) (keyType : Wire KeyType) :
    DecayScheduler :=
  { s with
    nodeActivities := s.nodeActivities.upsert nodeId {} fun a =>
      { a with
        nodeId
        lastKeyUse := now.secs
        lastUseByType := a.lastUseByType.insert keyType now.secs
        actionsThisEpoch := a.actionsThisEpoch.upsert keyType 0 (· + 1) } }

/-- `DecayScheduler::update_node_activity_from_state`. -/
def updateNodeActivityFromState (s : DecayScheduler) (state : StateManager) (now : Time)
    (nodeId : NodeID) : DecayScheduler :=
  { s with
    nodeActivities := s.nodeActivities.upsert nodeId {} fun a =>
      { a with nodeId, lastSeen := if state.isNodeActive nodeId then now.secs else a.lastSeen } }

/-- What `update_thing_activity_from_state` writes. A Thing whose creation was not
known counts as accessed when it was created. -/
def refreshThing (a : ThingActivity) (thing : ThingState) : ThingActivity :=
  let a := { a with currentHosts := NodeID.sorted thing.hosts }
  if a.createdAt = 0 then
    { a with createdAt := thing.createdAt, lastAccessed := thing.createdAt }
  else a

/-- `DecayScheduler::update_thing_activity_from_state`. -/
def updateThingActivityFromState (s : DecayScheduler) (state : StateManager)
    (contentHash : ContentHash) : DecayScheduler :=
  { s with
    thingActivities := s.thingActivities.upsert contentHash {} fun a =>
      -- a Thing the ledger does not know keeps its hosts
      (state.getThingState contentHash).elim { a with contentHash }
        (refreshThing { a with contentHash }) }

/-- `DecayScheduler::record_thing_access`. -/
def recordThingAccess (s : DecayScheduler) (state : StateManager) (now : Time)
    (contentHash : ContentHash) : DecayScheduler :=
  let s := { s with
    thingActivities := s.thingActivities.upsert contentHash {} fun a =>
      { a with contentHash, lastAccessed := now.secs, accessCount := a.accessCount + 1 } }
  s.updateThingActivityFromState state contentHash

/-- `DecayScheduler::cleanup_inactive_nodes`. -/
def cleanupInactiveNodes (s : DecayScheduler) (now : Time) (threshold : UInt64) : DecayScheduler :=
  { s with
    nodeActivities := s.nodeActivities.filter fun _ a => !a.isInactive now threshold }

/-! ## Checks -/

/-- `DecayScheduler::should_decay_key`: the reason, if the key decays. -/
def shouldDecayKey (s : DecayScheduler) (clock : Reading → Time) (nodeId : NodeID)
    (keyType : Wire KeyType) (policy : DecayPolicy) : Option DecayReason :=
  if policy.maxAgeSeconds = 0 then none
  else
    match s.nodeActivities.find? nodeId with
    | some a =>
      -- the node is asked before the key, whether or not activity is required
      if a.isInactive (clock (.seen nodeId keyType)) policy.inactivityThreshold then
        some .inactivity
      else if policy.requiresActivity then
        if !a.hasUsedKeyType (clock (.used nodeId keyType)) keyType policy.inactivityThreshold then
          some .inactivity
        else if (a.actionsThisEpoch.find? keyType).all (· < policy.minActionsPerEpoch) then
          some .poorPerformance
        else none
      else none
    -- "No activity tracked = assume inactive"
    | none => if policy.requiresActivity then some .inactivity else none

/-- Update activity from state if not tracked. -/
def trackNode (s : DecayScheduler) (state : StateManager) (clock : Reading → Time)
    (nodeId : NodeID) : DecayScheduler :=
  if s.nodeActivities.contains nodeId then s
  else s.updateNodeActivityFromState state (clock (.track nodeId)) nodeId

/-- Check each key type of one node. -/
def nodeDecays (s : DecayScheduler) (clock : Reading → Time) (epoch : UInt64) (node : NodeState) :
    List KeyDecayEvent :=
  node.keyBalances.entries.filterMap fun entry =>
    if entry.2 = 0 then none
    else
      (s.shouldDecayKey clock node.nodeId entry.1 (s.getKeyPolicy entry.1)).map fun reason =>
        { nodeId := node.nodeId
          keyType := entry.1
          keysDecayed := 1
          reason
          decayedAt := (clock (.keyDecayed node.nodeId entry.1)).secs
          epoch }

/-- The loop of `check_key_decay`. -/
def checkNodes (state : StateManager) (clock : Reading → Time) (epoch : UInt64) :
    DecayScheduler → List NodeState → DecayScheduler × List KeyDecayEvent
  | s, [] => (s, [])
  | s, node :: rest =>
    -- the record made here is there at the next epoch
    let s := s.trackNode state clock node.nodeId
    let next := checkNodes state clock epoch s rest
    (next.1, s.nodeDecays clock epoch node ++ next.2)

/-- `DecayScheduler::check_key_decay`. -/
def checkKeyDecay (s : DecayScheduler) (state : StateManager) (clock : Reading → Time)
    (epoch : UInt64) : DecayScheduler × List KeyDecayEvent :=
  checkNodes state clock epoch s state.getAllActiveNodes

/-- `DecayScheduler::should_decay_thing`. -/
def shouldDecayThing (s : DecayScheduler) (state : StateManager) (clock : Reading → Time)
    (contentHash : ContentHash) (policy : ThingDecayPolicy) : Option DecayReason :=
  match s.thingActivities.find? contentHash with
  | some a =>
    if a.isInactive (clock (.accessed contentHash)) policy.inactivityThreshold then
      some .inactivity
    else if !a.meetsRedundancy policy.minHostsRequired then some .resourceShortage
    else if policy.maxAgeSeconds < (clock (.age contentHash)).secs - a.createdAt ∧
        a.accessCount = 0 then
      some .expiration
    else none
  | none =>
    match state.getThingState contentHash with
    | none => none
    | some thing =>
      if thing.hosts.card < policy.minHostsRequired.toNat then some .resourceShortage else none

/-- The loop of `check_thing_decay`. -/
def checkThings (state : StateManager) (clock : Reading → Time) :
    DecayScheduler → List ThingState → DecayScheduler × List ThingDecayEvent
  | s, [] => (s, [])
  | s, thing :: rest =>
    let s :=
      if s.thingActivities.contains thing.contentHash then s
      else s.updateThingActivityFromState state thing.contentHash
    let decays :=
      (s.shouldDecayThing state clock thing.contentHash s.thingPolicy).map fun reason =>
        { contentHash := thing.contentHash
          hostsRemoved := NodeID.sorted thing.hosts
          reason
          decayedAt := (clock (.thingDecayed thing.contentHash)).secs }
    let next := checkThings state clock s rest
    (next.1, decays.toList ++ next.2)

/-- `DecayScheduler::check_thing_decay`. -/
def checkThingDecay (s : DecayScheduler) (state : StateManager) (clock : Reading → Time) :
    DecayScheduler × List ThingDecayEvent :=
  checkThings state clock s state.getAllAvailableThings

/-- `DecayScheduler::process_epoch`. Applying a decay only logs it; the actions are
counted anew. -/
def processEpoch (s : DecayScheduler) (state : StateManager) (clock : Reading → Time)
    (epoch : UInt64) : DecayScheduler × List KeyDecayEvent × List ThingDecayEvent :=
  let keys := s.checkKeyDecay state clock epoch
  let things := keys.1.checkThingDecay state clock
  ({ things.1 with
      nodeActivities := things.1.nodeActivities.mapValues fun _ a =>
        { a with actionsThisEpoch := .empty } },
    keys.2, things.2)

end DecayScheduler

/-! ## Runs -/

/-- The calls of a scheduler, with the state of the ledger they look at. -/
inductive DecayInput where
  | setKeyPolicy (keyType : Wire KeyType) (policy : DecayPolicy)
  | setThingPolicy (policy : ThingDecayPolicy)
  | recordNodeActivity (now : Time) (nodeId : NodeID)
  | recordKeyUse (now : Time) (nodeId : NodeID) (keyType : Wire KeyType)
  | recordThingAccess (state : StateManager) (now : Time) (contentHash : ContentHash)
  | cleanupInactiveNodes (now : Time) (threshold : UInt64)
  | checkKeyDecay (state : StateManager) (clock : Reading → Time) (epoch : UInt64)
  | checkThingDecay (state : StateManager) (clock : Reading → Time)
  | processEpoch (state : StateManager) (clock : Reading → Time) (epoch : UInt64)

/-- One call, and the keys it picks. -/
def DecayScheduler.call (s : DecayScheduler) : DecayInput → DecayScheduler × List KeyDecayEvent
  | .setKeyPolicy keyType policy => (s.setKeyPolicy keyType policy, [])
  | .setThingPolicy policy => (s.setThingPolicy policy, [])
  | .recordNodeActivity now nodeId => (s.recordNodeActivity now nodeId, [])
  | .recordKeyUse now nodeId keyType => (s.recordKeyUse now nodeId keyType, [])
  | .recordThingAccess state now contentHash => (s.recordThingAccess state now contentHash, [])
  | .cleanupInactiveNodes now threshold => (s.cleanupInactiveNodes now threshold, [])
  | .checkKeyDecay state clock epoch => s.checkKeyDecay state clock epoch
  | .checkThingDecay state clock => ((s.checkThingDecay state clock).1, [])
  | .processEpoch state clock epoch =>
    ((s.processEpoch state clock epoch).1, (s.processEpoch state clock epoch).2.1)

def decayMachine : Machine DecayScheduler DecayInput KeyDecayEvent where
  step s input := s.call input

/-! ## Histories, and the runner

Applying a decay changes no state: a key's is only logged, a Thing's goes into the history.
The runner works in a thread of its own; its check is one step here, and nothing is called in
the middle of it. The intervals it sleeps, its callback and its uptime are left out. -/

/-- `DecayRunner::Stats`, without the uptime. -/
structure DecayStats where
  totalChecks : UInt64 := 0
  lastCheckTimestamp : UInt64 := 0
  keysDecayedTotal : UInt32 := 0
  thingsDecayedTotal : UInt32 := 0
  deriving DecidableEq

/-- A scheduler with its histories, and the runner's statistics. Epochs are kept as the
numbers they are. -/
structure DecaySystem where
  scheduler : DecayScheduler := .new
  keyDecayByEpoch : OrdMap ℕ (List KeyDecayEvent) := .empty
  thingDecayHistory : List ThingDecayEvent := []
  stats : DecayStats := {}

/-- Decays that somebody was told of. -/
inductive DecayReport where
  | keys (epoch : UInt64) (events : List KeyDecayEvent)
  | things (events : List ThingDecayEvent)

namespace DecaySystem

/-! ## Checks -/

/-- `DecayScheduler::check_key_decay`: a check that picks nothing leaves the history of its
epoch. -/
def checkKeyDecay (s : DecaySystem) (state : StateManager) (clock : Reading → Time)
    (epoch : UInt64) : DecaySystem × List KeyDecayEvent :=
  let checked := s.scheduler.checkKeyDecay state clock epoch
  let history :=
    if checked.2.isEmpty then s.keyDecayByEpoch
    else s.keyDecayByEpoch.insert epoch.toNat checked.2
  ({ s with scheduler := checked.1, keyDecayByEpoch := history }, checked.2)

/-- `DecayScheduler::check_thing_decay`. -/
def checkThingDecay (s : DecaySystem) (state : StateManager) (clock : Reading → Time) :
    DecaySystem × List ThingDecayEvent :=
  let checked := s.scheduler.checkThingDecay state clock
  ({ s with scheduler := checked.1 }, checked.2)

/-- `DecayScheduler::apply_thing_decay`, of one event after the other. -/
def applyThingDecays (s : DecaySystem) (events : List ThingDecayEvent) : DecaySystem :=
  events.foldl (fun s event => { s with thingDecayHistory := s.thingDecayHistory ++ [event] }) s

/-- `DecayScheduler::process_epoch`. -/
def processEpoch (s : DecaySystem) (state : StateManager) (clock : Reading → Time)
    (epoch : UInt64) : DecaySystem × List DecayReport :=
  let keys := s.checkKeyDecay state clock epoch
  let things := keys.1.checkThingDecay state clock
  let s := things.1.applyThingDecays things.2
  let activities := s.scheduler.nodeActivities.mapValues fun _ a =>
    { a with actionsThisEpoch := .empty }
  ({ s with scheduler.nodeActivities := activities }, [.keys epoch keys.2, .things things.2])

/-- Ten minutes. -/
def epochOf (now : Time) : UInt64 := now.secs / (10 * 60)

/-- `DecayScheduler::force_decay_check`. -/
def forceDecayCheck (s : DecaySystem) (now : Time) (state : StateManager)
    (clock : Reading → Time) : DecaySystem × List DecayReport :=
  s.processEpoch state clock (epochOf now)

/-- `DecayRunner::perform_decay_check`. The actions of the nodes are left as they are. -/
def performDecayCheck (s : DecaySystem) (now : Time) (state : StateManager)
    (clock : Reading → Time) : DecaySystem × List DecayReport :=
  let keys := s.checkKeyDecay state clock (epochOf now)
  let things := keys.1.checkThingDecay state clock
  let s := things.1.applyThingDecays things.2
  ({ s with
      stats := {
        totalChecks := s.stats.totalChecks + 1
        lastCheckTimestamp := now.secs
        keysDecayedTotal := s.stats.keysDecayedTotal + UInt32.ofNat keys.2.length
        thingsDecayedTotal := s.stats.thingsDecayedTotal + UInt32.ofNat things.2.length } },
    [.keys (epochOf now) keys.2, .things things.2])

/-! ## Queries -/

/-- `DecayScheduler::get_key_decay_history`. -/
def getKeyDecayHistory (s : DecaySystem) (nodeId : NodeID) : List KeyDecayEvent :=
  s.keyDecayByEpoch.entries.flatMap fun entry => entry.2.filter (·.nodeId = nodeId)

end DecaySystem

/-! ## Runs -/

/-- The calls on a scheduler and the runner's checks. -/
inductive DecaySystemInput where
  | setKeyPolicy (keyType : Wire KeyType) (policy : DecayPolicy)
  | setThingPolicy (policy : ThingDecayPolicy)
  | recordNodeActivity (now : Time) (nodeId : NodeID)
  | recordKeyUse (now : Time) (nodeId : NodeID) (keyType : Wire KeyType)
  | recordThingAccess (state : StateManager) (now : Time) (contentHash : ContentHash)
  | cleanupInactiveNodes (now : Time) (threshold : UInt64)
  | forceDecayCheck (now : Time) (state : StateManager) (clock : Reading → Time)
  | processEpoch (state : StateManager) (clock : Reading → Time) (epoch : UInt64)
  | performDecayCheck (now : Time) (state : StateManager) (clock : Reading → Time)

/-- One call, and the decays it reports. -/
def DecaySystem.call (s : DecaySystem) : DecaySystemInput → DecaySystem × List DecayReport
  | .setKeyPolicy keyType policy =>
    ({ s with scheduler := s.scheduler.setKeyPolicy keyType policy }, [])
  | .setThingPolicy policy => ({ s with scheduler := s.scheduler.setThingPolicy policy }, [])
  | .recordNodeActivity now nodeId =>
    ({ s with scheduler := s.scheduler.recordNodeActivity now nodeId }, [])
  | .recordKeyUse now nodeId keyType =>
    ({ s with scheduler := s.scheduler.recordKeyUse now nodeId keyType }, [])
  | .recordThingAccess state now contentHash =>
    ({ s with scheduler := s.scheduler.recordThingAccess state now contentHash }, [])
  | .cleanupInactiveNodes now threshold =>
    ({ s with scheduler := s.scheduler.cleanupInactiveNodes now threshold }, [])
  | .forceDecayCheck now state clock => s.forceDecayCheck now state clock
  | .processEpoch state clock epoch => s.processEpoch state clock epoch
  | .performDecayCheck now state clock => s.performDecayCheck now state clock

end Cashew
