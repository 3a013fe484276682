import Cashew.Ledger.Index
import Cashew.Lib.HashChain
import Cashew.Lib.Machine

/-!
# The ledger

`Ledger` of `core/ledger/ledger.cpp`: an append-only event list with its id
lookup, its index and the hash of its last event. Two paths write to it:

* the `record_*` calls build an event on the local tip (`create_event`) and
  hand it to `add_event`;
* `add_external_event` first runs `verify_event_chain` on an event that came
  from elsewhere, then hands it to the same `add_event`.

`add_event` runs `verify_event`, which looks the id up, runs
`verify_event_chain` again and checks the timestamp itself. The registered
event callback observes an appended event after the ledger has been updated;
it is not part of the ledger's state. A file is loaded through `add_event` too.

A call reads the clock several times; the readings are numbered in the order in
which the source makes them.
-/

namespace Cashew

open Cashew.Lib

/-- `Ledger`. -/
structure Ledger where
  localNodeId : NodeID
  events : List LedgerEvent
  eventLookup : OrdMap Hash256 Nat
  index : LedgerIndex
  latestHash : Hash256
  eventCounter : UInt64

/-- `Ledger::current_epoch`: ten-minute epochs. -/
def currentEpoch (now : Time) : UInt64 := now.secs / 600

namespace Ledger

/-- `Ledger::Ledger`. -/
def fresh (localNodeId : NodeID) : Ledger where
  localNodeId := localNodeId
  events := []
  eventLookup := .empty
  index := .empty
  latestHash := FixedBytes.zero
  eventCounter := 0

variable (H : Bytes → Hash256)

/-- `Ledger::verify_event_chain`. The empty ledger is decided by the previous
hash alone. -/
def verifyEventChain (l : Ledger) (now : Time) (e : LedgerEvent) : Bool :=
  match l.events.getLast? with
  -- returns before the timestamp test below
  | none => e.previousHash == FixedBytes.zero
  | some last =>
    if e.previousHash ≠ last.computeHash H then false
    else if now.skewLimit < e.timestamp then false
    else true

/-- `Ledger::verify_event`. -/
def verifyEvent (l : Ledger) (clock : Clock) (e : LedgerEvent) : Bool :=
  if l.eventLookup.contains e.eventId then false
  else if !l.verifyEventChain H (clock.read 0) e then false
  else if (clock.read 1).skewLimit < e.timestamp then false
  else true

/-- The state update of `add_event`, once the event is verified. -/
def append (l : Ledger) (e : LedgerEvent) : Ledger :=
  { l with
    events := l.events ++ [e]
    eventLookup := l.eventLookup.insert e.eventId l.events.length
    index := l.index.addEvent e
    latestHash := e.computeHash H }

/-- `Ledger::add_event`: the id of the appended event, or the zero hash. -/
def addEvent (l : Ledger) (clock : Clock) (e : LedgerEvent) : Ledger × Hash256 :=
  if !l.verifyEvent H clock e then (l, FixedBytes.zero)
  else (l.append H e, e.eventId)

/-- `Ledger::add_external_event`. What `add_event` returns is not looked at. -/
def addExternalEvent (l : Ledger) (clock : Clock) (e : LedgerEvent) : Ledger × Bool :=
  if !l.verifyEventChain H (clock.read 0) e then (l, false)
  else if l.eventLookup.contains e.eventId then (l, false)
  else ((l.addEvent H (clock.after 1) e).1, true)

/-- `Ledger::create_event`: the counter advances whether or not the event is
added afterwards. -/
def createEvent (l : Ledger) (clock : Clock) (type : EventType) (data : Bytes) :
    Ledger × LedgerEvent :=
  let timestamp := (clock.read 0).secs
  let eventId :=
    H (l.localNodeId.id.bytes ++ u64Bytes l.eventCounter ++ u64Bytes timestamp)
  let digest := H (eventId.bytes ++ l.latestHash.bytes ++ data)
  ({ l with eventCounter := l.eventCounter + 1 },
   { eventId
     eventType := .listed type
     sourceNode := l.localNodeId
     timestamp
     epoch := currentEpoch (clock.read 1)
     previousHash := l.latestHash
     data
     signature := ⟨digest.bytes ++ digest.bytes, by rw [List.length_append, digest.size]⟩ })

/-- The body every `record_*` call shares: create the event, then add it. -/
def record (l : Ledger) (clock : Clock) (type : EventType) (data : Bytes) : Ledger × Hash256 :=
  let (l', e) := l.createEvent H clock type data
  l'.addEvent H (clock.after 2) e

/-- `Ledger::record_node_joined`. -/
def recordNodeJoined (l : Ledger) (clock : Clock) (nodeId : NodeID) : Ledger × Hash256 :=
  l.record H clock .nodeJoined nodeId.id.bytes

/-- `Ledger::record_node_left`. -/
def recordNodeLeft (l : Ledger) (clock : Clock) (nodeId : NodeID) : Ledger × Hash256 :=
  l.record H clock .nodeLeft nodeId.id.bytes

/-- `Ledger::record_key_issued`. -/
def recordKeyIssued (l : Ledger) (clock : Clock) (keyType : Wire KeyType) (count : UInt32)
    (method : Wire IssuanceMethod) (proof : Hash256) : Ledger × Hash256 :=
  l.record H clock .keyIssued
    (KeyIssuanceData.toBytes { keyType, count, method, proof })

/-- `Ledger::record_key_revoked`: the proof field holds the hash of the reason. -/
def recordKeyRevoked (l : Ledger) (clock : Clock) (keyType : Wire KeyType) (count : UInt32)
    (reason : Bytes) : Ledger × Hash256 :=
  l.record H clock .keyRevoked
    (KeyIssuanceData.toBytes { keyType, count, method := .listed .vouched, proof := H reason })

/-- `Ledger::record_network_created`. -/
def recordNetworkCreated (l : Ledger) (clock : Clock) (networkId : Hash256) :
    Ledger × Hash256 :=
  l.record H clock .networkCreated networkId.bytes

/-- `Ledger::record_network_member_added`. -/
def recordNetworkMemberAdded (l : Ledger) (clock : Clock) (networkId : Hash256)
    (memberNode : NodeID) (role : Bytes) : Ledger × Hash256 :=
  l.record H clock .networkMemberAdded
    (NetworkMembershipData.toBytes { networkId, memberNode, role })

/-- `Ledger::record_thing_replicated`. -/
def recordThingReplicated (l : Ledger) (clock : Clock) (contentHash : ContentHash)
    (networkId : Hash256) (hostingNode : NodeID) (sizeBytes : UInt64) : Ledger × Hash256 :=
  l.record H clock .thingReplicated
    (ThingReplicationData.toBytes { contentHash, networkId, hostingNode, sizeBytes })

/-- `Ledger::record_reputation_update`: the evidence is left zero. -/
def recordReputationUpdate (l : Ledger) (clock : Clock) (subjectNode : NodeID)
    (scoreDelta : Int32) (reason : Bytes) : Ledger × Hash256 :=
  l.record H clock .reputationUpdated
    (ReputationUpdateData.toBytes { subjectNode, scoreDelta, reason, evidence := FixedBytes.zero })

/-- `Ledger::get_event`. -/
def getEvent (l : Ledger) (eventId : Hash256) : Option LedgerEvent :=
  (l.eventLookup.find? eventId).bind fun position => l.events[position]?

/-- `Ledger::get_events_by_node`. -/
def getEventsByNode (l : Ledger) (nodeId : NodeID) : List LedgerEvent :=
  (l.index.getEventsByNode nodeId).filterMap l.getEvent

/-- `Ledger::validate_chain`: every event from the second on names its
predecessor's hash. -/
def validateChain (l : Ledger) : Bool :=
  (l.events.zip l.events.tail).all fun (prev, curr) =>
    curr.previousHash == prev.computeHash H

/-- The occurrence counts of `detect_conflicts`: `seen[event.event_id]++`. -/
def seenCounts (events : List LedgerEvent) : OrdMap Hash256 UInt32 :=
  events.foldl (fun seen e => seen.upsert e.eventId 0 (· + 1)) .empty

/-- `Ledger::detect_conflicts`: duplicate ids, then the ids at broken links. -/
def detectConflicts (l : Ledger) : List Hash256 :=
  ((seenCounts l.events).entries.filter fun (_, count) => 1 < count).map Prod.fst ++
    ((l.events.zip l.events.tail).filter fun (prev, curr) =>
      curr.previousHash ≠ prev.computeHash H).map fun (_, curr) => curr.eventId

end Ledger

/-! ## Calls and runs -/

/-- The calls that write to a ledger. -/
inductive LedgerCall where
  | recordNodeJoined (nodeId : NodeID)
  | recordNodeLeft (nodeId : NodeID)
  | recordKeyIssued (keyType : Wire KeyType) (count : UInt32) (method : Wire IssuanceMethod)
      (proof : Hash256)
  | recordKeyRevoked (keyType : Wire KeyType) (count : UInt32) (reason : Bytes)
  | recordNetworkCreated (networkId : Hash256)
  | recordNetworkMemberAdded (networkId : Hash256) (memberNode : NodeID) (role : Bytes)
  | recordThingReplicated (contentHash : ContentHash) (networkId : Hash256)
      (hostingNode : NodeID) (sizeBytes : UInt64)
  | recordReputationUpdate (subjectNode : NodeID) (scoreDelta : Int32) (reason : Bytes)
  | addExternalEvent (e : LedgerEvent)

/-- What a call returns. -/
inductive LedgerReturn where
  | eventId (id : Hash256)
  | accepted (ok : Bool)
  deriving DecidableEq

/-- One call on a ledger. -/
def Ledger.call (H : Bytes → Hash256) (l : Ledger) (clock : Clock) :
    LedgerCall → Ledger × LedgerReturn
  | .recordNodeJoined n => (l.recordNodeJoined H clock n).map id .eventId
  | .recordNodeLeft n => (l.recordNodeLeft H clock n).map id .eventId
  | .recordKeyIssued t c m p => (l.recordKeyIssued H clock t c m p).map id .eventId
  | .recordKeyRevoked t c r => (l.recordKeyRevoked H clock t c r).map id .eventId
  | .recordNetworkCreated n => (l.recordNetworkCreated H clock n).map id .eventId
  | .recordNetworkMemberAdded n m r =>
    (l.recordNetworkMemberAdded H clock n m r).map id .eventId
  | .recordThingReplicated c n h s =>
    (l.recordThingReplicated H clock c n h s).map id .eventId
  | .recordReputationUpdate s d r => (l.recordReputationUpdate H clock s d r).map id .eventId
  | .addExternalEvent e => (l.addExternalEvent H clock e).map id .accepted

/-- The ledger as a machine: any call, each with its own clock readings. -/
def ledgerMachine (H : Bytes → Hash256) : Machine Ledger (Clock × LedgerCall) LedgerReturn where
  step l input := ((l.call H input.1 input.2).1, [(l.call H input.1 input.2).2])

/-- A ledger some run of calls leads to from a freshly constructed one. -/
def Ledger.Reachable (H : Bytes → Hash256) (l : Ledger) : Prop :=
  ∃ localNodeId, (ledgerMachine H).Reaches (Ledger.fresh localNodeId) l

/-- The event node 1 records on its own fresh ledger at `sampleTime`. -/
def sampleJoin : LedgerEvent :=
  ((Ledger.fresh (sampleNode 1)).createEvent sampleHash (.still sampleTime) .nodeJoined
    (sampleNode 1).id.bytes).2

/-! ## Queries

Those of `LedgerIndex` and `Ledger` that nothing else of the model needs. The index answers
from its tables, the ledger by going through its events.

`get_key_events_by_node` answers with nothing and `get_reputation_events` with all events of
the node, as their comments say; they are left out. -/

namespace LedgerIndex

end LedgerIndex

namespace Ledger

end Ledger

/-! ## A ledger in a file

`Ledger::save_to_file` and `Ledger::load_from_file`. The file holds the number
of events and then each event's encoding behind its size; the two integers are
written as they lie in memory, little-endian on the hosts the program is built
for. Loading runs every event it can decode through `add_event` and goes on
whether or not the event was added.

`std::ifstream::read` stops at the end of the file. An event's bytes that are
missing stay zero, since the buffer is value-initialised; a count or a size that
is missing is never written, and using it then is undefined (`outOfBounds`). -/

namespace Ledger

/-- What `save_to_file` writes for one event. -/
def frame (e : LedgerEvent) : Bytes := leBytes 4 e.toBytes.length ++ e.toBytes

/-- `Ledger::save_to_file`: the contents of the file, which is opened and takes
every byte. -/
def saveToFile (l : Ledger) : Bytes := leBytes 8 l.events.length ++ l.events.flatMap frame

/-- `std::vector<uint8_t> bytes(size); file.read(bytes.data(), size)`. -/
def readBuffer (size : Nat) : Decoder Bytes := fun rest =>
  .value (rest.take size ++ List.replicate (size - rest.length) 0, rest.drop size)

/-- The reads of one round of `load_from_file`. -/
def readFrame : Decoder Bytes := do
  let size ← Decoder.le 4
  readBuffer size

variable (H : Bytes → Hash256)

/-- The loop of `load_from_file`. An event is added on two clock readings. -/
def loadEvents (l : Ledger) (clock : Clock) : Nat → Decoder Ledger
  | 0 => pure l
  | count + 1 => do
    let bytes ← readFrame
    match (LedgerEvent.fromBytes bytes).toOption with
    | some e => loadEvents (l.addEvent H clock e).1 (clock.after 2) count
    | none => loadEvents l clock count

/-- `Ledger::load_from_file`: no file, or its contents. The latest hash and the
event counter are not cleared. -/
def loadFromFile (l : Ledger) (clock : Clock) : Option Bytes → Outcome (Ledger × Bool)
  | none => .value (l, false)
  | some file =>
    (do
      let count ← Decoder.le 8
      let l ← loadEvents H { l with events := [], eventLookup := .empty, index := .empty } clock
        count
      pure (l, true)).run file

end Ledger

end Cashew
