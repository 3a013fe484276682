import Cashew.Ledger.State
import Cashew.Logic.LedgerWf

/-!
# What a recorded payload says

Five of the `record_*` calls pack their arguments into an event's data, and the state manager
and the index unpack them again. The lengths of a role and of a reason are written in 16 bits
and no call tests them: a longer string comes back cut. `payload_kept_iff` says that nothing
else is lost, and that an event whose payload comes back does to the state and to the index
just what the call's arguments say, with these as they were given.
-/

namespace Cashew.Theorems.Payloads

open Cashew Cashew.Lib

/-! ## The property -/

/-- `from_bytes` undoes `to_bytes` on the payload the call makes. -/
def ReadBack (H : Bytes → Hash256) : LedgerCall → Prop
  | .recordKeyIssued keyType count method proof =>
    let d : KeyIssuanceData := { keyType, count, method, proof }
    KeyIssuanceData.fromBytes d.toBytes = .value d
  | .recordKeyRevoked keyType count reason =>
    let d : KeyIssuanceData :=
      { keyType, count, method := .listed .vouched, proof := H reason }
    KeyIssuanceData.fromBytes d.toBytes = .value d
  | .recordNetworkMemberAdded networkId memberNode role =>
    let d : NetworkMembershipData := { networkId, memberNode, role }
    NetworkMembershipData.fromBytes d.toBytes = .value d
  | .recordThingReplicated contentHash networkId hostingNode sizeBytes =>
    let d : ThingReplicationData := { contentHash, networkId, hostingNode, sizeBytes }
    ThingReplicationData.fromBytes d.toBytes = .value d
  | .recordReputationUpdate subjectNode scoreDelta reason =>
    let d : ReputationUpdateData :=
      { subjectNode, scoreDelta, reason, evidence := FixedBytes.zero }
    ReputationUpdateData.fromBytes d.toBytes = .value d
  -- the other calls write an id or nothing of their own
  | _ => True

/-- What the call's arguments say about the state, without a payload in between: `source` is
the node that records, `timestamp` the time of the event. -/
def toldState (source : NodeID) (timestamp : UInt64) (s : StateManager) :
    LedgerCall → Option StateManager
  | .recordKeyIssued keyType count _ _ =>
    some (s.updateNode source fun n =>
      { n with keyBalances := n.keyBalances.upsert keyType 0 (· + count) })
  | .recordKeyRevoked keyType count _ =>
    some (s.updateNode source fun n =>
      { n with
        keyBalances := n.keyBalances.upsert keyType 0 fun balance =>
          if count < balance then balance - count else 0 })
  | .recordNetworkMemberAdded networkId memberNode role =>
    some ({ s with
      networks := s.networks.upsert networkId {} fun net =>
        { net with
          members := insert memberNode net.members
          memberRoles := net.memberRoles.insert memberNode role } }.updateNode memberNode
      fun n => { n with networks := insert networkId n.networks })
  | .recordThingReplicated contentHash networkId hostingNode sizeBytes =>
    some ({ s with
      things := s.things.upsert contentHash {} fun t =>
        { contentHash
          createdAt := timestamp
          isAvailable := true
          hosts := insert hostingNode t.hosts
          networks := insert networkId t.networks
          totalSizeBytes := sizeBytes
          replicationCount := UInt32.ofNat (insert hostingNode t.hosts).card } }.updateNode
      hostingNode fun n => { n with hostedThings := insert contentHash n.hostedThings })
  | .recordReputationUpdate subjectNode scoreDelta _ =>
    some (s.updateNode subjectNode fun n =>
      { n with reputationScore := n.reputationScore + scoreDelta })
  | _ => none

/-- What they say about the index's tables for one type of event. -/
def toldIndex (source : NodeID) (eventId : Hash256) (ix : LedgerIndex) :
    LedgerCall → Option LedgerIndex
  | .recordKeyIssued keyType count _ _ =>
    some { ix with
      keyBalances := ix.keyBalances.upsert (toLex (source, keyType)) 0 (· + count) }
  -- the index has no table of revocations or of reputation
  | .recordKeyRevoked .. => some ix
  | .recordReputationUpdate .. => some ix
  | .recordNetworkMemberAdded networkId memberNode _ =>
    some { ix with
      eventsByNetwork := ix.eventsByNetwork.upsert networkId [] (· ++ [eventId])
      networkMembers := ix.networkMembers.upsert networkId ∅ (insert memberNode) }
  | .recordThingReplicated contentHash _ hostingNode _ =>
    some { ix with
      eventsByThing := ix.eventsByThing.upsert contentHash [] (· ++ [eventId])
      thingHosts := ix.thingHosts.upsert contentHash ∅ (insert hostingNode) }
  | _ => none

/-- The payload is read back, and the event the call appends is understood as the call was
meant, by every state manager and every index. -/
structure Kept (H : Bytes → Hash256) (l : Ledger) (clock : Clock) (c : LedgerCall) : Prop where
  readBack : ReadBack H c
  state : ∀ e, (l.call H clock c).1.events = l.events ++ [e] → ∀ s told,
    toldState l.localNodeId e.timestamp s c = some told → s.applyEvent e = told
  index : ∀ e, (l.call H clock c).1.events = l.events ++ [e] → ∀ ix told,
    toldIndex l.localNodeId e.eventId ix c = some told → ix.addTyped e = told

/-- The role or the reason has at most 65535 bytes. -/
def Fits : LedgerCall → Prop
  | .recordNetworkMemberAdded _ _ role => role.length < 65536
  | .recordReputationUpdate _ _ reason => reason.length < 65536
  | _ => True

/-! ## Reading back -/

theorem readBack_iff (H : Bytes → Hash256) (c : LedgerCall) : ReadBack H c ↔ Fits c := by
  cases c with
  | recordKeyIssued keyType count method proof =>
    exact iff_of_true (KeyIssuanceData.fromBytes_toBytes _) trivial
  | recordKeyRevoked keyType count reason =>
    exact iff_of_true (KeyIssuanceData.fromBytes_toBytes _) trivial
  | recordNetworkMemberAdded networkId memberNode role =>
    exact NetworkMembershipData.fromBytes_toBytes_iff _
  | recordThingReplicated contentHash networkId hostingNode sizeBytes =>
    exact iff_of_true (ThingReplicationData.fromBytes_toBytes _) trivial
  | recordReputationUpdate subjectNode scoreDelta reason =>
    exact ⟨fun hread => ReputationUpdateData.reason_lt_of_fromBytes hread,
      fun hfits => ReputationUpdateData.fromBytes_toBytes hfits⟩
  | recordNodeJoined => exact Iff.rfl
  | recordNodeLeft => exact Iff.rfl
  | recordNetworkCreated => exact Iff.rfl
  | addExternalEvent => exact Iff.rfl

/-! ## Understanding -/

section Understanding

variable {H : Bytes → Hash256} {l : Ledger} {clock : Clock} {e : LedgerEvent}

/-- A payload that is read back is what the state manager sees. -/
theorem state_of_readBack {c : LedgerCall} (hread : ReadBack H c)
    (h : (l.call H clock c).1.events = l.events ++ [e]) {s told : StateManager}
    (htold : toldState l.localNodeId e.timestamp s c = some told) : s.applyEvent e = told := by
  cases c with
  | recordKeyIssued keyType count method proof =>
    cases Ledger.record_eq h
    cases htold
    simp only [StateManager.applyEvent, StateManager.applyKeyIssued, Ledger.createEvent]
    rw [show KeyIssuanceData.fromBytes _ = _ from hread]
    rfl
  | recordKeyRevoked keyType count reason =>
    cases Ledger.record_eq h
    cases htold
    simp only [StateManager.applyEvent, StateManager.applyKeyRevoked, Ledger.createEvent]
    rw [show KeyIssuanceData.fromBytes _ = _ from hread]
    rfl
  | recordNetworkMemberAdded networkId memberNode role =>
    cases Ledger.record_eq h
    cases htold
    simp only [StateManager.applyEvent, StateManager.applyNetworkMemberAdded, Ledger.createEvent]
    rw [show NetworkMembershipData.fromBytes _ = _ from hread]
    rfl
  | recordThingReplicated contentHash networkId hostingNode sizeBytes =>
    cases Ledger.record_eq h
    cases htold
    simp only [StateManager.applyEvent, StateManager.applyThingReplicated, Ledger.createEvent]
    rw [show ThingReplicationData.fromBytes _ = _ from hread]
    rfl
  | recordReputationUpdate subjectNode scoreDelta reason =>
    cases Ledger.record_eq h
    cases htold
    simp only [StateManager.applyEvent, StateManager.applyReputationUpdated, Ledger.createEvent]
    rw [show ReputationUpdateData.fromBytes _ = _ from hread]
    rfl
  -- nothing is told of the calls that carry no payload of this kind
  | recordNodeJoined => cases htold
  | recordNodeLeft => cases htold
  | recordNetworkCreated => cases htold
  | addExternalEvent => cases htold

/-- And what the index sees. -/
theorem index_of_readBack {c : LedgerCall} (hread : ReadBack H c)
    (h : (l.call H clock c).1.events = l.events ++ [e]) {ix told : LedgerIndex}
    (htold : toldIndex l.localNodeId e.eventId ix c = some told) : ix.addTyped e = told := by
  cases c with
  | recordKeyIssued keyType count method proof =>
    cases Ledger.record_eq h
    cases htold
    simp only [LedgerIndex.addTyped, Ledger.createEvent]
    rw [show KeyIssuanceData.fromBytes _ = _ from hread]
    rfl
  | recordKeyRevoked keyType count reason =>
    cases Ledger.record_eq h
    cases htold
    rfl
  | recordNetworkMemberAdded networkId memberNode role =>
    cases Ledger.record_eq h
    cases htold
    simp only [LedgerIndex.addTyped, Ledger.createEvent]
    rw [show NetworkMembershipData.fromBytes _ = _ from hread]
    rfl
  | recordThingReplicated contentHash networkId hostingNode sizeBytes =>
    cases Ledger.record_eq h
    cases htold
    simp only [LedgerIndex.addTyped, Ledger.createEvent]
    rw [show ThingReplicationData.fromBytes _ = _ from hread]
    rfl
  | recordReputationUpdate subjectNode scoreDelta reason =>
    cases Ledger.record_eq h
    cases htold
    rfl
  | recordNodeJoined => cases htold
  | recordNodeLeft => cases htold
  | recordNetworkCreated => cases htold
  | addExternalEvent => cases htold

end Understanding

/-- **Payloads.** For every ledger, clock and call: the payload is read back and the recorded
event understood as it was meant if and only if a role or a reason the call was given has at
most 65535 bytes. -/
theorem payload_kept_iff (H : Bytes → Hash256) (l : Ledger) (clock : Clock) (c : LedgerCall) :
    Kept H l clock c ↔ Fits c := by
  constructor
  · exact fun hkept => (readBack_iff H c).mp hkept.readBack
  · intro hfits
    have hread := (readBack_iff H c).mpr hfits
    exact ⟨hread, fun e happended s told htold => state_of_readBack hread happended htold,
      fun e happended ix told htold => index_of_readBack hread happended htold⟩

/-- A role whose length is a multiple of 65536 is written with length zero. -/
theorem role_lost {networkId : Hash256} {memberNode : NodeID} {role : Bytes}
    (h : role.length % 65536 = 0) :
    NetworkMembershipData.fromBytes (NetworkMembershipData.toBytes ⟨networkId, memberNode, role⟩) =
      .value ⟨networkId, memberNode, []⟩ := by
  rw [NetworkMembershipData.fromBytes_toBytes_eq]
  show Outcome.value (NetworkMembershipData.mk _ _ (role.take (role.length % 65536))) = _
  rw [h, List.take_zero]

/-- A string of 65536 times the letter `a`. -/
def longText : Bytes := List.replicate 65536 97

/-- As a role it comes back empty; as a reason it does not come back either. -/
theorem longText_lost :
    NetworkMembershipData.fromBytes
        (NetworkMembershipData.toBytes ⟨sampleHash [1], sampleNode 2, longText⟩) =
      .value ⟨sampleHash [1], sampleNode 2, []⟩ ∧
    (¬ Kept sampleHash (Ledger.fresh (sampleNode 1)) (.still sampleTime)
      (.recordNetworkMemberAdded (sampleHash [1]) (sampleNode 2) longText)) ∧
    ¬ Kept sampleHash (Ledger.fresh (sampleNode 1)) (.still sampleTime)
      (.recordReputationUpdate (sampleNode 2) (-5) longText) := by
  have hlen : longText.length = 65536 := List.length_replicate
  have hlong : ¬ longText.length < 65536 := by
    rw [hlen]
    exact Nat.lt_irrefl _
  refine ⟨?_, ?_, ?_⟩
  · exact role_lost (by rw [hlen])
  · exact fun hkept => hlong ((readBack_iff _ _).mp hkept.readBack)
  · exact fun hkept => hlong ((readBack_iff _ _).mp hkept.readBack)

end Cashew.Theorems.Payloads
