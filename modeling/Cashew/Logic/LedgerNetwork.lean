import Cashew.Lib.Forks
import Cashew.Lib.Nodes
import Cashew.Logic.Bridge
import Cashew.Theorems.SyncCodec

/-!
# A network of ledgers

Any number of nodes, each with a ledger behind a `LedgerGossipBridge`, stepping in
any order. A node is named by an index; `ids` says under which id it runs.

Nothing is assumed of what arrives in `ledgerNetwork`: a step hands a node any
message at all. `Honest` singles out the runs in which the nodes talk to each other
only — a message that is handled carries a payload some node has sent, a broadcast
is of an event the node holds, and the ledger is written by `record_*` and by the
bridge alone. What one such step does is `Faithful.step_cases`, and `Faithful` is
the invariant it keeps.
-/

namespace Cashew

open Cashew.Lib

variable {ν : Type}

/-- The nodes' bridges side by side. -/
def ledgerNetwork [DecidableEq ν] (H : Bytes → Hash256) :
    Machine (ν → LedgerGossipBridge) (ν × Clock × BridgeInput) (ν × GossipSend) :=
  Machine.nodes (bridgeMachine H)

/-- Every node with a fresh ledger under its id. -/
def freshNetwork (ids : ν → NodeID) : ν → LedgerGossipBridge :=
  fun n => LedgerGossipBridge.fresh (ids n)

/-- What is handed to the gossip protocol. -/
def GossipSend.message : GossipSend → GossipMessage
  | .broadcast m => m
  | .direct _ m => m

/-- The bridges, and what has been sent so far by whom. -/
abbrev LedgerNet (ν : Type) : Type := (ν → LedgerGossipBridge) × List (ν × GossipSend)

/-- The call records an event of the node itself. -/
def LedgerCall.IsRecord : LedgerCall → Prop
  | .addExternalEvent _ => False
  | _ => True

/-- An input of a network whose nodes talk to each other only. Who a message seems to
come from, and the rest of its envelope, may be anything. -/
def Honest (net : LedgerNet ν) (input : ν × Clock × BridgeInput) : Prop :=
  input.2.1.NonDecreasing ∧
    match input.2.2 with
    | .ledgerCall c => c.IsRecord
    | .broadcastEvent e => e ∈ (net.1 input.1).ledger.events ∧ e.toBytes.length < 2 ^ 32
    | .handleGossipMessage _ message =>
      ∃ sent ∈ net.2, sent.2.message.payload = message.payload
    | .handleSyncResponse _ _ => False
    | _ => True

/-! ## One node -/

namespace Ledger

variable {H : Bytes → Hash256}

/-- A recorded event is one of the node's own. -/
theorem record_event {l : Ledger} (clock : Clock) {c : LedgerCall} (hc : c.IsRecord) :
    (l.call H clock c).1.events = l.events ∨
      ∃ e, e.sourceNode = l.localNodeId ∧ (l.call H clock c).1.events = l.events ++ [e] := by
  have hrecord : ∀ (type : EventType) (data : Bytes),
      (l.record H clock type data).1.events = l.events ∨
        ∃ e, e.sourceNode = l.localNodeId ∧
          (l.record H clock type data).1.events = l.events ++ [e] := by
    intro type data
    obtain ⟨n, h | ⟨e, _, h⟩⟩ := record_cases (H := H) l clock type data
    · exact .inl (by rw [h])
    · have hevents : (l.record H clock type data).1.events = l.events ++ [e] := by
        rw [h]
        rfl
      exact .inr ⟨e, by rw [record_eq hevents]; rfl, hevents⟩
  cases c with
  | addExternalEvent e => exact hc.elim
  | recordNodeJoined => exact hrecord _ _
  | recordNodeLeft => exact hrecord _ _
  | recordKeyIssued => exact hrecord _ _
  | recordKeyRevoked => exact hrecord _ _
  | recordNetworkCreated => exact hrecord _ _
  | recordNetworkMemberAdded => exact hrecord _ _
  | recordThingReplicated => exact hrecord _ _
  | recordReputationUpdate => exact hrecord _ _

end Ledger

namespace LedgerGossipBridge

variable {H : Bytes → Hash256}

/-- The payload is a message without events, or a broadcast of one event out of the
list. -/
def Carries (events : List LedgerEvent) (payload : Bytes) : Prop :=
  ∃ m : LedgerSyncMessage, payload = m.serialize ∧
    (m.events = [] ∨
      ∃ e ∈ events, e.toBytes.length < 2 ^ 32 ∧ m.events = [e] ∧
        m.type = .listed .eventBroadcast)

theorem Carries.mono {events events' : List LedgerEvent} {payload : Bytes}
    (h : Carries events payload) (hsub : events ⊆ events') : Carries events' payload := by
  obtain ⟨m, hpayload, hnil | ⟨e, he, hrest⟩⟩ := h
  · exact ⟨m, hpayload, .inl hnil⟩
  · exact ⟨m, hpayload, .inr ⟨e, hsub he, hrest⟩⟩

/-- Such a payload is turned away, or read as the broadcast of one event. -/
theorem Carries.deserialize {events : List LedgerEvent} {payload : Bytes}
    (h : Carries events payload) :
    LedgerSyncMessage.deserialize payload = .rejected ∨
      ∃ e ∈ events, ∃ m, LedgerSyncMessage.deserialize payload = .value m ∧ m.events = [e] ∧
        m.type = .listed .eventBroadcast := by
  obtain ⟨m, rfl, hnil | ⟨e, he, hsize, hevents, htype⟩⟩ := h
  · exact .inl (Theorems.SyncCodec.deserialize_of_nil hnil)
  · have hround : Theorems.SyncCodec.RoundTrips m := by
      refine (Theorems.SyncCodec.roundTrips_iff m ?_).mpr ?_
      · intro e' he'
        rw [hevents, List.mem_singleton] at he'
        rw [he']
        exact hsize
      · rw [hevents]
        simp
    exact .inr ⟨e, he, m, hround, hevents, htype⟩

/-- **One message of such a payload** leaves the bridge alone or has it take in the
one event, and is not answered. -/
theorem handleGossipMessage_of_carries {b : LedgerGossipBridge} {clock : Clock}
    (hclock : clock.NonDecreasing) (source : NodeID) {message : GossipMessage}
    {events : List LedgerEvent} (h : Carries events message.payload) :
    b.handleGossipMessage H clock source message = (b, []) ∨
      ∃ e ∈ events, Ledger.Accepts H b.ledger e ∧
        b.handleGossipMessage H clock source message = (b.absorb H e, []) := by
  unfold handleGossipMessage
  rcases h.deserialize with hrejected | ⟨e, he, m, hvalue, hevents, htype⟩
  · rw [hrejected]
    exact .inl rfl
  · rw [hvalue]
    simp only [Outcome.toOption, htype, hevents, processReceivedEvents]
    rcases processReceivedEvent_cases (H := H) b hclock e with hsame | ⟨haccepts, hstep⟩
    · exact .inl (by rw [hsame])
    · exact .inr ⟨e, he, haccepts, by rw [hstep]⟩

/-- With no peer on record nobody is ahead and nothing mismatches. -/
theorem syncWithNetwork_of_empty {b : LedgerGossipBridge} (h : b.peerSyncStates = .empty)
    (clock : Clock) (draw : UInt32) : b.syncWithNetwork H clock draw = (b, []) := by
  have hmax : ∀ current, b.maxPeerEpoch current = current := by
    intro current
    unfold maxPeerEpoch
    rw [h]
    rfl
  unfold syncWithNetwork
  simp [hmax]

theorem validateConsistency_of_empty {b : LedgerGossipBridge} (h : b.peerSyncStates = .empty)
    (clock : Clock) : b.validateConsistency H clock = (b, []) := by
  unfold validateConsistency
  rw [h]
  rfl

theorem cleanupSyncState_of_empty {b : LedgerGossipBridge} (h : b.peerSyncStates = .empty)
    (now : Time) : b.cleanupSyncState now = b := by
  unfold cleanupSyncState
  rw [h]
  cases b
  cases h
  rfl

end LedgerGossipBridge

/-! ## The network -/

/-- The invariant of the honest runs: every node keeps its own ledger, knows nothing
of its peers' progress, and has sent nothing but messages without events and
broadcasts of single events it holds; and an event is in the ledger of the node it
names as its source wherever it is in any. -/
structure Faithful (ids : ν → NodeID) (net : LedgerNet ν) : Prop where
  owner : ∀ n, (net.1 n).ledger.localNodeId = ids n
  quiet : ∀ n, (net.1 n).peerSyncStates = .empty
  sent : ∀ send ∈ net.2, LedgerGossipBridge.Carries (net.1 send.1).ledger.events
    send.2.message.payload
  traced : ∀ n, ∀ e ∈ (net.1 n).ledger.events,
    ∃ n', ids n' = e.sourceNode ∧ e ∈ (net.1 n').ledger.events

namespace Faithful

variable {H : Bytes → Hash256} {ids : ν → NodeID} {net : LedgerNet ν}

theorem fresh (ids : ν → NodeID) : Faithful ids (freshNetwork ids, []) where
  owner _ := rfl
  quiet _ := rfl
  sent _ h := nomatch h
  traced _ _ h := nomatch h

/-- What one input does to the node it is for: the ledger stays or gains an event,
which is the node's own if the node recorded it and otherwise came in a message. -/
structure Moves (net : LedgerNet ν) (n : ν) (input : BridgeInput) (b' : LedgerGossipBridge)
    (sends : List GossipSend) : Prop where
  owner : b'.ledger.localNodeId = (net.1 n).ledger.localNodeId
  quiet : b'.peerSyncStates = .empty
  sends : ∀ send ∈ sends, LedgerGossipBridge.Carries b'.ledger.events send.message.payload
  events : b'.ledger.events = (net.1 n).ledger.events ∨
    ∃ e, b'.ledger.events = (net.1 n).ledger.events ++ [e] ∧
      ((∃ c, input = .ledgerCall c) ∧ e.sourceNode = (net.1 n).ledger.localNodeId ∨
        (∃ source message, input = .handleGossipMessage source message) ∧
          ∃ n', e ∈ (net.1 n').ledger.events)

/-- An input that leaves the bridge as it is and sends messages without events. -/
theorem moves_of_same (h : Faithful ids net) {n : ν} {input : BridgeInput}
    {b' : LedgerGossipBridge} {sends : List GossipSend}
    (hledger : b'.ledger = (net.1 n).ledger)
    (hpeers : b'.peerSyncStates = (net.1 n).peerSyncStates)
    (hsends : ∀ send ∈ sends, LedgerGossipBridge.Carries (net.1 n).ledger.events
      send.message.payload) : Moves net n input b' sends where
  owner := by rw [hledger]
  quiet := by rw [hpeers, h.quiet n]
  sends := by
    rw [hledger]
    exact hsends
  events := .inl (by rw [hledger])

/-- **One step of an honest run.** -/
theorem step_cases (h : Faithful ids net) {n : ν} {clock : Clock} {input : BridgeInput}
    (hhonest : Honest net (n, clock, input)) :
    Moves net n input ((net.1 n).call H clock input).1 ((net.1 n).call H clock input).2 := by
  obtain ⟨hclock, hinput⟩ := hhonest
  cases input with
  | ledgerCall c =>
    refine ⟨Ledger.call_localNodeId (H := H) _ clock c, h.quiet n, (fun _ hmem => nomatch hmem), ?_⟩
    obtain hsame | ⟨e, hsource, hevents⟩ :=
      Ledger.record_event (H := H) (l := (net.1 n).ledger) clock hinput
    · exact .inl hsame
    · exact .inr ⟨e, hevents, .inl ⟨⟨c, rfl⟩, hsource⟩⟩
  -- what is sent is a message in flight, and no ledger changes
  | broadcastEvent e =>
    refine h.moves_of_same rfl rfl ?_
    intro send hsend
    rw [List.mem_singleton.mp hsend]
    exact ⟨_, rfl, .inr ⟨e, hinput.1, hinput.2, rfl, rfl⟩⟩
  | broadcastCheckpoint epoch =>
    refine h.moves_of_same rfl rfl ?_
    intro send hsend
    rw [List.mem_singleton.mp hsend]
    exact ⟨_, rfl, .inl rfl⟩
  | requestSync peerId s t =>
    refine h.moves_of_same rfl rfl ?_
    intro send hsend
    rw [List.mem_singleton.mp hsend]
    exact ⟨_, rfl, .inl rfl⟩
  -- the payload was sent before, so it is an event of some ledger or no event at all
  | handleGossipMessage source message =>
    obtain ⟨sent, hsent, hpayload⟩ := hinput
    have hcarries := hpayload ▸ h.sent sent hsent
    show Moves net n _ ((net.1 n).handleGossipMessage H clock source message).1
      ((net.1 n).handleGossipMessage H clock source message).2
    rcases LedgerGossipBridge.handleGossipMessage_of_carries (H := H) (b := net.1 n) hclock source
      hcarries with hsame | ⟨e, he, _, hstep⟩
    · rw [hsame]
      exact h.moves_of_same rfl rfl fun _ hmem => nomatch hmem
    · rw [hstep]
      exact ⟨rfl, h.quiet n, (fun _ hmem => nomatch hmem),
        .inr ⟨e, rfl, .inr ⟨⟨source, message, rfl⟩, sent.1, he⟩⟩⟩
  | handleSyncResponse peerId events => exact hinput.elim
  -- no peer ever reported a checkpoint, so nothing is requested here or below
  | syncWithNetwork draw =>
    show Moves net n _ ((net.1 n).syncWithNetwork H clock draw).1
      ((net.1 n).syncWithNetwork H clock draw).2
    rw [LedgerGossipBridge.syncWithNetwork_of_empty (h.quiet n)]
    exact h.moves_of_same rfl rfl fun _ hmem => nomatch hmem
  | validateConsistency =>
    show Moves net n _ ((net.1 n).validateConsistency H clock).1
      ((net.1 n).validateConsistency H clock).2
    rw [LedgerGossipBridge.validateConsistency_of_empty (h.quiet n)]
    exact h.moves_of_same rfl rfl fun _ hmem => nomatch hmem
  | cleanupSyncState =>
    show Moves net n _ ((net.1 n).cleanupSyncState (clock.read 0)) []
    rw [LedgerGossipBridge.cleanupSyncState_of_empty (h.quiet n)]
    exact h.moves_of_same rfl rfl fun _ hmem => nomatch hmem

theorem Moves.subset {n : ν} {input : BridgeInput} {b' : LedgerGossipBridge}
    {sends : List GossipSend} (h : Moves net n input b' sends) :
    (net.1 n).ledger.events ⊆ b'.ledger.events := by
  rcases h.events with hsame | ⟨e, hevents, _⟩
  · exact hsame ▸ List.Subset.refl _
  · exact hevents ▸ List.subset_append_left _ _

variable [DecidableEq ν]

/-- **The invariant is kept** by a node that moves so. -/
theorem update (h : Faithful ids net) {n : ν} {input : BridgeInput} {b' : LedgerGossipBridge}
    {sends : List GossipSend} (hmoves : Moves net n input b' sends) :
    Faithful ids (Function.update net.1 n b', net.2 ++ sends.map fun send => (n, send)) := by
  have hsubset : ∀ n', (net.1 n').ledger.events ⊆
      (Function.update net.1 n b' n').ledger.events := by
    intro n'
    by_cases hn : n' = n
    · subst hn
      rw [Function.update_self]
      exact hmoves.subset
    · rw [Function.update_of_ne hn]
      exact List.Subset.refl _
  -- an event that was in some ledger is still with its source
  have hkept : ∀ n' e, e ∈ (net.1 n').ledger.events →
      ∃ s, ids s = e.sourceNode ∧ e ∈ (Function.update net.1 n b' s).ledger.events := by
    intro n' e he
    obtain ⟨s, hs, hes⟩ := h.traced n' e he
    exact ⟨s, hs, hsubset s hes⟩
  refine ⟨?_, ?_, ?_, ?_⟩
  · intro n'
    show (Function.update net.1 n b' n').ledger.localNodeId = ids n'
    by_cases hn : n' = n
    · subst hn
      rw [Function.update_self, hmoves.owner, h.owner]
    · rw [Function.update_of_ne hn, h.owner]
  · intro n'
    show (Function.update net.1 n b' n').peerSyncStates = .empty
    by_cases hn : n' = n
    · subst hn
      rw [Function.update_self, hmoves.quiet]
    · rw [Function.update_of_ne hn, h.quiet]
  · intro send hsend
    rcases List.mem_append.mp hsend with hold | hnew
    · exact (h.sent send hold).mono (hsubset send.1)
    · obtain ⟨fresh, hfresh, rfl⟩ := List.mem_map.mp hnew
      show LedgerGossipBridge.Carries (Function.update net.1 n b' n).ledger.events _
      rw [Function.update_self]
      exact hmoves.sends fresh hfresh
  · intro n' e he
    replace he : e ∈ (Function.update net.1 n b' n').ledger.events := he
    by_cases hn : n' = n
    · subst hn
      rw [Function.update_self] at he
      rcases hmoves.events with hsame | ⟨new, hevents, horigin⟩
      · rw [hsame] at he
        exact hkept n' e he
      · rw [hevents] at he
        rcases List.mem_append.mp he with hold | hnew
        · exact hkept n' e hold
        · rw [List.mem_singleton.mp hnew]
          rcases horigin with ⟨_, hown⟩ | ⟨_, from', hfrom⟩
          · -- the node's own event
            refine ⟨n', by rw [hown, h.owner], ?_⟩
            show new ∈ (Function.update net.1 n' b' n').ledger.events
            rw [Function.update_self, hevents]
            exact List.mem_append_right _ (List.mem_singleton_self new)
          · exact hkept from' new hfrom
    · rw [Function.update_of_ne hn] at he
      exact hkept n' e he

/-- One honest step keeps the invariant. -/
theorem step (h : Faithful ids net) (input : ν × Clock × BridgeInput)
    (hhonest : Honest net input) : Faithful ids ((ledgerNetwork H).logged.step net input).1 :=
  h.update (h.step_cases (H := H) hhonest)

/-- Every honest run keeps it. -/
theorem run (H : Bytes → Hash256) (ids : ν → NodeID) {inputs : List (ν × Clock × BridgeInput)}
    (hhonest : (ledgerNetwork H).logged.StepsMeet Honest (freshNetwork ids, []) inputs) :
    Faithful ids ((ledgerNetwork H).logged.run (freshNetwork ids, []) inputs).1 :=
  hhonest.invariant (fun _ input h hmeet => h.step input hmeet) (fresh ids)

end Faithful

end Cashew
