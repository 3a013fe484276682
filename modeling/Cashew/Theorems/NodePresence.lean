import Cashew.Ledger.State
import Cashew.Logic.LedgerWf

/-!
# Who joins and who leaves

`record_node_joined` and `record_node_left` write the id they are given into the event's data,
and the index and the state manager then go by the event's source, which is the node that keeps
the ledger. So both calls are about the local node, whatever id they are given:
`presence_iff` says that they keep their promise for the local node and for no other.
-/

namespace Cashew.Theorems.NodePresence

open Cashew Cashew.Lib

/-! ## The promise -/

/-- A call appended an event. -/
def Recorded (l l' : Ledger) : Prop := ∃ e, l'.events = l.events ++ [e]

/-- What `rebuild_state` leaves for a ledger. -/
def state (l : Ledger) : StateManager := StateManager.rebuildState l.events

/-- What the state says about one node, with the networks that list it. -/
def SameNode (s s' : StateManager) (n : NodeID) : Prop :=
  s'.getNodeState n = s.getNodeState n ∧
    ∀ networkId, s'.isNodeInNetwork n networkId = s.isNodeInNetwork n networkId

/-- `x` has joined, and the step from `l` to `l'` changed nobody else. -/
structure JoinShown (l l' : Ledger) (x : NodeID) : Prop where
  active : (state l').isNodeActive x = true
  joinTime : l'.index.getNodeJoinTime x ≠ none
  others : ∀ n, n ≠ x → SameNode (state l) (state l') n

/-- `x` is gone, and the step from `l` to `l'` changed nobody else. -/
structure LeaveShown (l l' : Ledger) (x : NodeID) : Prop where
  inactive : (state l').isNodeActive x = false
  others : ∀ n, n ≠ x → SameNode (state l) (state l') n

variable (H : Bytes → Hash256)

/-- From `l` on: a join of `x` that is recorded is seen, and so is every recorded leave of `x`
after it, whatever calls come in between. -/
def Promise (l : Ledger) (x : NodeID) : Prop :=
  ∀ clock joined, joined = (l.recordNodeJoined H clock x).1 → Recorded l joined →
    JoinShown l joined x ∧
    ∀ later, (ledgerMachine H).Reaches joined later → ∀ clock' left,
      left = (later.recordNodeLeft H clock' x).1 → Recorded later left → LeaveShown later left x

/-- The ledger can record a join of `x` and then a leave: the ids of both events are new, and
the clock readings are in order. -/
def Recordable (l : Ledger) (x : NodeID) : Prop :=
  ∃ clock clock', Recorded l (l.recordNodeJoined H clock x).1 ∧
    Recorded (l.recordNodeJoined H clock x).1
      ((l.recordNodeJoined H clock x).1.recordNodeLeft H clock' x).1

variable {H}

/-! ## What the two calls do -/

section Calls

variable {l : Ledger} {clock : Clock} {x : NodeID}

/-- A call after which there are more events has recorded its own. -/
theorem recorded_of_length {type : EventType} {data : Bytes}
    (h : (l.record H clock type data).1.events.length ≠ l.events.length) :
    Recorded l (l.record H clock type data).1 := by
  obtain ⟨n, hn | ⟨e, _, hn⟩⟩ := Ledger.record_cases (H := H) l clock type data
  · rw [hn] at h
    exact absurd rfl h
  · exact ⟨e, congrArg Ledger.events hn⟩

/-- The ledger after a recorded call: the event is the one the call made. -/
theorem state_record {type : EventType} {data : Bytes}
    (h : Recorded l (l.record H clock type data).1) :
    state (l.record H clock type data).1 =
      (state l).applyEvent (l.createEvent H clock type data).2 := by
  obtain ⟨e, he⟩ := h
  unfold state
  rw [he, StateManager.rebuildState_snoc, Ledger.record_eq he]

/-- The local node joins, whoever was named. -/
theorem state_joined (h : Recorded l (l.recordNodeJoined H clock x).1) :
    state (l.recordNodeJoined H clock x).1 =
      { state l with
        nodes := (state l).nodes.insert l.localNodeId
          { nodeId := l.localNodeId, joinedAt := (clock.read 0).secs, isActive := true } } :=
  state_record h

/-- The local node leaves, whoever was named. -/
theorem state_left (h : Recorded l (l.recordNodeLeft H clock x).1) :
    state (l.recordNodeLeft H clock x).1 =
      { state l with
        nodes := (state l).nodes.modify l.localNodeId fun n => { n with isActive := false } } :=
  state_record h

/-- The index dates the local node. -/
theorem joinTime_joined (hwf : Ledger.Wf H l) (h : Recorded l (l.recordNodeJoined H clock x).1) :
    (l.recordNodeJoined H clock x).1.index.getNodeJoinTime l.localNodeId =
      some (clock.read 0).secs := by
  obtain ⟨e, he⟩ := h
  have hwf' : Ledger.Wf H (l.recordNodeJoined H clock x).1 :=
    Ledger.call_wf l clock (.recordNodeJoined x) hwf
  rw [hwf'.index, he, LedgerIndex.rebuildFromEvents_snoc, Ledger.record_eq he]
  exact (OrdMap.find?_insert _ _ _ _).trans (if_pos rfl)

end Calls

/-! ## The local node -/

/-- A state in which only the record of one node may differ. -/
theorem sameNode_of_nodes {s s' : StateManager} {n : NodeID}
    (hnode : s'.nodes.find? n = s.nodes.find? n) (hnetworks : s'.networks = s.networks) :
    SameNode s s' n := by
  refine ⟨hnode, fun networkId => ?_⟩
  unfold StateManager.isNodeInNetwork
  rw [hnetworks]

theorem joinShown_local {l : Ledger} (hwf : Ledger.Wf H l) {clock : Clock}
    (h : Recorded l (l.recordNodeJoined H clock l.localNodeId).1) :
    JoinShown l (l.recordNodeJoined H clock l.localNodeId).1 l.localNodeId where
  active := by
    rw [state_joined h, StateManager.isNodeActive, OrdMap.find?_insert, if_pos rfl]
    rfl
  joinTime := by
    rw [joinTime_joined hwf h]
    exact Option.some_ne_none _
  others := by
    intro n hn
    rw [state_joined h]
    refine sameNode_of_nodes ?_ rfl
    rw [OrdMap.find?_insert, if_neg (Ne.symm hn)]

theorem leaveShown_local {l : Ledger} {clock : Clock}
    (h : Recorded l (l.recordNodeLeft H clock l.localNodeId).1) :
    LeaveShown l (l.recordNodeLeft H clock l.localNodeId).1 l.localNodeId where
  inactive := by
    rw [state_left h, StateManager.isNodeActive, OrdMap.find?_modify, if_pos rfl]
    cases (state l).nodes.find? l.localNodeId with
    | none => rfl
    | some n => rfl
  others := by
    intro n hn
    rw [state_left h]
    refine sameNode_of_nodes ?_ rfl
    rw [OrdMap.find?_modify, if_neg (Ne.symm hn)]

theorem promise_local {l : Ledger} (hwf : Ledger.Wf H l) : Promise H l l.localNodeId := by
  rintro clock joined rfl hjoined
  refine ⟨joinShown_local hwf hjoined, ?_⟩
  rintro later ⟨calls, hlater⟩ clock' left rfl hleft
  -- the ledger is still the same node's
  have howner : l.localNodeId = later.localNodeId := by
    rw [← hlater, Ledger.run_localNodeId]
    exact (Ledger.call_localNodeId l clock (.recordNodeJoined l.localNodeId)).symm
  rw [howner] at hleft ⊢
  exact leaveShown_local hleft

/-! ## Any other node -/

/-- A leave of somebody else leaves them active. -/
theorem active_after_left {l : Ledger} {clock : Clock} {x : NodeID} (hx : x ≠ l.localNodeId)
    (h : Recorded l (l.recordNodeLeft H clock x).1) :
    (state (l.recordNodeLeft H clock x).1).isNodeActive x = (state l).isNodeActive x := by
  rw [state_left h, StateManager.isNodeActive, OrdMap.find?_modify, if_neg (Ne.symm hx)]
  rfl

theorem not_promise_other {l : Ledger} {x : NodeID} (hx : x ≠ l.localNodeId)
    (hrecordable : Recordable H l x) : ¬ Promise H l x := by
  intro hpromise
  obtain ⟨clock, clock', hjoined, hleft⟩ := hrecordable
  obtain ⟨hshown, hlater⟩ := hpromise clock _ rfl hjoined
  have hgone := (hlater (l.recordNodeJoined H clock x).1 ⟨[], rfl⟩ clock' _ rfl hleft).inactive
  have howner : (l.recordNodeJoined H clock x).1.localNodeId = l.localNodeId :=
    Ledger.call_localNodeId l clock (.recordNodeJoined x)
  rw [active_after_left (howner ▸ hx) hleft, hshown.active] at hgone
  exact Bool.noConfusion hgone

/-- **Presence.** On every reachable ledger, a join of `x` and any later leave of `x` are seen as
they should when `x` is the local node; for any other `x` they are not, provided the ledger can
record a join and a leave at all. -/
theorem presence_iff (H : Bytes → Hash256) (l : Ledger) (hl : Ledger.Reachable H l) (x : NodeID) :
    (x = l.localNodeId → Promise H l x) ∧
      (Recordable H l x → (Promise H l x ↔ x = l.localNodeId)) := by
  have hlocal : x = l.localNodeId → Promise H l x := by
    rintro rfl
    exact promise_local hl.wf
  refine ⟨hlocal, fun hrecordable => ⟨fun hpromise => ?_, hlocal⟩⟩
  by_contra hx
  exact not_promise_other hx hrecordable hpromise

/-- The fresh ledger of node 1 can record both, and keeps the promise for node 1. -/
theorem presence_iff_local :
    Recordable sampleHash (Ledger.fresh (sampleNode 1)) (sampleNode 1) ∧
      Promise sampleHash (Ledger.fresh (sampleNode 1)) (sampleNode 1) := by
  have hreach : Ledger.Reachable sampleHash (Ledger.fresh (sampleNode 1)) := ⟨_, [], rfl⟩
  have hpromise := (presence_iff sampleHash _ hreach (sampleNode 1)).1 rfl
  exact ⟨⟨.still sampleTime, .still sampleTime, recorded_of_length (by decide),
    recorded_of_length (by decide +kernel)⟩, hpromise⟩

/-- Node 1 records that node 2 has joined: it is node 1 that the state and the index then
list. -/
theorem joined_misattributed :
    let l := Ledger.fresh (sampleNode 1)
    let joined := (l.recordNodeJoined sampleHash (.still sampleTime) (sampleNode 2)).1
    Recorded l joined ∧ (state joined).isNodeActive (sampleNode 2) = false ∧
      joined.index.getNodeJoinTime (sampleNode 2) = none ∧
      (state joined).isNodeActive (sampleNode 1) = true ∧
      ¬ Promise sampleHash l (sampleNode 2) := by
  refine ⟨⟨_, rfl⟩, by decide, by decide, by decide, ?_⟩
  intro hpromise
  have hshown := (hpromise (.still sampleTime) _ rfl ⟨_, rfl⟩).1.active
  exact absurd hshown (by decide)

end Cashew.Theorems.NodePresence
