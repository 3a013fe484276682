import Cashew.Logic.Bridge

/-!
# The ledger and its derived state under gossip

Two facts about a bridge that is fed by other nodes. Whatever bytes arrive, the
state manager stays what `rebuild_state` would compute from the ledger
(`gossip_keeps_state`). And a response that runs to the tip of a longer ledger
brings a receiver with a prefix of it up to that tip (`catch_up`).
-/

namespace Cashew.Theorems.LedgerConvergence

open Cashew Cashew.Lib

variable {H : Bytes → Hash256}

/-! ## The derived state -/

/-- A bridge driven by incoming gossip alone. -/
def gossipMachine (H : Bytes → Hash256) :
    Machine LedgerGossipBridge (Clock × NodeID × GossipMessage) GossipSend where
  step b input := b.handleGossipMessage H input.1 input.2.1 input.2.2

/-- The state manager holds what a rebuild from the ledger would give. -/
def Agrees (b : LedgerGossipBridge) : Prop :=
  b.stateManager = StateManager.rebuildState b.ledger.events

theorem absorbing_agrees : LedgerGossipBridge.Absorbing H
    (fun l s _ => s = StateManager.rebuildState l.events) := by
  intro l s seen e _ hagrees
  show s.applyEvent e = StateManager.rebuildState (l.events ++ [e])
  rw [StateManager.rebuildState_snoc, ← hagrees]

/-- **The derived state follows the ledger** through any sequence of gossip
messages with arbitrary payloads. The clock may jump between messages; while a
message is handled it must not go back. -/
theorem gossip_keeps_state (H : Bytes → Hash256) (b : LedgerGossipBridge) (hagrees : Agrees b)
    (messages : List (Clock × NodeID × GossipMessage))
    (hclock : ∀ input ∈ messages, input.1.NonDecreasing) :
    Agrees ((gossipMachine H).run b messages).1 :=
  (gossipMachine H).run_invariant_on (P := Agrees) (Q := fun input => input.1.NonDecreasing)
    (fun _ input hinput hb => LedgerGossipBridge.handleGossipMessage_preserves absorbing_agrees
      hinput hb input.2.1 input.2.2) hagrees messages hclock

/-- A broadcast of node 1's first event, as node 2 gets it. -/
def joinMessage : GossipMessage :=
  LedgerGossipBridge.gossipMessage sampleTime sampleJoin.eventId
    ((LedgerGossipBridge.fresh (sampleNode 1)).eventMessage sampleJoin)

/-- The event arrives twice at a fresh bridge, which takes it in once. -/
theorem join_twice_keeps_state :
    Agrees ((gossipMachine sampleHash).run (LedgerGossipBridge.fresh (sampleNode 2))
        [(.still sampleTime, sampleNode 1, joinMessage),
          (.still sampleTime, sampleNode 3, joinMessage)]).1 ∧
      ((gossipMachine sampleHash).run (LedgerGossipBridge.fresh (sampleNode 2))
        [(.still sampleTime, sampleNode 1, joinMessage),
          (.still sampleTime, sampleNode 3, joinMessage)]).1.ledger.events = [sampleJoin] := by
  refine ⟨?_, by decide +kernel⟩
  apply gossip_keeps_state sampleHash (LedgerGossipBridge.fresh (sampleNode 2)) rfl _
  intro input hinput
  simp only [List.mem_cons, List.not_mem_nil, or_false] at hinput
  rcases hinput with rfl | rfl
  · exact Clock.still_nonDecreasing sampleTime
  · exact Clock.still_nonDecreasing sampleTime

/-! ## Catching up -/

/-- An event the ledger already holds is skipped. -/
theorem processReceivedEvent_of_held {b : LedgerGossipBridge} (hwf : Ledger.Wf H b.ledger)
    {clock : Clock} {e : LedgerEvent}
    (hheld : e.eventId ∈ b.ledger.events.map LedgerEvent.eventId) :
    b.processReceivedEvent H clock e = b := by
  by_cases hoffers : b.Offers H clock e
  · rw [LedgerGossipBridge.processReceivedEvent_of_offers hoffers, if_neg]
    intro hadded
    have haccepts := ((Ledger.addExternalEvent_snd_iff b.ledger _ e).mp hadded).1
    exact (hwf.find?_eq_none e.eventId).mp haccepts.idFresh hheld
  · exact LedgerGossipBridge.processReceivedEvent_of_not_offers hoffers

/-- An event that fits, with a source and an acceptable timestamp, is taken in. -/
theorem processReceivedEvent_of_next {b : LedgerGossipBridge} {clock : Clock} {e : LedgerEvent}
    (haccepts : Ledger.Accepts H b.ledger e) (hseen : e.eventId ∉ b.seenEventIds)
    (hsource : e.sourceNode.id ≠ FixedBytes.zero)
    (hts : ∀ i, e.timestamp ≤ (clock.read i).skewLimit) :
    b.processReceivedEvent H clock e = b.absorb H e := by
  have hvalid : b.validateEventChain H clock e = true := by
    have hsource' : e.sourceNode.id ≠ (default : NodeID).id := hsource
    unfold LedgerGossipBridge.validateEventChain
    rw [if_neg (UInt64.not_lt.mpr (hts 0)), if_neg hsource']
    split
    · rfl
    · exact (Ledger.verifyEventChain_iff b.ledger _ e).mpr ⟨haccepts.prev, fun _ => hts 2⟩
  have hadded : b.ledger.addExternalEvent H (clock.after 3) e = (b.ledger.append H e, true) := by
    apply Ledger.addExternalEvent_of_accepts haccepts
    intro i
    exact hts (i + 3)
  rw [LedgerGossipBridge.processReceivedEvent_of_offers ⟨hseen, hvalid⟩, hadded]
  rfl

/-- Where a receiver stands on a sender's log. -/
structure Behind (H : Bytes → Hash256) (log : List LedgerEvent) (b : LedgerGossipBridge) :
    Prop where
  core : b.Holds (LedgerGossipBridge.CoreWf H)
  onLog : b.ledger.events <+: log

/-- The next event of the log fits the receiver that holds all before it. -/
theorem Behind.accepts_next {log done rest : List LedgerEvent} {e : LedgerEvent}
    {b : LedgerGossipBridge} (hlog : log = done ++ e :: rest)
    (hlinked : (Ledger.links H).Linked log) (hnodup : (log.map LedgerEvent.eventId).Nodup)
    (h : Behind H log b) (hdone : b.ledger.events = done) :
    Ledger.Accepts H b.ledger e ∧ e.eventId ∉ b.seenEventIds := by
  have hfresh : e.eventId ∉ b.ledger.events.map LedgerEvent.eventId := by
    rw [hlog, List.map_append, List.map_cons] at hnodup
    rw [hdone]
    intro hmem
    exact (List.nodup_append.mp hnodup).2.2 _ hmem _ List.mem_cons_self rfl
  refine ⟨⟨(h.core.1.find?_eq_none e.eventId).mpr hfresh, ?_⟩, ?_⟩
  · rw [hdone]
    exact (hlog ▸ hlinked : (Ledger.links H).Linked (done ++ e :: rest)).prev_eq_tip
  · exact fun hmem => hfresh (h.core.2 e.eventId hmem)

/-- A receiver with more than what comes before an event holds the event. -/
theorem Behind.holds {log done rest : List LedgerEvent} {b : LedgerGossipBridge} {e : LedgerEvent}
    (h : Behind H log b) (hlog : log = (done ++ [e]) ++ rest)
    (hlt : done.length < b.ledger.events.length) :
    e.eventId ∈ b.ledger.events.map LedgerEvent.eventId := by
  have hpre : done ++ [e] <+: b.ledger.events := by
    refine List.prefix_of_prefix_length_le ⟨rest, hlog.symm⟩ h.onLog ?_
    rw [List.length_append, List.length_singleton]
    omega
  exact List.mem_map_of_mem (hpre.subset (List.mem_append_right _ (List.mem_singleton_self e)))

/-- A receiver with as many events as come before a place of the log has just
those. -/
theorem Behind.eq_done {log done rest : List LedgerEvent} {b : LedgerGossipBridge}
    (h : Behind H log b) (hlog : log = done ++ rest)
    (heq : done.length = b.ledger.events.length) : b.ledger.events = done :=
  (List.prefix_of_prefix_length_le h.onLog ⟨rest, hlog.symm⟩ heq.ge).eq_of_length heq.symm

/-- Feeding the rest of a log to a receiver that already has at least what comes
before it leaves the receiver with the whole log. The induction is over the
rest: an event the receiver holds is skipped, the one behind its tip is taken
in and moves the tip. -/
theorem processReceivedEvents_to_tip {log : List LedgerEvent}
    (hlinked : (Ledger.links H).Linked log) (hnodup : (log.map LedgerEvent.eventId).Nodup)
    (hsource : ∀ e ∈ log, e.sourceNode.id ≠ FixedBytes.zero) (rest : List LedgerEvent) :
    ∀ (done : List LedgerEvent) (b : LedgerGossipBridge) (clock : Clock),
      (∀ e ∈ log, ∀ i, e.timestamp ≤ (clock.read i).skewLimit) → log = done ++ rest →
      done.length ≤ b.ledger.events.length → Behind H log b →
      Behind H log (b.processReceivedEvents H clock rest) ∧
        (b.processReceivedEvents H clock rest).ledger.events = log := by
  induction rest with
  | nil =>
    intro done b clock _ hlog hlen h
    rw [List.append_nil] at hlog
    refine ⟨h, h.onLog.eq_of_length_le ?_⟩
    rw [hlog]
    exact hlen
  | cons e rest ih =>
    intro done b clock hts hlog hlen h
    have hmem : e ∈ log := by
      rw [hlog]
      exact List.mem_append_right _ List.mem_cons_self
    have hlog' : log = (done ++ [e]) ++ rest := by
      rw [hlog, List.append_assoc]
      rfl
    have hts' : ∀ e ∈ log, ∀ i, e.timestamp ≤ ((clock.after 6).read i).skewLimit :=
      fun e he i => hts e he (i + 6)
    rw [LedgerGossipBridge.processReceivedEvents]
    rcases Nat.lt_or_eq_of_le hlen with hlt | heq
    · -- the receiver holds `e` already
      rw [processReceivedEvent_of_held h.core.1 (h.holds hlog' hlt)]
      refine ih (done ++ [e]) b (clock.after 6) hts' hlog' ?_ h
      rw [List.length_append, List.length_singleton]
      omega
    · -- the receiver's tip is right in front of `e`
      have hdone : b.ledger.events = done := h.eq_done hlog heq
      obtain ⟨haccepts, hseen⟩ := h.accepts_next hlog hlinked hnodup hdone
      rw [processReceivedEvent_of_next haccepts hseen (hsource e hmem) (hts e hmem)]
      have hevents : (b.absorb H e).ledger.events = done ++ [e] := by
        show b.ledger.events ++ [e] = done ++ [e]
        rw [hdone]
      refine ih (done ++ [e]) (b.absorb H e) (clock.after 6) hts' hlog' ?_ ⟨?_, ?_⟩
      · rw [hevents]
      · exact LedgerGossipBridge.absorbing_coreWf _ _ _ e haccepts h.core
      · rw [hevents]
        exact ⟨rest, hlog'.symm⟩

/-- The peer table is no part of the ledger. -/
theorem handleSyncResponse_ledger (b : LedgerGossipBridge) (clock : Clock) (peerId : NodeID)
    (events : List LedgerEvent) :
    (b.handleSyncResponse H clock peerId events).ledger =
      (b.processReceivedEvents H clock events).ledger := by
  unfold LedgerGossipBridge.handleSyncResponse
  cases events.getLast? <;> rfl

/-- **Catch-up.** A receiver whose events are a prefix of a sender's ends up with
exactly the sender's events and latest hash after one response that starts no
later than the receiver's tip and runs to the sender's. -/
theorem catch_up (H : Bytes → Hash256) (receiver : LedgerGossipBridge)
    (hreceiver : receiver.Reachable H) (sender : Ledger) (hsender : sender.Reachable H)
    (hpre : receiver.ledger.events <+: sender.events)
    (hsource : ∀ e ∈ sender.events, e.sourceNode.id ≠ FixedBytes.zero)
    (clock : Clock) (hts : ∀ e ∈ sender.events, ∀ i, e.timestamp ≤ (clock.read i).skewLimit)
    (peerId : NodeID) (start : Nat) (hstart : start ≤ receiver.ledger.events.length) :
    (receiver.handleSyncResponse H clock peerId (sender.events.drop start)).ledger.events =
        sender.events ∧
      (receiver.handleSyncResponse H clock peerId (sender.events.drop start)).ledger.latestHash =
        sender.latestHash := by
  have hsplit : sender.events = sender.events.take start ++ sender.events.drop start :=
    (List.take_append_drop start sender.events).symm
  have hlen : (sender.events.take start).length ≤ receiver.ledger.events.length := by
    rw [List.length_take]
    omega
  obtain ⟨hbehind, hevents⟩ := processReceivedEvents_to_tip hsender.wf.linked
    hsender.wf.idsNodup hsource (sender.events.drop start) (sender.events.take start) receiver
    clock hts hsplit hlen ⟨hreceiver.coreWf, hpre⟩
  rw [handleSyncResponse_ledger]
  refine ⟨hevents, ?_⟩
  rw [hbehind.core.1.latest, hevents, hsender.wf.latest]

/-- Node 1's ledger after it joined and left. -/
def longLedger : Ledger :=
  ((ledgerMachine sampleHash).run (Ledger.fresh (sampleNode 1))
    [(.still sampleTime, .recordNodeJoined (sampleNode 1)),
      (.still sampleTime, .recordNodeLeft (sampleNode 1))]).1

/-- A bridge on node 2 that got the first of the two events. -/
def oneBehind : LedgerGossipBridge :=
  ((bridgeMachine sampleHash).run (LedgerGossipBridge.fresh (sampleNode 2))
    [(.still sampleTime, .handleSyncResponse (sampleNode 1) [sampleJoin])]).1

/-- A response with both events brings it up to date. -/
theorem oneBehind_catches_up :
    (oneBehind.handleSyncResponse sampleHash (.still sampleTime) (sampleNode 1)
        (longLedger.events.drop 0)).ledger.events = longLedger.events ∧
      (oneBehind.handleSyncResponse sampleHash (.still sampleTime) (sampleNode 1)
        (longLedger.events.drop 0)).ledger.latestHash = longLedger.latestHash := by
  refine catch_up sampleHash oneBehind ⟨sampleNode 2, _, ?_, rfl⟩ longLedger
    ⟨sampleNode 1, _, rfl⟩ ?_ ?_ (.still sampleTime) ?_ (sampleNode 1) 0 (Nat.zero_le _)
  · intro input hinput
    rw [List.mem_singleton.mp hinput]
    exact Clock.still_nonDecreasing sampleTime
  · have hpre : oneBehind.ledger.events = longLedger.events.take 1 := by decide +kernel
    rw [hpre]
    exact List.take_prefix 1 _
  · decide +kernel
  · intro e he _
    have hall : ∀ e ∈ longLedger.events, e.timestamp ≤ sampleTime.skewLimit := by decide +kernel
    exact hall e he

end Cashew.Theorems.LedgerConvergence
