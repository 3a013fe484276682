import Cashew.Logic.LedgerWf
import Cashew.Network.LedgerSync

/-!
# What the bridge does to the ledger and the state

Every path through the bridge reaches the ledger by `process_received_event`,
and on a clock that does not go back that call has two outcomes: nothing, or
the event appended to the ledger, applied to the state and remembered, all
three together (`processReceivedEvent_cases`). A property of the ledger, the
state and the remembered ids that survives this joint update survives every
message (`handleGossipMessage_preserves`) and every run (`run_preserves`).

`CoreWf` is the instance that holds of every reachable bridge.
-/

namespace Cashew

open Cashew.Lib

namespace LedgerGossipBridge

variable {H : Bytes → Hash256}

/-- The bridge passes the event on to `add_external_event`: it has not seen the
id and its own checks pass. -/
def Offers (H : Bytes → Hash256) (b : LedgerGossipBridge) (clock : Clock) (e : LedgerEvent) :
    Prop :=
  e.eventId ∉ b.seenEventIds ∧ b.validateEventChain H clock e = true

/-- The bridge after an event went into the ledger. -/
def absorb (H : Bytes → Hash256) (b : LedgerGossipBridge) (e : LedgerEvent) :
    LedgerGossipBridge :=
  { b with
    ledger := b.ledger.append H e
    seenEventIds := insert e.eventId b.seenEventIds
    eventsReceived := b.eventsReceived + 1
    stateManager := b.stateManager.applyEvent e }

/-! ## One event -/

theorem processReceivedEvent_of_not_offers {b : LedgerGossipBridge} {clock : Clock}
    {e : LedgerEvent} (h : ¬ Offers H b clock e) : b.processReceivedEvent H clock e = b := by
  unfold processReceivedEvent
  by_cases hseen : e.eventId ∈ b.seenEventIds
  · rw [if_pos hseen]
  · have hvalid : b.validateEventChain H clock e = false := by
      cases hv : b.validateEventChain H clock e with
      | false => rfl
      | true => exact absurd ⟨hseen, hv⟩ h
    rw [if_neg hseen, hvalid]
    rfl

theorem processReceivedEvent_of_offers {b : LedgerGossipBridge} {clock : Clock}
    {e : LedgerEvent} (h : Offers H b clock e) :
    b.processReceivedEvent H clock e =
      if (b.ledger.addExternalEvent H (clock.after 3) e).2 then
        { b with
          ledger := (b.ledger.addExternalEvent H (clock.after 3) e).1
          seenEventIds := insert e.eventId b.seenEventIds
          eventsReceived := b.eventsReceived + 1
          stateManager := b.stateManager.applyEvent e }
      else b := by
  unfold processReceivedEvent
  rw [if_neg h.1, h.2]
  simp only [Bool.not_true, Bool.false_eq_true, if_false]
  cases hadded : (b.ledger.addExternalEvent H (clock.after 3) e).2 with
  | true => rfl
  | false =>
    have hsame : (b.ledger.addExternalEvent H (clock.after 3) e).1 = b.ledger := by
      rw [Ledger.addExternalEvent_fst, hadded]
      rfl
    rw [hsame]

/-- The bridge's own timestamp test. -/
theorem timestamp_le_of_validate {b : LedgerGossipBridge} {clock : Clock} {e : LedgerEvent}
    (h : b.validateEventChain H clock e = true) : e.timestamp ≤ (clock.read 0).skewLimit := by
  unfold validateEventChain at h
  by_cases hlt : (clock.read 0).skewLimit < e.timestamp
  · rw [if_pos hlt] at h
    cases h
  · exact UInt64.not_lt.mp hlt

/-- **One event**: the bridge ignores it, or takes it in as a whole. The test of
the timestamp at the first reading is what rules out an event that is reported
as added and is not. -/
theorem processReceivedEvent_cases (b : LedgerGossipBridge) {clock : Clock}
    (hclock : clock.NonDecreasing) (e : LedgerEvent) :
    b.processReceivedEvent H clock e = b ∨
      (Ledger.Accepts H b.ledger e ∧ b.processReceivedEvent H clock e = b.absorb H e) := by
  by_cases hoffers : Offers H b clock e
  · rw [processReceivedEvent_of_offers hoffers]
    cases hadded : (b.ledger.addExternalEvent H (clock.after 3) e).2 with
    | false => exact .inl rfl
    | true =>
      -- the bridge's own reading came first, so every later one accepts the timestamp
      have haccepts := ((Ledger.addExternalEvent_snd_iff _ _ e).mp hadded).1
      have hts : ∀ i, e.timestamp ≤ ((clock.after 3).read i).skewLimit := fun i =>
        UInt64.le_trans (timestamp_le_of_validate hoffers.2)
          (Time.skewLimit_mono (hclock 0 (i + 3) (Nat.zero_le _)))
      rw [Ledger.addExternalEvent_of_accepts haccepts hts]
      exact .inr ⟨haccepts, rfl⟩
  · exact .inl (processReceivedEvent_of_not_offers hoffers)

/-! ## What survives -/

/-- A property of the three parts an event changes together. -/
abbrev CoreProp := Ledger → StateManager → Finset Hash256 → Prop

/-- The property, of a bridge. -/
def Holds (P : CoreProp) (b : LedgerGossipBridge) : Prop :=
  P b.ledger b.stateManager b.seenEventIds

/-- Taking in an event that fits preserves the property. -/
def Absorbing (H : Bytes → Hash256) (P : CoreProp) : Prop :=
  ∀ l s seen e, Ledger.Accepts H l e → P l s seen →
    P (l.append H e) (s.applyEvent e) (insert e.eventId seen)

section Preservation

variable {P : CoreProp}

theorem processReceivedEvents_preserves (hP : Absorbing H P) (events : List LedgerEvent) :
    ∀ {b : LedgerGossipBridge} {clock : Clock}, clock.NonDecreasing → b.Holds P →
      (b.processReceivedEvents H clock events).Holds P := by
  induction events with
  | nil =>
    intro b clock _ h
    exact h
  | cons e rest ih =>
    intro b clock hclock h
    -- the rest of the events get the readings after the first six
    apply ih (hclock.after 6)
    rcases processReceivedEvent_cases (H := H) b hclock e with hsame | ⟨haccepts, hstep⟩
    · rw [hsame]
      exact h
    · rw [hstep]
      exact hP _ _ _ e haccepts h

theorem handleSyncResponse_preserves (hP : Absorbing H P) {b : LedgerGossipBridge} {clock : Clock}
    (hclock : clock.NonDecreasing) (h : b.Holds P) (peerId : NodeID)
    (events : List LedgerEvent) : (b.handleSyncResponse H clock peerId events).Holds P := by
  have hevents := processReceivedEvents_preserves hP events hclock h
  unfold handleSyncResponse
  cases events.getLast? with
  | none => exact hevents
  | some last => exact hevents

/-- One gossip message, whatever its payload. -/
theorem handleGossipMessage_preserves (hP : Absorbing H P) {b : LedgerGossipBridge}
    {clock : Clock} (hclock : clock.NonDecreasing) (h : b.Holds P) (source : NodeID)
    (message : GossipMessage) : (b.handleGossipMessage H clock source message).1.Holds P := by
  unfold handleGossipMessage
  cases (LedgerSyncMessage.deserialize message.payload).toOption with
  | none => exact h
  | some m =>
    dsimp only
    split
    · exact processReceivedEvents_preserves hP m.events hclock h
    · exact h
    · exact handleSyncResponse_preserves hP hclock h source m.events
    · exact h
    · exact h

theorem requestMismatched_preserves (current : UInt64) (ourHash : Hash256)
    (entries : List (NodeID × SyncState)) :
    ∀ {b : LedgerGossipBridge} {clock : Clock}, b.Holds P →
      (requestMismatched H current ourHash b clock entries).1.Holds P := by
  induction entries with
  | nil =>
    intro b clock h
    exact h
  | cons entry rest ih =>
    intro b clock h
    unfold requestMismatched
    split
    · split
      · exact ih (b := (b.requestSync H (clock.read 0) entry.1 current current).1) h
      · exact ih h
    · exact ih h

/-- One input: the bridge's own entry points take in events or leave the three
parts alone, a local ledger call changes the ledger. -/
theorem call_preserves (hP : Absorbing H P)
    (hcall : ∀ l s seen clock c, P l s seen → P (l.call H clock c).1 s seen)
    {b : LedgerGossipBridge} {clock : Clock} (hclock : clock.NonDecreasing) (h : b.Holds P)
    (input : BridgeInput) : (b.call H clock input).1.Holds P := by
  cases input with
  | ledgerCall c => exact hcall _ _ _ clock c h
  | broadcastEvent => exact h
  | broadcastCheckpoint => exact h
  | requestSync => exact h
  | handleGossipMessage source message =>
    exact handleGossipMessage_preserves hP hclock h source message
  | handleSyncResponse peerId events =>
    exact handleSyncResponse_preserves hP hclock h peerId events
  | syncWithNetwork draw =>
    show (b.syncWithNetwork H clock draw).1.Holds P
    unfold syncWithNetwork
    dsimp only
    split
    · split
      · exact h
      · exact h
    · exact h
  | validateConsistency => exact requestMismatched_preserves _ _ _ h
  | cleanupSyncState => exact h

theorem run_preserves (hP : Absorbing H P)
    (hcall : ∀ l s seen clock c, P l s seen → P (l.call H clock c).1 s seen)
    {b : LedgerGossipBridge} (h : b.Holds P) (inputs : List (Clock × BridgeInput))
    (hclock : ∀ input ∈ inputs, input.1.NonDecreasing) :
    ((bridgeMachine H).run b inputs).1.Holds P :=
  (bridgeMachine H).run_invariant_on (P := Holds P) (Q := fun input => input.1.NonDecreasing)
    (fun _ input hinput hb => call_preserves hP hcall hinput hb input.2) h inputs hclock

end Preservation

/-! ## The ledger behind a bridge -/

/-- The ledger is well-formed and the bridge remembers only ids it holds. -/
def CoreWf (H : Bytes → Hash256) : CoreProp := fun l _ seen =>
  Ledger.Wf H l ∧ ∀ id ∈ seen, id ∈ l.events.map LedgerEvent.eventId

theorem absorbing_coreWf : Absorbing H (CoreWf H) := by
  rintro l s seen e haccepts ⟨hwf, hseen⟩
  refine ⟨Ledger.append_wf hwf haccepts, ?_⟩
  intro id hid
  show id ∈ (l.events ++ [e]).map LedgerEvent.eventId
  rw [List.map_append, List.mem_append]
  rcases Finset.mem_insert.mp hid with hnew | hold
  · exact .inr (by rw [hnew]; exact List.mem_singleton_self _)
  · exact .inl (hseen id hold)

/-- A local call only ever adds events. -/
theorem call_coreWf (l : Ledger) (s : StateManager) (seen : Finset Hash256) (clock : Clock)
    (c : LedgerCall) (h : CoreWf H l s seen) : CoreWf H (l.call H clock c).1 s seen := by
  refine ⟨Ledger.call_wf l clock c h.1, ?_⟩
  intro id hid
  have hold := h.2 id hid
  obtain ⟨n, hn | ⟨e, _, hn⟩⟩ := Ledger.call_cases (H := H) l clock c
  · rw [hn]
    exact hold
  · rw [hn]
    show id ∈ (l.events ++ [e]).map LedgerEvent.eventId
    rw [List.map_append, List.mem_append]
    exact .inl hold

theorem Reachable.coreWf {b : LedgerGossipBridge} (h : Reachable H b) : b.Holds (CoreWf H) := by
  obtain ⟨localNodeId, inputs, hclock, rfl⟩ := h
  refine run_preserves absorbing_coreWf call_coreWf ?_ inputs hclock
  exact ⟨Ledger.fresh_wf localNodeId, fun id hid => absurd hid (Finset.notMem_empty id)⟩

end LedgerGossipBridge

end Cashew
