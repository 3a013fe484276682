import Cashew.Logic.Bridge
import Cashew.Network.StateReconciliation

/-!
# What `add_external_event` reports

Its two callers update the derived state on the strength of the returned
boolean, so the boolean should say whether the event is in the ledger. It does
except in one corner: on an empty ledger `verify_event_chain` returns before
its timestamp test, `add_event` then turns a far-future event away on its own
timestamp test, and the caller is told that the event was added.
-/

namespace Cashew.Theorems.ExternalEvents

open Cashew Cashew.Lib

variable {H : Bytes → Hash256}

/-- The returned boolean tells the truth: true exactly when the event is the
new last one, false only with the ledger untouched; and both callers apply the
event to the state manager exactly when they get true. -/
structure Truthful (H : Bytes → Hash256) (l : Ledger) (clock : Clock) (e : LedgerEvent) :
    Prop where
  reported : (l.addExternalEvent H clock e).2 = true ↔
    (l.addExternalEvent H clock e).1.events = l.events ++ [e]
  refused : (l.addExternalEvent H clock e).2 = false → (l.addExternalEvent H clock e).1 = l
  bridgeApplies : ∀ (b : LedgerGossipBridge) (bridgeClock : Clock),
    b.ledger = l → bridgeClock.after 3 = clock →
    (b.Offers H bridgeClock e ∧ (l.addExternalEvent H clock e).2 = true →
      (b.processReceivedEvent H bridgeClock e).stateManager = b.stateManager.applyEvent e) ∧
    (¬ (b.Offers H bridgeClock e ∧ (l.addExternalEvent H clock e).2 = true) →
      (b.processReceivedEvent H bridgeClock e).stateManager = b.stateManager)
  mergeApplies : ∀ r : StateReconciliation, r.ledger = l →
    (r.mergeEvent H clock e).1.stateManager =
      if (l.addExternalEvent H clock e).2 then r.stateManager.applyEvent e else r.stateManager

/-! ## The callers -/

theorem bridge_applies (b : LedgerGossipBridge) (clock : Clock) (e : LedgerEvent) :
    (b.Offers H clock e ∧ (b.ledger.addExternalEvent H (clock.after 3) e).2 = true →
      (b.processReceivedEvent H clock e).stateManager = b.stateManager.applyEvent e) ∧
    (¬ (b.Offers H clock e ∧ (b.ledger.addExternalEvent H (clock.after 3) e).2 = true) →
      (b.processReceivedEvent H clock e).stateManager = b.stateManager) := by
  by_cases hoffers : b.Offers H clock e
  · rw [LedgerGossipBridge.processReceivedEvent_of_offers hoffers]
    refine ⟨?_, ?_⟩
    · rintro ⟨_, hadded⟩
      rw [if_pos hadded]
    · intro hnot
      rw [if_neg fun hadded => hnot ⟨hoffers, hadded⟩]
  · rw [LedgerGossipBridge.processReceivedEvent_of_not_offers hoffers]
    refine ⟨?_, ?_⟩
    · rintro ⟨h, _⟩
      exact absurd h hoffers
    · intro _
      rfl

theorem merge_applies (r : StateReconciliation) (clock : Clock) (e : LedgerEvent) :
    (r.mergeEvent H clock e).1.stateManager =
      if (r.ledger.addExternalEvent H clock e).2 then r.stateManager.applyEvent e
      else r.stateManager := by
  unfold StateReconciliation.mergeEvent
  cases hadded : (r.ledger.addExternalEvent H clock e).2 with
  | true => simp only [hadded, Bool.not_true, Bool.false_eq_true, if_false, if_true]
  | false => simp only [hadded, Bool.not_false, if_true, Bool.false_eq_true, if_false]

/-! ## The report -/

theorem refused_unchanged (l : Ledger) (clock : Clock) (e : LedgerEvent)
    (h : (l.addExternalEvent H clock e).2 = false) : (l.addExternalEvent H clock e).1 = l := by
  rw [Ledger.addExternalEvent_fst, h]
  rfl

/-- Outside the corner, an event that is reported as added was appended. -/
theorem append_of_reported {l : Ledger} {clock : Clock} {e : LedgerEvent}
    (hclock : clock.NonDecreasing)
    (hcorner : ¬ (l.events = [] ∧ e.previousHash = FixedBytes.zero ∧
      (clock.read 2).skewLimit < e.timestamp))
    (hadded : (l.addExternalEvent H clock e).2 = true) :
    (l.addExternalEvent H clock e).1 = l.append H e := by
  obtain ⟨haccepts, hts⟩ := (Ledger.addExternalEvent_snd_iff l clock e).mp hadded
  have hverify : l.verifyEvent H (clock.after 1) e = true := by
    rw [Ledger.verifyEvent_iff]
    by_cases hnil : l.events = []
    · -- only the reading of the timestamp test in `verify_event` counts
      have hprev : e.previousHash = FixedBytes.zero := by
        rw [haccepts.prev, hnil]
        rfl
      have hle : e.timestamp ≤ (clock.read 2).skewLimit := by
        rcases UInt64.lt_or_le (clock.read 2).skewLimit e.timestamp with hlt | hle
        · exact absurd ⟨hnil, hprev, hlt⟩ hcorner
        · exact hle
      exact ⟨haccepts, fun hne => absurd hnil hne, hle⟩
    · have hlater : ∀ i, e.timestamp ≤ (clock.read i).skewLimit := fun i =>
        UInt64.le_trans (hts hnil) (Time.skewLimit_mono (hclock 0 i (Nat.zero_le i)))
      exact ⟨haccepts, fun _ => hlater 1, hlater 2⟩
  rw [Ledger.addExternalEvent_fst, hadded, if_pos rfl, Ledger.addEvent_of_verify hverify]

/-- In the corner, an event is reported as added and is not. -/
theorem unchanged_in_corner {l : Ledger} (hwf : Ledger.Wf H l) (clock : Clock) (e : LedgerEvent)
    (hnil : l.events = []) (hprev : e.previousHash = FixedBytes.zero)
    (hlate : (clock.read 2).skewLimit < e.timestamp) :
    (l.addExternalEvent H clock e).2 = true ∧ (l.addExternalEvent H clock e).1 = l := by
  have haccepts : Ledger.Accepts H l e := by
    refine ⟨(hwf.find?_eq_none e.eventId).mpr ?_, ?_⟩
    · rw [hnil]
      exact List.not_mem_nil
    · rw [hprev, hnil]
      rfl
  have hadded : (l.addExternalEvent H clock e).2 = true :=
    (Ledger.addExternalEvent_snd_iff l clock e).mpr ⟨haccepts, fun hne => absurd hnil hne⟩
  have hverify : l.verifyEvent H (clock.after 1) e = false := by
    cases hv : l.verifyEvent H (clock.after 1) e with
    | false => rfl
    | true =>
      have hle : e.timestamp ≤ (clock.read 2).skewLimit :=
        ((Ledger.verifyEvent_iff l _ e).mp hv).2.2
      exact absurd hlate (UInt64.not_lt.mpr hle)
  refine ⟨hadded, ?_⟩
  rw [Ledger.addExternalEvent_fst, hadded, if_pos rfl, Ledger.addEvent_of_not_verify hverify]

/-- **`add_external_event` tells the truth exactly outside one corner**: a first
event (zero previous hash, empty ledger) whose timestamp lies more than the
allowed skew ahead of the clock is reported as added and dropped. -/
theorem truthful_iff (H : Bytes → Hash256) (l : Ledger) (hreach : Ledger.Reachable H l)
    (clock : Clock) (hclock : clock.NonDecreasing) (e : LedgerEvent) :
    Truthful H l clock e ↔
      ¬ (l.events = [] ∧ e.previousHash = FixedBytes.zero ∧
        (clock.read 2).skewLimit < e.timestamp) := by
  constructor
  · rintro htruth ⟨hnil, hprev, hlate⟩
    obtain ⟨hadded, hsame⟩ := unchanged_in_corner hreach.wf clock e hnil hprev hlate
    have hevents := htruth.reported.mp hadded
    rw [hsame, hnil] at hevents
    cases hevents
  · intro hcorner
    refine ⟨⟨?_, ?_⟩, refused_unchanged l clock e, ?_, ?_⟩
    · intro hadded
      rw [append_of_reported hclock hcorner hadded]
      rfl
    · intro hevents
      cases hadded : (l.addExternalEvent H clock e).2 with
      | true => rfl
      | false =>
        rw [refused_unchanged l clock e hadded] at hevents
        simp at hevents
    · rintro b bridgeClock rfl rfl
      exact bridge_applies b bridgeClock e
    · rintro r rfl
      exact merge_applies r clock e

/-- A first event of node 2 with the given timestamp. -/
def firstEvent (timestamp : UInt64) : LedgerEvent where
  eventId := sampleHash [1]
  eventType := .listed .nodeJoined
  sourceNode := sampleNode 2
  timestamp
  epoch := 2
  previousHash := FixedBytes.zero
  data := []
  signature := FixedBytes.zero

/-- With the clock at 1200 s, a first event dated 1501 s is reported as added to
a fresh ledger that stays empty. -/
theorem future_first_event_not_truthful :
    Ledger.Reachable sampleHash (Ledger.fresh (sampleNode 1)) ∧
      ¬ Truthful sampleHash (Ledger.fresh (sampleNode 1)) (.still sampleTime)
        (firstEvent 1501) := by
  refine ⟨⟨sampleNode 1, [], rfl⟩, ?_⟩
  intro htruth
  have hwf : Ledger.Wf sampleHash (Ledger.fresh (sampleNode 1)) := Ledger.fresh_wf (sampleNode 1)
  obtain ⟨hadded, hsame⟩ :=
    unchanged_in_corner hwf (.still sampleTime) (firstEvent 1501) rfl rfl (by decide)
  have hevents := htruth.reported.mp hadded
  rw [hsame] at hevents
  cases hevents

/-- Dated 1500 s the same event is within the allowed skew. -/
theorem first_event_truthful :
    Truthful sampleHash (Ledger.fresh (sampleNode 1)) (.still sampleTime) (firstEvent 1500) :=
  (truthful_iff sampleHash (Ledger.fresh (sampleNode 1)) ⟨sampleNode 1, [], rfl⟩
    (.still sampleTime) (Clock.still_nonDecreasing sampleTime) (firstEvent 1500)).mpr
    fun h => absurd h.2.2 (by decide)

end Cashew.Theorems.ExternalEvents
