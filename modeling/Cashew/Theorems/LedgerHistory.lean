import Cashew.Logic.LedgerWf

/-!
# The ledger's history

What holds of a ledger after any run of `record_*` and `add_external_event`
calls, with arbitrary events and clock readings: its five pieces of state stay
consistent (`every_run_consistent`), and its latest hash stands for its whole
event sequence (`same_latestHash_same_events`).
-/

namespace Cashew.Theorems.LedgerHistory

open Cashew Cashew.Lib

/-! ## Consistency along every run -/

/-- The consistency of a ledger, in the terms of its interface. -/
structure Consistent (H : Bytes → Hash256) (l : Ledger) : Prop where
  idsDistinct : (l.events.map LedgerEvent.eventId).Nodup
  lookupExact : ∀ id i, l.eventLookup.find? id = some i ↔
    ∃ e, l.events[i]? = some e ∧ e.eventId = id
  firstNamesZero : ∀ e, l.events.head? = some e → e.previousHash = FixedBytes.zero
  laterNamesPredecessor : ∀ i p e, l.events[i]? = some p → l.events[i + 1]? = some e →
    e.previousHash = p.computeHash H
  latestIsLast : l.latestHash = match l.events.getLast? with
    | none => FixedBytes.zero
    | some e => e.computeHash H
  indexRebuilt : l.index = LedgerIndex.rebuildFromEvents l.events
  validates : l.validateChain H = true
  noConflicts : l.detectConflicts H = []

/-- Neighbours of a chain are exactly the pairs of the list with its tail. -/
private theorem zip_tail_of_isChain {α : Type} {R : α → α → Prop} :
    ∀ {log : List α}, log.IsChain R → ∀ p ∈ log.zip log.tail, R p.1 p.2
  | [], _, p, hp => by simp at hp
  | [_], _, p, hp => by simp at hp
  | a :: b :: rest, h, p, hp => by
    rw [List.isChain_cons_cons] at h
    have hzip : (a :: b :: rest).zip (a :: b :: rest).tail =
        (a, b) :: (b :: rest).zip (b :: rest).tail := rfl
    rw [hzip] at hp
    rcases List.mem_cons.mp hp with hp | hp
    · rw [hp]
      exact h.1
    · exact zip_tail_of_isChain h.2 p hp

/-- `detect_conflicts` counts the occurrences of each id. -/
private theorem find?_seenCounts (events : List LedgerEvent) (id : Hash256) :
    (Ledger.seenCounts events).find? id =
      if (events.map LedgerEvent.eventId).count id = 0 then none
      else some (UInt32.ofNat ((events.map LedgerEvent.eventId).count id)) := by
  induction events using List.reverseRecOn with
  | nil => rfl
  | append_singleton front e ih =>
    have hstep : Ledger.seenCounts (front ++ [e]) =
        (Ledger.seenCounts front).upsert e.eventId 0 (· + 1) := by
      simp [Ledger.seenCounts, List.foldl_append]
    rw [hstep, OrdMap.find?_upsert, List.map_append, List.count_append, List.map_singleton]
    by_cases hid : e.eventId = id
    · subst hid
      rw [ih, if_pos rfl, List.count_singleton_self]
      by_cases hzero : (front.map LedgerEvent.eventId).count e.eventId = 0
      · simp [hzero]
      · simp [hzero]
    · rw [if_neg hid, ih]
      simp [hid]

theorem consistent_of_wf {H : Bytes → Hash256} {l : Ledger} (h : Ledger.Wf H l) :
    Consistent H l := by
  have hchain := h.linked.isChain
  have hlink : ∀ p ∈ l.events.zip l.events.tail, p.2.previousHash = p.1.computeHash H :=
    zip_tail_of_isChain hchain
  refine ⟨h.idsNodup, ?_, ?_, ?_, ?_, h.index, ?_, ?_⟩
  · intro id i
    rw [h.lookup id i, Option.map_eq_some_iff]
  · intro e he
    exact h.linked.head_prev he
  · intro i p e hp he
    obtain ⟨hi, rfl⟩ := List.getElem?_eq_some_iff.mp hp
    obtain ⟨hi', rfl⟩ := List.getElem?_eq_some_iff.mp he
    exact hchain.getElem i hi'
  -- the tip is the hash of the last event
  · rw [h.latest, HashChain.Links.tip]
    cases l.events.getLast? <;> rfl
  · unfold Ledger.validateChain
    rw [List.all_eq_true]
    intro p hp
    simpa using hlink p hp
  · unfold Ledger.detectConflicts
    rw [List.append_eq_nil_iff, List.map_eq_nil_iff, List.map_eq_nil_iff,
      List.filter_eq_nil_iff, List.filter_eq_nil_iff]
    refine ⟨?_, ?_⟩
    · -- no id is counted twice
      rintro ⟨id, count⟩ hmem
      have hcount := List.nodup_iff_count_le_one.mp h.idsNodup id
      have hfind := OrdMap.mem_entries.mp hmem
      rw [find?_seenCounts] at hfind
      split at hfind
      · cases hfind
      · have hone : (l.events.map LedgerEvent.eventId).count id = 1 := by omega
        rw [hone] at hfind
        cases hfind
        show ¬ decide (1 < UInt32.ofNat 1) = true
        decide
    · -- no link is broken
      intro p hp
      simpa using hlink p hp

/-- **Consistency.** After every run of calls on a fresh ledger the ids are
distinct, the lookup and the index match the events, the events form a hash
chain that ends in the latest hash, and the ledger's own checks find nothing. -/
theorem every_run_consistent (H : Bytes → Hash256) (localNodeId : NodeID)
    (calls : List (Clock × LedgerCall)) :
    Consistent H ((ledgerMachine H).run (Ledger.fresh localNodeId) calls).1 :=
  consistent_of_wf (Ledger.run_wf (Ledger.fresh_wf localNodeId) calls)

/-! ## The latest hash commits to the history -/

/-- The byte strings two ledgers have hashed for their chains. -/
def chainInputs (l₁ l₂ : Ledger) : Set Bytes :=
  { b | ∃ e ∈ l₁.events ++ l₂.events, e.toBytes = b }

/-- **Commitment.** Two reachable ledgers with the same latest hash have the
same events. The hash function is assumed collision-free and non-zero on the
events of the two ledgers, which is all of its injectivity the chain needs. -/
theorem same_latestHash_same_events (H : Bytes → Hash256) (l₁ l₂ : Ledger)
    (h₁ : Ledger.Reachable H l₁) (h₂ : Ledger.Reachable H l₂)
    (hinj : Set.InjOn H (chainInputs l₁ l₂))
    (hzero : ∀ b ∈ chainInputs l₁ l₂, H b ≠ FixedBytes.zero)
    (htip : l₁.latestHash = l₂.latestHash) : l₁.events = l₂.events := by
  have hin₁ : ∀ e ∈ l₁.events, e.toBytes ∈ chainInputs l₁ l₂ :=
    fun e he => ⟨e, List.mem_append_left _ he, rfl⟩
  have hin₂ : ∀ e ∈ l₂.events, e.toBytes ∈ chainInputs l₁ l₂ :=
    fun e he => ⟨e, List.mem_append_right _ he, rfl⟩
  refine h₁.wf.linked.eq_of_tip_eq h₂.wf.linked ?_ ?_ ?_ ?_
  · intro e₁ he₁ e₂ he₂ hhash
    exact LedgerEvent.toBytes_injective (hinj (hin₁ e₁ he₁) (hin₂ e₂ he₂) hhash)
  · exact fun e he => hzero _ (hin₁ e he)
  · exact fun e he => hzero _ (hin₂ e he)
  · rw [← h₁.wf.latest, ← h₂.wf.latest]
    exact htip

/-- The ledger of node 1, which recorded the event itself. -/
def recorder : Ledger :=
  ((ledgerMachine sampleHash).run (Ledger.fresh (sampleNode 1))
    [(.still sampleTime, .recordNodeJoined (sampleNode 1))]).1

/-- The ledger of node 2, which was handed the event. -/
def receiver : Ledger :=
  ((ledgerMachine sampleHash).run (Ledger.fresh (sampleNode 2))
    [(.still sampleTime, .addExternalEvent sampleJoin)]).1

private theorem recorder_events : recorder.events = [sampleJoin] := by decide +kernel

private theorem receiver_events : receiver.events = [sampleJoin] := by decide +kernel

/-- The recording and the receiving node reach one tip by different calls. -/
theorem recorder_receiver_same_events :
    recorder.events = receiver.events ∧ recorder.events ≠ [] := by
  have hinputs : chainInputs recorder receiver = {sampleJoin.toBytes} := by
    unfold chainInputs
    rw [recorder_events, receiver_events]
    ext b
    simp [eq_comm]
  refine ⟨?_, by rw [recorder_events]; exact List.cons_ne_nil _ _⟩
  refine same_latestHash_same_events sampleHash recorder receiver
    ⟨sampleNode 1, _, rfl⟩ ⟨sampleNode 2, _, rfl⟩ ?_ ?_ (by decide +kernel)
  · rw [hinputs]
    exact Set.injOn_singleton _ _
  · intro b _
    exact sampleHash_ne_zero b

end Cashew.Theorems.LedgerHistory
