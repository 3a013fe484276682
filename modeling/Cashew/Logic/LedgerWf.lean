import Cashew.Ledger.Ledger

/-!
# The ledger invariant

`Wf` ties the five pieces of a ledger's state to its event list: the id lookup,
the index and the latest hash are functions of the list, and the list is a hash
chain without repeated ids. Every state change is an `append` of an event that
`Accepts` describes (`call_cases`), so `Wf` has one preservation lemma
(`append_wf`) and the rest of the development never looks inside a call again.
-/

namespace Cashew

open Cashew.Lib

namespace Ledger

variable {H : Bytes → Hash256}

/-- How ledger events are chained: the previous hash of an event against the
hash of the event before it, zero in front. -/
def links (H : Bytes → Hash256) : HashChain.Links LedgerEvent Hash256 where
  genesis := FixedBytes.zero
  prev := LedgerEvent.previousHash
  digest := LedgerEvent.computeHash H

/-- The event fits on top of the ledger: its id is new and it names the tip. -/
structure Accepts (H : Bytes → Hash256) (l : Ledger) (e : LedgerEvent) : Prop where
  idFresh : l.eventLookup.find? e.eventId = none
  prev : e.previousHash = (links H).tip l.events

/-- The invariant of a ledger. -/
structure Wf (H : Bytes → Hash256) (l : Ledger) : Prop where
  idsNodup : (l.events.map LedgerEvent.eventId).Nodup
  lookup : ∀ id i, l.eventLookup.find? id = some i ↔
    (l.events[i]?).map LedgerEvent.eventId = some id
  linked : (links H).Linked l.events
  latest : l.latestHash = (links H).tip l.events
  index : l.index = LedgerIndex.rebuildFromEvents l.events

/-! ## What the two validators check -/

theorem verifyEventChain_iff (l : Ledger) (now : Time) (e : LedgerEvent) :
    l.verifyEventChain H now e = true ↔
      e.previousHash = (links H).tip l.events ∧
      (l.events ≠ [] → e.timestamp ≤ now.skewLimit) := by
  unfold verifyEventChain HashChain.Links.tip
  cases hlast : l.events.getLast? with
  | none =>
    have hnil : l.events = [] := List.getLast?_eq_none_iff.mp hlast
    simp [hnil, links]
  | some last =>
    have hne : l.events ≠ [] := by
      intro hnil
      simp [hnil] at hlast
    by_cases hprev : e.previousHash = last.computeHash H
    · simp [hprev, hne, links]
    · simp [hprev, links]

theorem verifyEvent_iff (l : Ledger) (clock : Clock) (e : LedgerEvent) :
    l.verifyEvent H clock e = true ↔
      Accepts H l e ∧ (l.events ≠ [] → e.timestamp ≤ (clock.read 0).skewLimit) ∧
      e.timestamp ≤ (clock.read 1).skewLimit := by
  unfold verifyEvent
  cases hlook : l.eventLookup.contains e.eventId with
  | true =>
    simp only [if_true, Bool.false_eq_true, false_iff]
    rintro ⟨haccepts, _⟩
    rw [OrdMap.contains_eq_false.mpr haccepts.idFresh] at hlook
    cases hlook
  | false =>
    have hfresh := OrdMap.contains_eq_false.mp hlook
    cases hchain : l.verifyEventChain H (clock.read 0) e with
    | true =>
      obtain ⟨hprev, hts⟩ := (verifyEventChain_iff l _ e).mp hchain
      have haccepts : Accepts H l e := ⟨hfresh, hprev⟩
      simp only [Bool.false_eq_true, if_false, Bool.not_true, haccepts, true_and]
      constructor
      · intro h
        exact ⟨hts, by simpa using h⟩
      · rintro ⟨_, hle⟩
        simpa using hle
    | false =>
      simp only [Bool.not_false, if_true, Bool.false_eq_true, if_false, false_iff]
      rintro ⟨haccepts, hts, _⟩
      have := (verifyEventChain_iff l (clock.read 0) e).mpr ⟨haccepts.prev, hts⟩
      rw [hchain] at this
      exact absurd this (by decide)

/-! ## What a call can do -/

theorem addEvent_of_verify {l : Ledger} {clock : Clock} {e : LedgerEvent}
    (h : l.verifyEvent H clock e = true) : l.addEvent H clock e = (l.append H e, e.eventId) := by
  unfold addEvent
  rw [h]
  rfl

theorem addEvent_of_not_verify {l : Ledger} {clock : Clock} {e : LedgerEvent}
    (h : l.verifyEvent H clock e = false) : l.addEvent H clock e = (l, FixedBytes.zero) := by
  unfold addEvent
  rw [h]
  rfl

theorem addEvent_cases (l : Ledger) (clock : Clock) (e : LedgerEvent) :
    (l.addEvent H clock e).1 = l ∨
      (Accepts H l e ∧ (l.addEvent H clock e).1 = l.append H e) := by
  cases hv : l.verifyEvent H clock e with
  | false => exact .inl (by rw [addEvent_of_not_verify hv])
  | true =>
    have haccepts := ((verifyEvent_iff l clock e).mp hv).1
    exact .inr ⟨haccepts, by rw [addEvent_of_verify hv]⟩

/-- `add_external_event` returns true exactly for an event that fits and, on a
non-empty ledger, is not too far ahead of the first clock reading. -/
theorem addExternalEvent_snd_iff (l : Ledger) (clock : Clock) (e : LedgerEvent) :
    (l.addExternalEvent H clock e).2 = true ↔
      Accepts H l e ∧ (l.events ≠ [] → e.timestamp ≤ (clock.read 0).skewLimit) := by
  unfold addExternalEvent
  cases hchain : l.verifyEventChain H (clock.read 0) e with
  | false =>
    simp only [Bool.not_false, if_true, Bool.false_eq_true, false_iff]
    rintro ⟨haccepts, hts⟩
    rw [(verifyEventChain_iff l _ e).mpr ⟨haccepts.prev, hts⟩] at hchain
    cases hchain
  | true =>
    obtain ⟨hprev, hts⟩ := (verifyEventChain_iff l _ e).mp hchain
    cases hlook : l.eventLookup.contains e.eventId with
    | true =>
      simp only [Bool.not_true, Bool.false_eq_true, if_false, if_true, false_iff]
      rintro ⟨haccepts, _⟩
      rw [OrdMap.contains_eq_false.mpr haccepts.idFresh] at hlook
      cases hlook
    | false =>
      simp only [Bool.not_true, Bool.false_eq_true, if_false, true_iff]
      exact ⟨⟨OrdMap.contains_eq_false.mp hlook, hprev⟩, hts⟩

/-- A refused event leaves the ledger alone; otherwise the ledger is whatever
`add_event` makes of it. -/
theorem addExternalEvent_fst (l : Ledger) (clock : Clock) (e : LedgerEvent) :
    (l.addExternalEvent H clock e).1 =
      if (l.addExternalEvent H clock e).2 then (l.addEvent H (clock.after 1) e).1 else l := by
  unfold addExternalEvent
  split
  · rfl
  · split
    · rfl
    · rfl

/-- An event that fits is appended when every reading accepts its timestamp. -/
theorem addExternalEvent_of_accepts {l : Ledger} {clock : Clock} {e : LedgerEvent}
    (haccepts : Accepts H l e) (hts : ∀ i, e.timestamp ≤ (clock.read i).skewLimit) :
    l.addExternalEvent H clock e = (l.append H e, true) := by
  have hsnd : (l.addExternalEvent H clock e).2 = true :=
    (addExternalEvent_snd_iff l clock e).mpr ⟨haccepts, fun _ => hts 0⟩
  have hverify : l.verifyEvent H (clock.after 1) e = true :=
    (verifyEvent_iff l _ e).mpr ⟨haccepts, fun _ => hts 1, hts 2⟩
  refine Prod.ext ?_ hsnd
  rw [addExternalEvent_fst, hsnd, if_pos rfl, addEvent_of_verify hverify]

theorem addExternalEvent_cases (l : Ledger) (clock : Clock) (e : LedgerEvent) :
    (l.addExternalEvent H clock e).1 = l ∨
      (Accepts H l e ∧ (l.addExternalEvent H clock e).1 = l.append H e) := by
  rw [addExternalEvent_fst]
  split
  · exact addEvent_cases l (clock.after 1) e
  · exact .inl rfl

/-- A `record_*` call advances the counter and may append the event it made. -/
theorem record_cases (l : Ledger) (clock : Clock) (type : EventType) (data : Bytes) :
    ∃ c, (l.record H clock type data).1 = { l with eventCounter := c } ∨
      ∃ e, Accepts H l e ∧
        (l.record H clock type data).1 = { l with eventCounter := c }.append H e := by
  refine ⟨l.eventCounter + 1, ?_⟩
  obtain h | ⟨haccepts, h⟩ := addEvent_cases (H := H) (l.createEvent H clock type data).1
    (clock.after 2) (l.createEvent H clock type data).2
  · exact .inl h
  · exact .inr ⟨_, ⟨haccepts.idFresh, haccepts.prev⟩, h⟩

/-- When a `record_*` call appends an event, it is the one it made. -/
theorem record_eq {l : Ledger} {clock : Clock} {type : EventType} {data : Bytes}
    {e : LedgerEvent} (h : (l.record H clock type data).1.events = l.events ++ [e]) :
    e = (l.createEvent H clock type data).2 := by
  obtain hsame | ⟨_, happend⟩ := addEvent_cases (H := H)
    (l.createEvent H clock type data).1 (clock.after 2) (l.createEvent H clock type data).2
  · -- creating an event touches the counter only
    have hevents : l.events = l.events ++ [e] := (congrArg Ledger.events hsame).symm.trans h
    exact absurd (List.self_eq_append_right.mp hevents) (List.cons_ne_nil e [])
  · have hevents : (l.record H clock type data).1.events =
        l.events ++ [(l.createEvent H clock type data).2] := congrArg Ledger.events happend
    rw [hevents] at h
    exact (List.singleton_inj.mp (List.append_cancel_left h)).symm

/-- **What a call can do to a ledger**: nothing but count, or append one event
that fits. -/
theorem call_cases (l : Ledger) (clock : Clock) (c : LedgerCall) :
    ∃ n, (l.call H clock c).1 = { l with eventCounter := n } ∨
      ∃ e, Accepts H l e ∧
        (l.call H clock c).1 = { l with eventCounter := n }.append H e := by
  cases c with
  | addExternalEvent e =>
    refine ⟨l.eventCounter, ?_⟩
    obtain h | ⟨haccepts, h⟩ := addExternalEvent_cases (H := H) l clock e
    · exact .inl h
    · exact .inr ⟨e, haccepts, h⟩
  | recordNodeJoined => exact record_cases l clock _ _
  | recordNodeLeft => exact record_cases l clock _ _
  | recordKeyIssued => exact record_cases l clock _ _
  | recordKeyRevoked => exact record_cases l clock _ _
  | recordNetworkCreated => exact record_cases l clock _ _
  | recordNetworkMemberAdded => exact record_cases l clock _ _
  | recordThingReplicated => exact record_cases l clock _ _
  | recordReputationUpdate => exact record_cases l clock _ _

/-- No call changes whose ledger it is. -/
theorem call_localNodeId (l : Ledger) (clock : Clock) (c : LedgerCall) :
    (l.call H clock c).1.localNodeId = l.localNodeId := by
  obtain ⟨n, hn | ⟨e, _, hn⟩⟩ := call_cases (H := H) l clock c
  · rw [hn]
  · rw [hn]
    rfl

theorem run_localNodeId (l : Ledger) (calls : List (Clock × LedgerCall)) :
    ((ledgerMachine H).run l calls).1.localNodeId = l.localNodeId :=
  (ledgerMachine H).run_invariant (P := fun later => later.localNodeId = l.localNodeId)
    (fun later input h => (call_localNodeId later input.1 input.2).trans h) rfl calls

/-! ## Preservation -/

theorem fresh_wf (localNodeId : NodeID) : Wf H (fresh localNodeId) where
  idsNodup := List.nodup_nil
  lookup := by
    intro id i
    show none = some i ↔ _
    simp [fresh]
  linked := .nil
  latest := rfl
  index := rfl

/-- The counter is not part of the invariant. -/
theorem Wf.setCounter {l : Ledger} (h : Wf H l) (n : UInt64) :
    Wf H { l with eventCounter := n } :=
  ⟨h.idsNodup, h.lookup, h.linked, h.latest, h.index⟩

/-- The lookup knows exactly the ids in the list. -/
theorem Wf.find?_eq_none {l : Ledger} (h : Wf H l) (id : Hash256) :
    l.eventLookup.find? id = none ↔ id ∉ l.events.map LedgerEvent.eventId := by
  constructor
  · intro hnone hmem
    obtain ⟨i, hi⟩ := List.mem_iff_getElem?.mp hmem
    rw [List.getElem?_map] at hi
    rw [(h.lookup id i).mpr hi] at hnone
    cases hnone
  · intro hmem
    cases hfind : l.eventLookup.find? id with
    | none => rfl
    | some i =>
      have hi := (h.lookup id i).mp hfind
      rw [← List.getElem?_map] at hi
      exact absurd (List.mem_of_getElem? hi) hmem

/-- The events, the owner and the counter determine the rest. -/
theorem Wf.ext {l₁ l₂ : Ledger} (h₁ : Wf H l₁) (h₂ : Wf H l₂) (hevents : l₁.events = l₂.events)
    (howner : l₁.localNodeId = l₂.localNodeId) (hcounter : l₁.eventCounter = l₂.eventCounter) :
    l₁ = l₂ := by
  have hlookup : l₁.eventLookup = l₂.eventLookup := by
    refine OrdMap.ext fun id => Option.ext fun i => ?_
    rw [h₁.lookup, h₂.lookup, hevents]
  have hindex : l₁.index = l₂.index := by rw [h₁.index, h₂.index, hevents]
  have hlatest : l₁.latestHash = l₂.latestHash := by rw [h₁.latest, h₂.latest, hevents]
  cases l₁
  cases l₂
  cases hevents
  cases howner
  cases hcounter
  cases hlookup
  cases hindex
  cases hlatest
  rfl

/-- Where the ids stand once an event with a new id is appended. -/
theorem position_snoc {events : List LedgerEvent} {e : LedgerEvent}
    (hfresh : e.eventId ∉ events.map LedgerEvent.eventId) (id : Hash256) (i : Nat) :
    ((events ++ [e])[i]?).map LedgerEvent.eventId = some id ↔
      if e.eventId = id then i = events.length
      else (events[i]?).map LedgerEvent.eventId = some id := by
  have hold : i ≠ events.length → (events ++ [e])[i]? = events[i]? := by
    intro hne
    rcases Nat.lt_or_gt_of_ne hne with hlt | hgt
    · exact List.getElem?_append_left hlt
    · have hlen : (events ++ [e]).length ≤ i := by
        rw [List.length_append, List.length_singleton]
        omega
      rw [List.getElem?_eq_none hlen, List.getElem?_eq_none (by omega)]
  by_cases hi : i = events.length
  · subst hi
    by_cases hid : e.eventId = id
    · simp [hid]
    · simp [hid]
  · rw [hold hi]
    by_cases hid : e.eventId = id
    · -- no old event has the new id
      rw [if_pos hid]
      constructor
      · intro hat
        rw [← hid] at hat
        obtain ⟨a, ha, haid⟩ := Option.map_eq_some_iff.mp hat
        exact absurd (haid ▸ List.mem_map_of_mem (List.mem_of_getElem? ha)) hfresh
      · intro heq
        exact absurd heq hi
    · rw [if_neg hid]

theorem append_wf {l : Ledger} {e : LedgerEvent} (h : Wf H l) (haccepts : Accepts H l e) :
    Wf H (l.append H e) where
  idsNodup := by
    have hfresh := (h.find?_eq_none e.eventId).mp haccepts.idFresh
    show ((l.events ++ [e]).map LedgerEvent.eventId).Nodup
    rw [List.map_append, List.map_singleton]
    exact List.nodup_append.mpr ⟨h.idsNodup, List.nodup_singleton _, by
      intro a ha b hb
      rw [List.mem_singleton.mp hb]
      exact fun heq => hfresh (heq ▸ ha)⟩
  lookup := by
    intro id i
    show (l.eventLookup.insert e.eventId l.events.length).find? id = some i ↔
      ((l.events ++ [e])[i]?).map LedgerEvent.eventId = some id
    have hfresh := (h.find?_eq_none e.eventId).mp haccepts.idFresh
    rw [OrdMap.find?_insert, position_snoc hfresh]
    by_cases hid : e.eventId = id
    · rw [if_pos hid, if_pos hid, Option.some.injEq, eq_comm]
    · rw [if_neg hid, if_neg hid, h.lookup id i]
  linked := h.linked.snoc haccepts.prev
  latest := by
    show e.computeHash H = (links H).tip (l.events ++ [e])
    rw [HashChain.Links.tip_snoc]
    rfl
  index := by
    show l.index.addEvent e = LedgerIndex.rebuildFromEvents (l.events ++ [e])
    rw [h.index, LedgerIndex.rebuildFromEvents_snoc]

/-- One call preserves the invariant. -/
theorem call_wf (l : Ledger) (clock : Clock) (c : LedgerCall) (h : Wf H l) :
    Wf H (l.call H clock c).1 := by
  obtain ⟨n, hn | ⟨e, haccepts, hn⟩⟩ := call_cases (H := H) l clock c
  · rw [hn]
    exact h.setCounter n
  · rw [hn]
    exact append_wf (h.setCounter n) ⟨haccepts.idFresh, haccepts.prev⟩

/-- Every run of calls preserves the invariant. -/
theorem run_wf {l : Ledger} (h : Wf H l) (calls : List (Clock × LedgerCall)) :
    Wf H ((ledgerMachine H).run l calls).1 :=
  (ledgerMachine H).run_invariant (fun l input hl => call_wf l input.1 input.2 hl) h calls

theorem Reachable.wf {l : Ledger} (h : Reachable H l) : Wf H l := by
  obtain ⟨localNodeId, calls, rfl⟩ := h
  exact run_wf (fresh_wf localNodeId) calls

end Ledger

end Cashew
