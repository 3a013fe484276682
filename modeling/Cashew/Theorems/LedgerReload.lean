import Cashew.Theorems.LedgerFile

/-!
# Loading over an old ledger

`load_from_file` clears the events, the id lookup and the index of the ledger it is called on, and
leaves the latest hash. The first event that is added puts it right. When none is, as with the
file of an empty ledger, the latest hash is still that of an event that is gone, and every event
the ledger records from then on names it and is refused. `reload_iff` gives the condition, for any
file and for the files that `save_to_file` writes.
-/

namespace Cashew.Theorems.LedgerReload

open Cashew Cashew.Lib LedgerFile

/-! ## The property -/

/-- The latest hash is the hash of the last event, and the next event that is recorded under a new
id is appended. -/
structure Restored (H : Bytes → Hash256) (l : Ledger) : Prop where
  latest : l.latestHash = (Ledger.links H).tip l.events
  appends : ∀ (clock : Clock) (type : EventType) (data : Bytes), clock.NonDecreasing →
    l.eventLookup.find? (l.createEvent H clock type data).2.eventId = none →
    ∃ e, (l.record H clock type data).1.events = l.events ++ [e]

/-- The event in the bytes of one round. -/
def frameEvent (bytes : Bytes) : Option LedgerEvent := (LedgerEvent.fromBytes bytes).toOption

/-- The events that can be read from a file, in order, whether or not they can be added. -/
def fileEvents (file : Bytes) : Outcome (List LedgerEvent) :=
  (do
    let count ← Decoder.le 8
    let frames ← Decoder.replicate Ledger.readFrame count
    pure (frames.filterMap frameEvent)).run file

/-- Some event can start a chain: it names the zero hash and is not too far ahead of the clock at
the second reading made for it. -/
def Starts (clock : Clock) (events : List LedgerEvent) : Prop :=
  ∃ j e, events[j]? = some e ∧ e.previousHash = FixedBytes.zero ∧
    e.timestamp ≤ (clock.read (2 * j + 1)).skewLimit

theorem not_starts_nil (clock : Clock) : ¬ Starts clock [] := by
  rintro ⟨j, e, he, _⟩
  cases he

theorem starts_cons {clock : Clock} {e : LedgerEvent} {rest : List LedgerEvent} :
    Starts clock (e :: rest) ↔
      (e.previousHash = FixedBytes.zero ∧ e.timestamp ≤ (clock.read 1).skewLimit) ∨
        Starts (clock.after 2) rest := by
  constructor
  · rintro ⟨j, a, ha, hprev, hstamp⟩
    cases j with
    | zero =>
      cases ha
      exact .inl ⟨hprev, hstamp⟩
    | succ j => exact .inr ⟨j, a, ha, hprev, hstamp⟩
  · rintro (⟨hprev, hstamp⟩ | ⟨j, a, ha, hprev, hstamp⟩)
    · exact ⟨0, e, rfl, hprev, hstamp⟩
    · exact ⟨j + 1, a, ha, hprev, hstamp⟩

section Load

variable {H : Bytes → Hash256}

/-! ## A latest hash that fits is all it takes -/

theorem restored_iff (l : Ledger) :
    Restored H l ↔ l.latestHash = (Ledger.links H).tip l.events := by
  refine ⟨Restored.latest, fun hlatest => ⟨hlatest, ?_⟩⟩
  intro clock type data hclock hfresh
  have hstamp : ∀ i, (clock.read 0).secs ≤ (clock.read i).skewLimit := by
    intro i
    have hle := hclock 0 i (Nat.zero_le i)
    rw [UInt64.le_iff_toNat_le, Time.skewLimit_toNat]
    omega
  -- the event names the latest hash and is dated by the first reading
  have hverify : (l.createEvent H clock type data).1.verifyEvent H (clock.after 2)
      (l.createEvent H clock type data).2 = true :=
    (Ledger.verifyEvent_iff _ _ _).mpr ⟨⟨hfresh, hlatest⟩, fun _ => hstamp 2, hstamp 3⟩
  refine ⟨(l.createEvent H clock type data).2, ?_⟩
  exact congrArg (fun result => result.1.events) (Ledger.addEvent_of_verify hverify)

/-! ## The loop -/

variable (H) in
/-- The loop of `load_from_file` over the events it decodes. -/
def addAll (l : Ledger) (clock : Clock) : List LedgerEvent → Ledger
  | [] => l
  | e :: rest => addAll (l.addEvent H clock e).1 (clock.after 2) rest

theorem loadEvents_eq_addAll {count : Nat} {l l' : Ledger} {clock : Clock} {s rest : Bytes}
    (h : Ledger.loadEvents H l clock count s = .value (l', rest)) :
    ∃ frames, Decoder.replicate Ledger.readFrame count s = .value (frames, rest) ∧
      l' = addAll H l clock (frames.filterMap frameEvent) := by
  induction count generalizing l clock s with
  | zero =>
    cases h
    exact ⟨[], rfl, rfl⟩
  | succ count ih =>
    obtain ⟨bytes, mid, hframe, hnext⟩ := Decoder.bind_eq_value h
    cases hevent : (LedgerEvent.fromBytes bytes).toOption with
    | none =>
      rw [hevent] at hnext
      obtain ⟨frames, hframes, hl'⟩ := ih hnext
      refine ⟨bytes :: frames, Decoder.replicate_succ_value hframe hframes, ?_⟩
      rw [List.filterMap_cons_none (f := frameEvent) hevent]
      exact hl'
    | some e =>
      rw [hevent] at hnext
      obtain ⟨frames, hframes, hl'⟩ := ih hnext
      refine ⟨bytes :: frames, Decoder.replicate_succ_value hframe hframes, ?_⟩
      rw [List.filterMap_cons_some (f := frameEvent) hevent]
      exact hl'

theorem append_latest (l : Ledger) (e : LedgerEvent) :
    (l.append H e).latestHash = (Ledger.links H).tip (l.append H e).events :=
  (HashChain.Links.tip_snoc (k := Ledger.links H) l.events e).symm

theorem addEvent_latest {l : Ledger} (h : l.latestHash = (Ledger.links H).tip l.events)
    (clock : Clock) (e : LedgerEvent) :
    (l.addEvent H clock e).1.latestHash =
      (Ledger.links H).tip (l.addEvent H clock e).1.events := by
  obtain hsame | ⟨_, happend⟩ := Ledger.addEvent_cases (H := H) l clock e
  · rw [hsame]
    exact h
  · rw [happend]
    exact append_latest l e

theorem addAll_latest {events : List LedgerEvent} {l : Ledger} (clock : Clock)
    (h : l.latestHash = (Ledger.links H).tip l.events) :
    (addAll H l clock events).latestHash =
      (Ledger.links H).tip (addAll H l clock events).events := by
  induction events generalizing l clock with
  | nil => exact h
  | cons e rest ih => exact ih (clock.after 2) (addEvent_latest h clock e)

/-- From a cleared ledger: an old latest hash goes when the first event is added, and not
before. -/
theorem addAll_latest_iff {l : Ledger} (hevents : l.events = []) (hlookup : l.eventLookup = .empty)
    (clock : Clock) (events : List LedgerEvent) :
    (addAll H l clock events).latestHash = (Ledger.links H).tip (addAll H l clock events).events ↔
      l.latestHash = FixedBytes.zero ∨ Starts clock events := by
  induction events generalizing clock with
  | nil =>
    show l.latestHash = (Ledger.links H).tip l.events ↔ _
    rw [hevents]
    exact (or_iff_left (not_starts_nil clock)).symm
  | cons e rest ih =>
    -- in an empty ledger the old latest hash is not looked at
    have hfirst : l.verifyEvent H clock e = true ↔
        e.previousHash = FixedBytes.zero ∧ e.timestamp ≤ (clock.read 1).skewLimit := by
      rw [Ledger.verifyEvent_iff]
      constructor
      · rintro ⟨haccepts, _, hstamp⟩
        have hprev := haccepts.prev
        rw [hevents] at hprev
        exact ⟨hprev, hstamp⟩
      · rintro ⟨hprev, hstamp⟩
        refine ⟨⟨by rw [hlookup]; rfl, ?_⟩, fun hne => absurd hevents hne, hstamp⟩
        rw [hevents]
        exact hprev
    rw [starts_cons, ← hfirst]
    cases hverify : l.verifyEvent H clock e with
    | true =>
      refine iff_of_true ?_ (.inr (.inl rfl))
      show (addAll H (l.addEvent H clock e).1 (clock.after 2) rest).latestHash = _
      refine addAll_latest (clock.after 2) ?_
      rw [Ledger.addEvent_of_verify hverify]
      exact append_latest l e
    | false =>
      have hsame : addAll H l clock (e :: rest) = addAll H l (clock.after 2) rest := by
        rw [addAll, Ledger.addEvent_of_not_verify hverify]
      rw [hsame, ih (clock.after 2), or_iff_right (a := false = true) Bool.false_ne_true]

/-! ## Saved files -/

/-- The file of a ledger whose events fit their size fields holds these events. -/
theorem fileEvents_saveToFile {l : Ledger} (hsize : ∀ e ∈ l.events, e.toBytes.length < 2 ^ 32)
    (hcount : l.events.length < 2 ^ 64) : fileEvents l.saveToFile = .value l.events := by
  have hcount8 : l.events.length < 256 ^ 8 := lt_of_lt_of_eq hcount (by norm_num)
  have hframes : Decodes (Decoder.replicate Ledger.readFrame l.events.length)
      (l.events.flatMap Ledger.frame) (l.events.map LedgerEvent.toBytes) := by
    have hall : Decodes
        (Decoder.replicate Ledger.readFrame (l.events.map LedgerEvent.toBytes).length)
        ((l.events.map LedgerEvent.toBytes).flatMap fun bytes =>
          leBytes 4 bytes.length ++ bytes) (l.events.map LedgerEvent.toBytes) := by
      refine Decodes.replicate fun bytes hbytes => ?_
      obtain ⟨e, he, rfl⟩ := List.mem_map.mp hbytes
      exact readFrame_decodes (hsize e he)
    rw [List.length_map, List.flatMap_map] at hall
    exact hall
  have hback : (l.events.map LedgerEvent.toBytes).filterMap frameEvent = l.events := by
    rw [List.filterMap_map, List.filterMap_congr (g := some), List.filterMap_some]
    intro e he
    have hdata : e.data.length < 2 ^ 32 := by
      have := hsize e he
      rw [LedgerEvent.toBytes_length] at this
      omega
    exact congrArg Outcome.toOption (LedgerEvent.fromBytes_toBytes e hdata)
  have hevents : Decodes (Decoder.le 8 >>= fun count =>
      Decoder.replicate Ledger.readFrame count >>= fun frames =>
        pure (frames.filterMap frameEvent)) l.saveToFile l.events := by
    refine (Decodes.le hcount8).bind ?_
    have hread := hframes.bind_pure (f := fun frames => frames.filterMap frameEvent)
    rw [hback] at hread
    exact hread
  exact hevents.run

/-- The first event of a ledger starts a chain. -/
theorem starts_of_dated {l : Ledger} (hwf : Ledger.Wf H l) {saved : Time} (hdated : DatedBy saved l)
    {clock : Clock} (hclock : ∀ i, saved.secs.toNat ≤ (clock.read i).secs.toNat)
    (hne : l.events ≠ []) : Starts clock l.events := by
  obtain ⟨e, rest, hevents⟩ := List.exists_cons_of_ne_nil hne
  have hlinked : (Ledger.links H).Linked ([] ++ e :: rest) := by
    rw [List.nil_append, ← hevents]
    exact hwf.linked
  refine ⟨0, e, by rw [hevents]; rfl, hlinked.prev_eq_tip, ?_⟩
  have hstamp := hdated e (by rw [hevents]; exact List.mem_cons_self)
  exact UInt64.le_trans hstamp (Time.skewLimit_mono (hclock 1))

end Load

/-- **Loading over an old ledger.** Whatever the ledger and the file, once `load_from_file` has
returned true the latest hash fits and the next event is appended if and only if the latest hash
was zero before or the file holds an event that can start a chain. A file that was saved from a
ledger built by any run of calls, no later than it is loaded, holds one if and only if that ledger
had any events. -/
theorem reload_iff (H : Bytes → Hash256) (clock : Clock) :
    (∀ (l l' : Ledger) (file : Bytes), l.loadFromFile H clock (some file) = .value (l', true) →
      (Restored H l' ↔ l.latestHash = FixedBytes.zero ∨
        ∃ events, fileEvents file = .value events ∧ Starts clock events)) ∧
    ∀ (localNodeId : NodeID) (calls : List (Clock × LedgerCall)) (saved : Time),
      (∀ input ∈ calls, ∀ i, (input.1.read i).secs.toNat ≤ saved.secs.toNat) →
      (∀ i, saved.secs.toNat ≤ (clock.read i).secs.toNat) →
      let m := ((ledgerMachine H).run (Ledger.fresh localNodeId) calls).1
      (∀ e ∈ m.events, e.toBytes.length < 2 ^ 32) → m.events.length < 2 ^ 64 →
      ((∃ events, fileEvents m.saveToFile = .value events ∧ Starts clock events) ↔
        m.events ≠ []) := by
  refine ⟨?_, ?_⟩
  · intro l l' file h
    obtain ⟨rest, h⟩ := Decoder.run_eq_value h
    obtain ⟨count, mid, hcount, h⟩ := Decoder.bind_eq_value h
    obtain ⟨loaded, mid', hloaded, h⟩ := Decoder.bind_eq_value h
    cases h
    obtain ⟨frames, hframes, rfl⟩ := loadEvents_eq_addAll hloaded
    -- the events added are those of the file's frames that decode
    have hfile : fileEvents file = .value (frames.filterMap frameEvent) := by
      unfold fileEvents Decoder.run
      rw [Decoder.bind_apply, hcount]
      dsimp only
      rw [Decoder.bind_apply, hframes]
      rfl
    rw [restored_iff, addAll_latest_iff rfl rfl, hfile]
    simp
  · intro localNodeId calls saved hbefore hafter m hsize hcount
    have hwf : Ledger.Wf H m := Ledger.run_wf (Ledger.fresh_wf localNodeId) calls
    rw [fileEvents_saveToFile hsize hcount]
    -- the first event of a run's ledger starts a chain at any later time
    constructor
    · rintro ⟨events, heq, hstarts⟩ hnil
      cases heq
      rw [hnil] at hstarts
      exact not_starts_nil clock hstarts
    · exact fun hne => ⟨_, rfl, starts_of_dated hwf (run_datedBy localNodeId hbefore) hafter hne⟩

/-- Node 1's ledger with one event. -/
def joined : Ledger :=
  ((Ledger.fresh (sampleNode 1)).recordNodeJoined sampleHash (.still sampleTime) (sampleNode 1)).1

/-- It loads the file of an empty ledger: there are no events, the latest hash is that of the
event that is gone, and the next event is not appended. -/
theorem emptyFile_not_restored :
    let cleared := { joined with events := [], eventLookup := .empty, index := .empty }
    joined.events ≠ [] ∧
      joined.loadFromFile sampleHash (.still sampleTime)
        (some (Ledger.fresh (sampleNode 2)).saveToFile) = .value (cleared, true) ∧
      cleared.latestHash ≠ FixedBytes.zero ∧
      (cleared.recordNodeJoined sampleHash (.still sampleTime) (sampleNode 1)).1.events = [] ∧
      ¬ Restored sampleHash cleared := by
  intro cleared
  have hlatest : cleared.latestHash ≠ FixedBytes.zero := sampleHash_ne_zero _
  refine ⟨by decide, rfl, hlatest, ?_, ?_⟩
  · decide +kernel
  · exact fun hrestored => hlatest hrestored.latest

end Cashew.Theorems.LedgerReload
