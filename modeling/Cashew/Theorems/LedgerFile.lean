import Cashew.Ledger.Ledger
import Cashew.Logic.LedgerWf

/-!
# Events and ledgers as bytes

The layout of an event is read back exactly (`event_codec`), and a ledger that
was written to a file is read back event by event: each event fits on top of
those read before it, so nothing is skipped (`save_load`).
-/

namespace Cashew.Theorems.LedgerFile

open Cashew Cashew.Lib

/-! ## One event -/

/-- **Event layout.** `from_bytes` undoes `to_bytes`; it never reads past its
input, whatever the input; and what it yields encodes to a prefix of the input. -/
theorem event_codec :
    (∀ e : LedgerEvent, e.data.length < 2 ^ 32 → LedgerEvent.fromBytes e.toBytes = .value e) ∧
    (∀ b : Bytes, LedgerEvent.fromBytes b ≠ .outOfBounds) ∧
    (∀ (b : Bytes) (e : LedgerEvent), LedgerEvent.fromBytes b = .value e → e.toBytes <+: b) := by
  refine ⟨?_, ?_, ?_⟩
  · exact LedgerEvent.fromBytes_toBytes
  · intro b
    exact (LedgerEvent.decoder_inBounds 0).run
  · intro b e h
    exact LedgerEvent.decoder_spells.run h

/-- An event by itself, and with a byte too many behind it. -/
theorem event_codec_sampleJoin :
    LedgerEvent.fromBytes sampleJoin.toBytes = .value sampleJoin ∧
      sampleJoin.toBytes <+: sampleJoin.toBytes ++ [0] := by
  have hread : LedgerEvent.fromBytes (sampleJoin.toBytes ++ [0]) = .value sampleJoin := by
    decide +kernel
  exact ⟨event_codec.1 sampleJoin (by decide), event_codec.2.2 _ _ hread⟩

/-! ## A whole ledger -/

/-- The bytes of one event come back whole. -/
theorem readFrame_decodes {bytes : Bytes} (h : bytes.length < 2 ^ 32) :
    Decodes Ledger.readFrame (leBytes 4 bytes.length ++ bytes) bytes := by
  have hsize : bytes.length < 256 ^ 4 := h
  refine (Decodes.le hsize).bind ?_
  intro post
  simp [Ledger.readBuffer]

section Load

variable {H : Bytes → Hash256}

theorem events_foldl_append (l : Ledger) (back : List LedgerEvent) :
    (back.foldl (Ledger.append H) l).events = l.events ++ back ∧
      (back.foldl (Ledger.append H) l).localNodeId = l.localNodeId ∧
      (back.foldl (Ledger.append H) l).eventCounter = l.eventCounter := by
  induction back generalizing l with
  | nil => exact ⟨(List.append_nil _).symm, rfl, rfl⟩
  | cons e rest ih =>
    obtain ⟨hevents, howner, hcounter⟩ := ih (l.append H e)
    refine ⟨?_, howner, hcounter⟩
    rw [List.foldl_cons, hevents]
    show (l.events ++ [e]) ++ rest = l.events ++ e :: rest
    rw [List.append_assoc, List.singleton_append]

/-- Reading on top of a ledger the events that continue it appends them all. -/
theorem loadEvents_decodes {back : List LedgerEvent} :
    ∀ {l : Ledger} (clock : Clock), Ledger.Wf H l →
      (Ledger.links H).Linked (l.events ++ back) →
      ((l.events ++ back).map LedgerEvent.eventId).Nodup →
      (∀ e ∈ back, e.toBytes.length < 2 ^ 32) →
      (∀ e ∈ back, ∀ i, e.timestamp ≤ (clock.read i).skewLimit) →
      Decodes (Ledger.loadEvents H l clock back.length) (back.flatMap Ledger.frame)
          (back.foldl (Ledger.append H) l) ∧
        Ledger.Wf H (back.foldl (Ledger.append H) l) := by
  induction back with
  | nil => exact fun _ hwf _ _ _ _ => ⟨Decodes.pure _, hwf⟩
  | cons e rest ih =>
    intro l clock hwf hlinked hnodup hsize hstamp
    have hdata : e.data.length < 2 ^ 32 := by
      have := hsize e List.mem_cons_self
      rw [LedgerEvent.toBytes_length] at this
      omega
    -- the event names the tip and its id is new
    have haccepts : Ledger.Accepts H l e := by
      refine ⟨(hwf.find?_eq_none _).mpr ?_, hlinked.prev_eq_tip⟩
      intro hmem
      rw [List.map_append, List.map_cons] at hnodup
      exact (List.nodup_append.mp hnodup).2.2 _ hmem _ List.mem_cons_self rfl
    have hverify : l.verifyEvent H clock e = true := by
      have hts := hstamp e List.mem_cons_self
      exact (Ledger.verifyEvent_iff l clock e).mpr ⟨haccepts, fun _ => hts 0, hts 1⟩
    have hassoc : (l.append H e).events ++ rest = l.events ++ e :: rest := by
      show (l.events ++ [e]) ++ rest = _
      rw [List.append_assoc, List.singleton_append]
    obtain ⟨hdecodes, hwf'⟩ := ih (clock.after 2)
      (Ledger.append_wf hwf haccepts) (hassoc ▸ hlinked) (hassoc ▸ hnodup)
      (fun a ha => hsize a (List.mem_cons_of_mem e ha))
      (fun a ha i => hstamp a (List.mem_cons_of_mem e ha) (i + 2))
    refine ⟨?_, hwf'⟩
    rw [List.flatMap_cons]
    refine (readFrame_decodes (hsize e List.mem_cons_self)).bind ?_
    rw [LedgerEvent.fromBytes_toBytes e hdata]
    show Decodes (Ledger.loadEvents H (l.addEvent H clock e).1 (clock.after 2) rest.length) _ _
    rw [Ledger.addEvent_of_verify hverify]
    exact hdecodes

/-- A well-formed ledger is restored whole, but for its owner and its counter,
when no reading refuses one of its timestamps. -/
theorem loadFromFile_saveToFile {l : Ledger} {clock : Clock} (hwf : Ledger.Wf H l)
    (hsize : ∀ e ∈ l.events, e.toBytes.length < 2 ^ 32) (hcount : l.events.length < 2 ^ 64)
    (hstamp : ∀ e ∈ l.events, ∀ i, e.timestamp ≤ (clock.read i).skewLimit) (newNodeId : NodeID) :
    (Ledger.fresh newNodeId).loadFromFile H clock (some l.saveToFile) =
      .value ({ l with localNodeId := newNodeId, eventCounter := 0 }, true) := by
  obtain ⟨hdecodes, hwf'⟩ := loadEvents_decodes clock
    (Ledger.fresh_wf newNodeId) hwf.linked hwf.idsNodup hsize hstamp
  obtain ⟨hevents, howner, hcounter⟩ :=
    events_foldl_append (H := H) (Ledger.fresh newNodeId) l.events
  have hloaded : l.events.foldl (Ledger.append H) (Ledger.fresh newNodeId) =
      { l with localNodeId := newNodeId, eventCounter := 0 } :=
    hwf'.ext ⟨hwf.idsNodup, hwf.lookup, hwf.linked, hwf.latest, hwf.index⟩ hevents howner hcounter
  have hcount8 : l.events.length < 256 ^ 8 := lt_of_lt_of_eq hcount (by norm_num)
  -- a fresh ledger, cleared, is itself
  have hfile : Decodes (Decoder.le 8 >>= fun count =>
      Ledger.loadEvents H (Ledger.fresh newNodeId) clock count >>= fun l => pure (l, true))
      l.saveToFile (l.events.foldl (Ledger.append H) (Ledger.fresh newNodeId), true) :=
    (Decodes.le hcount8).bind (hdecodes.bind_pure (f := (·, true)))
  rw [← hloaded]
  exact hfile.run

/-! ## What a run has dated -/

/-- No event of the ledger is too far ahead of the time. -/
def DatedBy (t : Time) (l : Ledger) : Prop := ∀ e ∈ l.events, e.timestamp ≤ t.skewLimit

theorem addEvent_datedBy {t : Time} {l : Ledger} (clock : Clock)
    (hclock : ∀ i, (clock.read i).secs.toNat ≤ t.secs.toNat) (h : DatedBy t l) (e : LedgerEvent) :
    DatedBy t (l.addEvent H clock e).1 := by
  cases hverify : l.verifyEvent H clock e with
  | false =>
    rw [Ledger.addEvent_of_not_verify hverify]
    exact h
  | true =>
    rw [Ledger.addEvent_of_verify hverify]
    intro a ha
    rcases List.mem_append.mp ha with hold | hnew
    · exact h a hold
    · rw [List.mem_singleton.mp hnew]
      have hstamp := ((Ledger.verifyEvent_iff l clock e).mp hverify).2.2
      exact UInt64.le_trans hstamp (Time.skewLimit_mono (hclock 1))

theorem record_datedBy {t : Time} {l : Ledger} {clock : Clock}
    (hclock : ∀ i, (clock.read i).secs.toNat ≤ t.secs.toNat) (h : DatedBy t l) (type : EventType)
    (data : Bytes) : DatedBy t (l.record H clock type data).1 :=
  -- creating the event leaves the list alone
  addEvent_datedBy (l := (l.createEvent H clock type data).1) (clock.after 2)
    (fun i => hclock (i + 2)) h _

theorem call_datedBy {t : Time} {l : Ledger} {clock : Clock}
    (hclock : ∀ i, (clock.read i).secs.toNat ≤ t.secs.toNat) (h : DatedBy t l) (c : LedgerCall) :
    DatedBy t (l.call H clock c).1 := by
  cases c with
  | addExternalEvent e =>
    show DatedBy t (l.addExternalEvent H clock e).1
    rw [Ledger.addExternalEvent_fst]
    split
    · exact addEvent_datedBy _ (fun i => hclock (i + 1)) h e
    · exact h
  | recordNodeJoined => exact record_datedBy hclock h _ _
  | recordNodeLeft => exact record_datedBy hclock h _ _
  | recordKeyIssued => exact record_datedBy hclock h _ _
  | recordKeyRevoked => exact record_datedBy hclock h _ _
  | recordNetworkCreated => exact record_datedBy hclock h _ _
  | recordNetworkMemberAdded => exact record_datedBy hclock h _ _
  | recordThingReplicated => exact record_datedBy hclock h _ _
  | recordReputationUpdate => exact record_datedBy hclock h _ _

/-- A run whose clock readings are no later than `t`. -/
theorem run_datedBy {t : Time} (localNodeId : NodeID) {calls : List (Clock × LedgerCall)}
    (hclock : ∀ input ∈ calls, ∀ i, (input.1.read i).secs.toNat ≤ t.secs.toNat) :
    DatedBy t ((ledgerMachine H).run (Ledger.fresh localNodeId) calls).1 :=
  (ledgerMachine H).run_invariant_on (P := DatedBy t)
    (Q := fun input => ∀ i, (input.1.read i).secs.toNat ≤ t.secs.toNat)
    (fun _ input hinput h => call_datedBy hinput h input.2) (fun e he => by cases he) calls hclock

end Load

/-- **Saving and loading.** A ledger built by any run of calls, saved at `saved`
(no earlier than the readings before it) and loaded into a fresh ledger at or
after that time: loading succeeds and restores the events, the id lookup, the
index and the latest hash. -/
theorem save_load (H : Bytes → Hash256) (localNodeId newNodeId : NodeID)
    (calls : List (Clock × LedgerCall)) (saved : Time) (clock : Clock)
    (hbefore : ∀ input ∈ calls, ∀ i, (input.1.read i).secs.toNat ≤ saved.secs.toNat)
    (hafter : ∀ i, saved.secs.toNat ≤ (clock.read i).secs.toNat)
    (hsize : ∀ e ∈ ((ledgerMachine H).run (Ledger.fresh localNodeId) calls).1.events,
      e.toBytes.length < 2 ^ 32)
    (hcount : ((ledgerMachine H).run (Ledger.fresh localNodeId) calls).1.events.length < 2 ^ 64) :
    let l := ((ledgerMachine H).run (Ledger.fresh localNodeId) calls).1
    ∃ loaded, (Ledger.fresh newNodeId).loadFromFile H clock (some l.saveToFile) =
        .value (loaded, true) ∧
      loaded.events = l.events ∧ loaded.eventLookup = l.eventLookup ∧
      loaded.index = l.index ∧ loaded.latestHash = l.latestHash := by
  intro l
  have hwf : Ledger.Wf H l := Ledger.run_wf (Ledger.fresh_wf localNodeId) calls
  have hdated : DatedBy saved l := run_datedBy localNodeId hbefore
  have hstamp : ∀ e ∈ l.events, ∀ i, e.timestamp ≤ (clock.read i).skewLimit :=
    fun e he i => UInt64.le_trans (hdated e he) (Time.skewLimit_mono (hafter i))
  exact ⟨_, loadFromFile_saveToFile hwf hsize hcount hstamp newNodeId, rfl, rfl, rfl, rfl⟩

/-- Node 1's ledger, saved in the second of its only event and loaded by node 2. -/
theorem save_load_sample :
    ∃ loaded, (Ledger.fresh (sampleNode 2)).loadFromFile sampleHash (.still sampleTime)
        (some ((ledgerMachine sampleHash).run (Ledger.fresh (sampleNode 1))
          [(.still sampleTime, .recordNodeJoined (sampleNode 1))]).1.saveToFile) =
        .value (loaded, true) ∧
      loaded.events = [sampleJoin] := by
  have hevents : ((ledgerMachine sampleHash).run (Ledger.fresh (sampleNode 1))
      [(.still sampleTime, .recordNodeJoined (sampleNode 1))]).1.events = [sampleJoin] := by
    decide +kernel
  obtain ⟨loaded, hload, hsame, _⟩ := save_load sampleHash (sampleNode 1) (sampleNode 2)
    [(.still sampleTime, .recordNodeJoined (sampleNode 1))] sampleTime (.still sampleTime)
    (by
      intro input hinput i
      rw [List.mem_singleton.mp hinput]
      exact Nat.le_refl _)
    (fun _ => Nat.le_refl _)
    (by
      rw [hevents]
      decide +kernel)
    (by
      rw [hevents]
      decide)
  exact ⟨loaded, hload, hsame.trans hevents⟩

end Cashew.Theorems.LedgerFile
