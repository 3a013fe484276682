import Cashew.Network.LedgerSync

/-!
# What the periodic sync asks for

`sync_with_network` and `validate_consistency` compute the epochs they ask for
from the clock, not from the ledger: the first asks only peers whose recorded
epoch lies in the future, for the epochs after the current one; the second asks
for the current epoch alone. A gap that reaches into an earlier epoch is never
asked for. `covers_iff` says exactly when a round of the two asks a peer for
everything the receiver lacks.
-/

namespace Cashew.Theorems.SyncRequests

open Cashew Cashew.Lib

variable {H : Bytes → Hash256}

/-- The bridge's entry for a peer is the checkpoint the peer took at `taken`: the
epoch of that time and the peer's latest hash. -/
def Recorded (b : LedgerGossipBridge) (peerId : NodeID) (peer : Ledger) (taken : Time) : Prop :=
  ∃ state, b.peerSyncStates.find? peerId = some state ∧
    state.lastSyncedEpoch = currentEpoch taken ∧ state.lastKnownHash = peer.latestHash

/-- `sync_with_network`, then `validate_consistency`: everything they send. -/
def round (H : Bytes → Hash256) (b : LedgerGossipBridge) (clock₁ : Clock) (draw : UInt32)
    (clock₂ : Clock) : List GossipSend :=
  (b.syncWithNetwork H clock₁ draw).2 ++
    ((b.syncWithNetwork H clock₁ draw).1.validateConsistency H clock₂).2

/-- Among the sends is a `request_sync` to the peer for the given epochs. -/
def Requests (H : Bytes → Hash256) (b : LedgerGossipBridge) (sends : List GossipSend)
    (peerId : NodeID) (startEpoch endEpoch : UInt64) : Prop :=
  ∃ now, (b.requestSync H now peerId startEpoch endEpoch).2 ∈ sends

/-- The events of the peer the receiver lacks. -/
def missing (b : LedgerGossipBridge) (peer : Ledger) : List LedgerEvent :=
  peer.events.drop b.ledger.events.length

/-- Some request to the peer covers the epoch of every missing event. -/
def Covers (H : Bytes → Hash256) (b : LedgerGossipBridge) (sends : List GossipSend)
    (peerId : NodeID) (peer : Ledger) : Prop :=
  ∃ startEpoch endEpoch, Requests H b sends peerId startEpoch endEpoch ∧
    ∀ e ∈ missing b peer, startEpoch ≤ e.epoch ∧ e.epoch ≤ endEpoch

/-! ## Requests tell their peer and epochs -/

theorem serialize_epochs {m m' : LedgerSyncMessage} (h : m.serialize = m'.serialize) :
    m.startEpoch = m'.startEpoch ∧ m.endEpoch = m'.endEpoch := by
  unfold LedgerSyncMessage.serialize at h
  obtain ⟨_, h⟩ := List.append_inj h rfl
  obtain ⟨hstart, h⟩ := List.append_inj h (by rw [u64Bytes_length, u64Bytes_length])
  obtain ⟨hend, _⟩ := List.append_inj h (by rw [u64Bytes_length, u64Bytes_length])
  exact ⟨u64Bytes_injective hstart, u64Bytes_injective hend⟩

theorem requestSync_inj {b b' : LedgerGossipBridge} {now now' : Time} {p p' : NodeID}
    {s t s' t' : UInt64}
    (h : (b.requestSync H now p s t).2 = (b'.requestSync H now' p' s' t').2) :
    p = p' ∧ s = s' ∧ t = t' := by
  injection h with hpeer hmessage
  exact ⟨hpeer, serialize_epochs (congrArg GossipMessage.payload hmessage)⟩

/-! ## The two rounds -/

/-- `sync_with_network` leaves the ledger and the peer table alone. -/
theorem syncWithNetwork_frame (b : LedgerGossipBridge) (clock : Clock) (draw : UInt32) :
    (b.syncWithNetwork H clock draw).1.ledger = b.ledger ∧
      (b.syncWithNetwork H clock draw).1.peerSyncStates = b.peerSyncStates := by
  unfold LedgerGossipBridge.syncWithNetwork
  dsimp only
  split
  · split
    · exact ⟨rfl, rfl⟩
    · exact ⟨rfl, rfl⟩
  · exact ⟨rfl, rfl⟩

/-- It asks only peers recorded at a future epoch. -/
theorem future_of_syncWithNetwork {b : LedgerGossipBridge} {clock : Clock} {draw : UInt32}
    {peerId : NodeID} {s t : UInt64}
    (h : Requests H b (b.syncWithNetwork H clock draw).2 peerId s t) :
    ∃ state, b.peerSyncStates.find? peerId = some state ∧
      currentEpoch (clock.read 0) < state.lastSyncedEpoch := by
  obtain ⟨now, hmem⟩ := h
  unfold LedgerGossipBridge.syncWithNetwork at hmem
  dsimp only at hmem
  split at hmem
  · split at hmem
    · cases hmem
    · rename_i candidate hcandidate
      obtain ⟨rfl, _, _⟩ := requestSync_inj (List.mem_singleton.mp hmem)
      obtain ⟨⟨_, state⟩, hentry, rfl⟩ := List.mem_map.mp (List.mem_of_getElem? hcandidate)
      obtain ⟨hentry, hahead⟩ := List.mem_filter.mp hentry
      exact ⟨state, OrdMap.mem_entries.mp hentry, by simpa using hahead⟩
  · cases hmem

/-- A request in front adds its own peer and epochs. The request message depends
on the ledger only. -/
theorem requests_cons {b b' : LedgerGossipBridge} (hledger : b'.ledger = b.ledger) (now : Time)
    (q : NodeID) (s' t' : UInt64) (sends : List GossipSend) (p : NodeID) (s t : UInt64) :
    Requests H b ((b'.requestSync H now q s' t').2 :: sends) p s t ↔
      (p = q ∧ s = s' ∧ t = t') ∨ Requests H b sends p s t := by
  constructor
  · rintro ⟨now', hmem⟩
    rcases List.mem_cons.mp hmem with hhead | htail
    · exact .inl (requestSync_inj hhead)
    · exact .inr ⟨now', htail⟩
  · rintro (⟨rfl, rfl, rfl⟩ | ⟨now', htail⟩)
    · refine ⟨now, List.mem_cons.mpr (.inl ?_)⟩
      simp only [LedgerGossipBridge.requestSync, LedgerGossipBridge.requestMessage, hledger]
    · exact ⟨now', List.mem_cons_of_mem _ htail⟩

/-- Some entry for the peer stands at the current epoch with another hash. -/
def Mismatched (current : UInt64) (ourHash : Hash256) (peerId : NodeID)
    (entries : List (NodeID × SyncState)) : Prop :=
  ∃ state, (peerId, state) ∈ entries ∧
    state.lastSyncedEpoch = current ∧ state.lastKnownHash ≠ ourHash

theorem mismatched_cons {current : UInt64} {ourHash : Hash256} {peerId q : NodeID}
    {qstate : SyncState} {rest : List (NodeID × SyncState)} :
    Mismatched current ourHash peerId ((q, qstate) :: rest) ↔
      (peerId = q ∧ qstate.lastSyncedEpoch = current ∧ qstate.lastKnownHash ≠ ourHash) ∨
        Mismatched current ourHash peerId rest := by
  constructor
  · rintro ⟨state, hmem, hstate⟩
    rcases List.mem_cons.mp hmem with hhead | htail
    · cases hhead
      exact .inl ⟨rfl, hstate⟩
    · exact .inr ⟨state, htail, hstate⟩
  · rintro (⟨rfl, hstate⟩ | ⟨state, htail, hstate⟩)
    · exact ⟨qstate, List.mem_cons_self, hstate⟩
    · exact ⟨state, List.mem_cons_of_mem _ htail, hstate⟩

/-- `validate_consistency` asks each peer that is recorded at the current epoch
with another hash, for that epoch. -/
theorem requests_requestMismatched (b : LedgerGossipBridge) (current : UInt64)
    (ourHash : Hash256) (peerId : NodeID) (s t : UInt64) (entries : List (NodeID × SyncState)) :
    ∀ (b' : LedgerGossipBridge) (clock : Clock), b'.ledger = b.ledger →
      (Requests H b
          (LedgerGossipBridge.requestMismatched H current ourHash b' clock entries).2 peerId s t ↔
        s = current ∧ t = current ∧ 0 < current ∧ Mismatched current ourHash peerId entries) := by
  induction entries with
  | nil =>
    intro b' clock _
    constructor
    · rintro ⟨now, hmem⟩
      cases hmem
    · rintro ⟨_, _, _, state, hmem, _⟩
      cases hmem
  | cons entry rest ih =>
    obtain ⟨q, qstate⟩ := entry
    intro b' clock hledger
    unfold LedgerGossipBridge.requestMismatched
    rw [mismatched_cons]
    by_cases hmismatch : qstate.lastSyncedEpoch = current ∧ qstate.lastKnownHash ≠ ourHash
    · rw [if_pos hmismatch]
      by_cases hpos : 0 < current
      · rw [if_pos hpos]
        -- a request changes no ledger, so the rest asks as it would have
        dsimp only
        have hrest := ih (b'.requestSync H (clock.read 0) q current current).1 (clock.after 1)
          hledger
        rw [requests_cons hledger, hrest]
        constructor
        · rintro (⟨hp, hs, ht⟩ | ⟨hs, ht, _, hrest⟩)
          · exact ⟨hs, ht, hpos, .inl ⟨hp, hmismatch⟩⟩
          · exact ⟨hs, ht, hpos, .inr hrest⟩
        · rintro ⟨hs, ht, _, ⟨hp, _⟩ | hrest⟩
          · exact .inl ⟨hp, hs, ht⟩
          · exact .inr ⟨hs, ht, hpos, hrest⟩
      · -- in epoch zero the mismatch is only logged
        rw [if_neg hpos, ih b' clock hledger]
        simp only [hpos, false_and, and_false]
    · rw [if_neg hmismatch, ih b' clock hledger]
      simp only [hmismatch, and_false, false_or]

theorem currentEpoch_mono {t₁ t₂ : Time} (h : t₁.secs.toNat ≤ t₂.secs.toNat) :
    currentEpoch t₁ ≤ currentEpoch t₂ := by
  rw [UInt64.le_iff_toNat_le]
  show (t₁.secs / 600).toNat ≤ (t₂.secs / 600).toNat
  rw [UInt64.toNat_div, UInt64.toNat_div]
  exact Nat.div_le_div_right h

/-- What a round asks a peer for whose checkpoint is not from the future. -/
theorem requests_round {b : LedgerGossipBridge} {peerId : NodeID} {peer : Ledger} {taken : Time}
    (hrecorded : Recorded b peerId peer taken) {clock₁ clock₂ : Clock} {draw : UInt32}
    (h₁ : taken.secs.toNat ≤ (clock₁.read 0).secs.toNat) (s t : UInt64) :
    Requests H b (round H b clock₁ draw clock₂) peerId s t ↔
      s = currentEpoch (clock₂.read 0) ∧ t = currentEpoch (clock₂.read 0) ∧
      0 < currentEpoch (clock₂.read 0) ∧ currentEpoch taken = currentEpoch (clock₂.read 0) ∧
      peer.latestHash ≠ b.ledger.latestHash := by
  obtain ⟨state, hfind, hepoch, hhash⟩ := hrecorded
  obtain ⟨hledger, hstates⟩ := syncWithNetwork_frame (H := H) b clock₁ draw
  -- the first half asks only a peer whose checkpoint is from a later epoch
  have hsync : ¬ Requests H b (b.syncWithNetwork H clock₁ draw).2 peerId s t := by
    intro hreq
    obtain ⟨state', hfind', hahead⟩ := future_of_syncWithNetwork hreq
    rw [hfind] at hfind'
    cases hfind'
    rw [hepoch] at hahead
    exact absurd hahead (UInt64.not_lt.mpr (currentEpoch_mono h₁))
  have hvalidate := requests_requestMismatched (H := H) b (currentEpoch (clock₂.read 0))
    b.ledger.latestHash peerId s t b.peerSyncStates.entries
    (b.syncWithNetwork H clock₁ draw).1 (clock₂.after 1) hledger
  -- so what is requested comes from the second half
  have hround : Requests H b (round H b clock₁ draw clock₂) peerId s t ↔
      Requests H b (LedgerGossipBridge.requestMismatched H (currentEpoch (clock₂.read 0))
        b.ledger.latestHash (b.syncWithNetwork H clock₁ draw).1 (clock₂.after 1)
        b.peerSyncStates.entries).2 peerId s t := by
    unfold round LedgerGossipBridge.validateConsistency
    rw [hledger, hstates]
    constructor
    · rintro ⟨now, hmem⟩
      rcases List.mem_append.mp hmem with hmem | hmem
      · exact absurd ⟨now, hmem⟩ hsync
      · exact ⟨now, hmem⟩
    · rintro ⟨now, hmem⟩
      exact ⟨now, List.mem_append_right _ hmem⟩
  rw [hround, hvalidate]
  constructor
  · rintro ⟨hs, ht, hpos, state', hin, hstate⟩
    rw [OrdMap.mem_entries, hfind] at hin
    cases hin
    rw [hepoch, hhash] at hstate
    exact ⟨hs, ht, hpos, hstate⟩
  · rintro ⟨hs, ht, hpos, hsame, hdiffer⟩
    refine ⟨hs, ht, hpos, state, OrdMap.mem_entries.mpr hfind, ?_⟩
    rw [hepoch, hhash]
    exact ⟨hsame, hdiffer⟩

/-- **What a round covers.** A receiver with a peer's checkpoint on record asks
that peer for all it lacks exactly when the checkpoint's epoch is still the
current one (and not epoch zero), the peer's hash differs from its own, and
everything missing belongs to that one epoch. -/
theorem covers_iff (H : Bytes → Hash256) (b : LedgerGossipBridge) (peerId : NodeID)
    (peer : Ledger) (taken : Time) (hrecorded : Recorded b peerId peer taken)
    (clock₁ clock₂ : Clock) (draw : UInt32)
    (hclock : taken.secs.toNat ≤ (clock₁.read 0).secs.toNat) :
    Covers H b (round H b clock₁ draw clock₂) peerId peer ↔
      currentEpoch (clock₂.read 0) = currentEpoch taken ∧ 0 < currentEpoch taken ∧
      peer.latestHash ≠ b.ledger.latestHash ∧
      ∀ e ∈ missing b peer, e.epoch = currentEpoch taken := by
  constructor
  · rintro ⟨s, t, hreq, hcovers⟩
    obtain ⟨hs, ht, hpos, hsame, hdiffer⟩ := (requests_round hrecorded hclock s t).mp hreq
    rw [hs, ht, ← hsame] at hcovers
    rw [← hsame] at hpos
    refine ⟨hsame.symm, hpos, hdiffer, ?_⟩
    intro e he
    exact UInt64.le_antisymm (hcovers e he).2 (hcovers e he).1
  · rintro ⟨hsame, hpos, hdiffer, hmissing⟩
    refine ⟨currentEpoch taken, currentEpoch taken, ?_, ?_⟩
    · refine (requests_round hrecorded hclock _ _).mpr ?_
      rw [hsame]
      exact ⟨rfl, rfl, hpos, rfl, hdiffer⟩
    · intro e he
      rw [hmissing e he]
      exact ⟨UInt64.le_refl _, UInt64.le_refl _⟩

/-- Node 1's ledger, with one event of epoch 2. -/
def peerLedger : Ledger :=
  ((ledgerMachine sampleHash).run (Ledger.fresh (sampleNode 1))
    [(.still sampleTime, .recordNodeJoined (sampleNode 1))]).1

/-- A bridge on node 2 with an empty ledger and node 1's checkpoint of epoch 2. -/
def informed : LedgerGossipBridge :=
  (LedgerGossipBridge.fresh (sampleNode 2)).updatePeerSyncState sampleTime (sampleNode 1)
    (currentEpoch sampleTime) peerLedger.latestHash

/-- Ten minutes after `sampleTime`, in epoch 3. -/
def nextEpochTime : Time := ⟨1800, by decide⟩

private theorem informed_recorded :
    Recorded informed (sampleNode 1) peerLedger sampleTime :=
  ⟨_, OrdMap.find?_insert_self _ _ _, rfl, rfl⟩

/-- One epoch after the checkpoint nothing is asked for, although the receiver
lacks an event. -/
theorem next_epoch_not_covered :
    Recorded informed (sampleNode 1) peerLedger sampleTime ∧
      informed.ledger.events <+: peerLedger.events ∧
      informed.ledger.events ≠ peerLedger.events ∧
      ¬ Covers sampleHash informed
        (round sampleHash informed (.still nextEpochTime) 0 (.still nextEpochTime))
        (sampleNode 1) peerLedger := by
  have hsilent :
      round sampleHash informed (.still nextEpochTime) 0 (.still nextEpochTime) = [] := by
    decide
  refine ⟨informed_recorded, List.nil_prefix, by decide, ?_⟩
  rintro ⟨s, t, ⟨now, hmem⟩, _⟩
  rw [hsilent] at hmem
  cases hmem

/-- Within the checkpoint's epoch the event is asked for. -/
theorem same_epoch_covered :
    Covers sampleHash informed
      (round sampleHash informed (.still sampleTime) 0 (.still sampleTime))
      (sampleNode 1) peerLedger := by
  refine (covers_iff sampleHash informed (sampleNode 1) peerLedger sampleTime informed_recorded
    (.still sampleTime) (.still sampleTime) 0 (Nat.le_refl _)).mpr ⟨rfl, by decide, ?_, ?_⟩
  · decide +kernel
  · decide

end Cashew.Theorems.SyncRequests
