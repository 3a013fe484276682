import Cashew.Network.StateReconciliation
import Cashew.Logic.LedgerWf

/-!
# Reconciling with equals

A node that reconciles with peers whose events are exactly its own has nothing
to do. What it compares are two different hashes: its ledger's latest hash, which
is the hash of the last event, and the state hash of the peer's events, which
also covers the epoch and the events before. `reconcile_noop_iff` says that equal
peers are told apart unless these two collide, or the clock enters a new epoch in
between.
-/

namespace Cashew.Theorems.Reconciliation

open Cashew Cashew.Lib StateReconciliation

variable {H : Bytes → Hash256}

/-! ## What a resolution leaves alone -/

theorem mergeEvent_conflictsDetected (r : StateReconciliation) (clock : Clock) (e : LedgerEvent) :
    (r.mergeEvent H clock e).1.conflictsDetected = r.conflictsDetected := by
  unfold mergeEvent
  dsimp only
  split
  · rfl
  · rfl

theorem mergeEvents_conflictsDetected (r : StateReconciliation) (clock : Clock)
    (events : List LedgerEvent) :
    (r.mergeEvents H clock events).1.conflictsDetected = r.conflictsDetected := by
  induction events generalizing r clock with
  | nil => rfl
  | cons e rest ih =>
    show (mergeEvents H (r.mergeEvent H clock e).1 (clock.after 3) rest).1.conflictsDetected = _
    rw [ih, mergeEvent_conflictsDetected]

theorem applyRemotePreference_conflictsDetected (r : StateReconciliation) (clock : Clock)
    (conflict : StateConflict) :
    (r.applyRemotePreference H clock conflict).1.conflictsDetected = r.conflictsDetected := by
  have hmerge := mergeEvents_conflictsDetected (H := H) r clock
    (r.findMissingEvents conflict.remoteEvents)
  unfold applyRemotePreference applyMergeBoth
  dsimp only
  split
  · exact hmerge
  · exact hmerge

theorem finishResolution_conflictsDetected (strategy : MergeStrategy) (now : Time)
    (out : StateReconciliation × Bool) :
    (finishResolution strategy now out).1.conflictsDetected = out.1.conflictsDetected := by
  obtain ⟨r, success⟩ := out
  cases success <;> rfl

/-- Resolving a conflict does not count it again. -/
theorem resolveConflict_conflictsDetected (r : StateReconciliation) (clock : Clock)
    (conflict : StateConflict) (strategy : MergeStrategy) :
    (r.resolveConflict H clock conflict strategy).1.conflictsDetected = r.conflictsDetected := by
  unfold resolveConflict
  cases strategy with
  | preferLocal => exact finishResolution_conflictsDetected _ _ _
  | preferRemote =>
    exact (finishResolution_conflictsDetected _ _ _).trans
      (applyRemotePreference_conflictsDetected r clock conflict)
  | mergeBoth =>
    exact (finishResolution_conflictsDetected _ _ _).trans
      (mergeEvents_conflictsDetected r clock _)
  | highestWork =>
    refine (finishResolution_conflictsDetected _ _ _).trans ?_
    unfold applyHighestWork
    split
    · exact applyRemotePreference_conflictsDetected r clock conflict
    · rfl
  | quorumConsensus => rfl
  | manualReview => rfl

/-- With nothing missing a merge adds nothing, so preferring the remote side
succeeds only if the hashes were equal before. -/
theorem applyRemotePreference_of_present (r : StateReconciliation) (clock : Clock)
    (conflict : StateConflict) (h : conflict.remoteEvents ⊆ r.ledger.events) :
    r.applyRemotePreference H clock conflict =
      (r, r.ledger.latestHash == conflict.remoteHash) := by
  have hmissing : r.findMissingEvents conflict.remoteEvents = [] := by
    unfold findMissingEvents
    rw [List.filter_eq_nil_iff]
    intro e he
    simpa using ⟨e, h he, rfl⟩
  unfold applyRemotePreference applyMergeBoth
  rw [hmissing]
  rfl

/-! ## Counting equal votes -/

section Votes

variable {events : List LedgerEvent} {epoch : UInt64}

/-- The tally after `count` votes for the hash of these events. -/
def unanimous (H : Bytes → Hash256) (events : List LedgerEvent) (epoch : UInt64)
    (count : UInt32) : Tally :=
  (OrdMap.empty.insert (computeStateHash H events epoch) count,
   OrdMap.empty.insert (computeStateHash H events epoch) events)

theorem countVote_unanimous (count : UInt32) (p : NodeID) :
    countVote H epoch (unanimous H events epoch count) (p, events) =
      unanimous H events epoch (count + 1) := by
  refine Prod.ext (OrdMap.ext fun hash => ?_) ?_
  · simp only [countVote, unanimous, OrdMap.find?_upsert, OrdMap.find?_insert]
    by_cases hhash : computeStateHash H events epoch = hash
    · simp [hhash]
    · simp [hhash]
  · simp [countVote, unanimous, OrdMap.contains]

theorem foldl_unanimous {entries : List (NodeID × List LedgerEvent)}
    (h : ∀ entry ∈ entries, entry.2 = events) (count : UInt32) :
    entries.foldl (countVote H epoch) (unanimous H events epoch count) =
      unanimous H events epoch (count + UInt32.ofNat entries.length) := by
  induction entries generalizing count with
  | nil => simp
  | cons entry rest ih =>
    have hentry : entry = (entry.1, events) := Prod.ext rfl (h entry List.mem_cons_self)
    have hcount : count + 1 + UInt32.ofNat rest.length =
        count + UInt32.ofNat (entry :: rest).length := by
      rw [List.length_cons, UInt32.ofNat_add, UInt32.add_assoc, UInt32.add_comm 1]
      rfl
    rw [List.foldl_cons, hentry, countVote_unanimous,
      ih (fun a ha => h a (List.mem_cons_of_mem _ ha)), ← hentry, hcount]

/-- Peers with the same events vote for one hash; the count wraps at `2 ^ 32`. -/
theorem countVotes_unanimous (epoch : UInt64) {peers : OrdMap NodeID (List LedgerEvent)}
    (hne : peers.entries ≠ []) (h : ∀ entry ∈ peers.entries, entry.2 = events) :
    countVotes H epoch peers =
      unanimous H events epoch (UInt32.ofNat peers.entries.length) := by
  unfold countVotes
  cases hentries : peers.entries with
  | nil => exact absurd hentries hne
  | cons entry rest =>
    rw [hentries] at h
    have hentry : entry = (entry.1, events) := Prod.ext rfl (h entry List.mem_cons_self)
    have hfirst : countVote H epoch (.empty, .empty) entry = unanimous H events epoch 1 := by
      rw [hentry]
      rfl
    have hcount : 1 + UInt32.ofNat rest.length = UInt32.ofNat (entry :: rest).length := by
      rw [List.length_cons, UInt32.ofNat_add, UInt32.add_comm]
      rfl
    rw [List.foldl_cons, hfirst, foldl_unanimous fun a ha => h a (List.mem_cons_of_mem _ ha),
      hcount]

/-- The winner of a unanimous vote, unless the count has wrapped to zero. -/
theorem mostVotes_unanimous (unset : Hash256) (count : UInt32) :
    mostVotes unset (unanimous H events epoch count).1 =
      if 0 < count then (computeStateHash H events epoch, count) else (unset, 0) := rfl

end Votes

/-! ## Doing nothing -/

/-- Ledger, derived state and conflict counter are as before. -/
structure Unchanged (r r' : StateReconciliation) : Prop where
  ledger : r'.ledger = r.ledger
  stateManager : r'.stateManager = r.stateManager
  conflictsDetected : r'.conflictsDetected = r.conflictsDetected

/-- Reconciling with a peer that has the same events finds no conflict. -/
def AutoNoOp (H : Bytes → Hash256) (r : StateReconciliation) (clock : Clock) (peerId : NodeID) :
    Prop :=
  Unchanged r (r.autoReconcileWithPeer H clock peerId r.ledger.events).1 ∧
    (r.autoReconcileWithPeer H clock peerId r.ledger.events).2.success = true

/-- Reconciling with these peers reports being in sync. -/
def QuorumNoOp (H : Bytes → Hash256) (r : StateReconciliation) (clock : Clock) (unset : Hash256)
    (peers : OrdMap NodeID (List LedgerEvent)) : Prop :=
  Unchanged r (r.reconcileWithQuorum H clock unset peers).1 ∧
    (r.reconcileWithQuorum H clock unset peers).2.success = true ∧
    (r.reconcileWithQuorum H clock unset peers).2.strategyUsed = some .quorumConsensus

/-- The hash takes the epoch with all events and the last event alone to one
value. -/
def Collides (H : Bytes → Hash256) (events : List LedgerEvent) (epoch : UInt64) : Prop :=
  ∃ last, events.getLast? = some last ∧
    H (u64Bytes epoch ++ events.flatMap LedgerEvent.toBytes) = H last.toBytes

/-- The two are different strings: only a collision makes their hashes equal. -/
theorem stateBytes_ne_lastBytes {events : List LedgerEvent} {last : LedgerEvent}
    (h : events.getLast? = some last) (epoch : UInt64) :
    u64Bytes epoch ++ events.flatMap LedgerEvent.toBytes ≠ last.toBytes := by
  obtain ⟨front, rfl⟩ := List.getLast?_eq_some_iff.mp h
  intro heq
  have hlen := congrArg List.length heq
  rw [List.length_append, u64Bytes_length, List.flatMap_append, List.length_append,
    List.flatMap_singleton] at hlen
  omega

section Auto

variable {peerId : NodeID} {epoch : UInt64} {peerHash : Hash256} {peerEvents : List LedgerEvent}

theorem detectConflict_of_calm (r : StateReconciliation) (clock : Clock)
    (h : currentEpoch (clock.read 0) ≠ epoch ∨ r.ledger.latestHash = peerHash) :
    r.detectConflict clock peerId epoch peerHash peerEvents = (r, none) := by
  unfold detectConflict
  by_cases hepoch : currentEpoch (clock.read 0) = epoch
  · simp [hepoch, h.resolve_left (not_not.mpr hepoch)]
  · simp [hepoch]

theorem detectConflict_counts (r : StateReconciliation) (clock : Clock) (peerId : NodeID)
    (peerEvents : List LedgerEvent)
    (hepoch : currentEpoch (clock.read 0) = epoch) (hhash : r.ledger.latestHash ≠ peerHash) :
    ∃ conflict, r.detectConflict clock peerId epoch peerHash peerEvents =
      ({ r with conflictsDetected := r.conflictsDetected + 1 }, some conflict) := by
  unfold detectConflict
  rw [if_neg (not_not.mpr hepoch), if_neg hhash]
  exact ⟨_, rfl⟩

end Auto

theorem autoNoOp_iff (r : StateReconciliation) (clock : Clock) (peerId : NodeID) :
    AutoNoOp H r clock peerId ↔
      currentEpoch (clock.read 2) ≠ currentEpoch (clock.read 1) ∨
        r.ledger.latestHash = computeStateHash H r.ledger.events (currentEpoch (clock.read 0)) := by
  unfold AutoNoOp autoReconcileWithPeer
  by_cases hcalm : currentEpoch (clock.read 2) ≠ currentEpoch (clock.read 1) ∨
      r.ledger.latestHash = computeStateHash H r.ledger.events (currentEpoch (clock.read 0))
  · dsimp only
    rw [detectConflict_of_calm { r with reconciliations := r.reconciliations + 1 }
      (clock.after 2) hcalm]
    exact iff_of_true ⟨⟨rfl, rfl, rfl⟩, rfl⟩ hcalm
  · refine iff_of_false ?_ hcalm
    rw [not_or, not_not] at hcalm
    obtain ⟨conflict, hdetect⟩ := detectConflict_counts
      { r with reconciliations := r.reconciliations + 1 } (clock.after 2) peerId r.ledger.events
      hcalm.1 hcalm.2
    dsimp only
    rw [hdetect]
    -- the conflict has been counted
    rintro ⟨hsame, _⟩
    have hcounted := hsame.conflictsDetected
    rw [resolveConflict_conflictsDetected] at hcounted
    exact absurd hcounted (by simp)

/-- What the outcome of a vote means when the winner's events are all present:
the node is in sync exactly if the winner has half the votes and its own hash. -/
theorem quorumNoOp_of_tally {r : StateReconciliation} {clock : Clock} {unset : Hash256}
    {peers : OrdMap NodeID (List LedgerEvent)} {tally : Tally} (winner : Hash256 × UInt32)
    (htally : countVotes H (currentEpoch (clock.read 0)) peers = tally)
    (hwinner : mostVotes unset tally.1 = winner)
    (hpresent : (tally.2.find? winner.1).getD [] ⊆ r.ledger.events) :
    QuorumNoOp H r clock unset peers ↔
      peers.entries.length / 2 ≤ winner.2.toNat ∧ r.ledger.latestHash = winner.1 := by
  unfold QuorumNoOp reconcileWithQuorum
  dsimp only
  rw [htally, hwinner]
  by_cases hquorum : winner.2.toNat < peers.entries.length / 2
  · rw [if_pos hquorum]
    refine iff_of_false ?_ (fun h => absurd h.1 (Nat.not_le_of_lt hquorum))
    rintro ⟨_, hsuccess, _⟩
    cases hsuccess
  · rw [if_neg hquorum]
    by_cases hhash : r.ledger.latestHash = winner.1
    · rw [if_pos hhash]
      exact iff_of_true ⟨⟨rfl, rfl, rfl⟩, rfl, rfl⟩ ⟨Nat.le_of_not_lt hquorum, hhash⟩
    · rw [if_neg hhash]
      refine iff_of_false ?_ (fun h => hhash h.2)
      rintro ⟨_, hsuccess, _⟩
      -- nothing is missing, so the merge cannot change the hash
      unfold resolveConflict at hsuccess
      dsimp only at hsuccess
      rw [applyRemotePreference_of_present r (clock.after 2) _ hpresent,
        beq_false_of_ne hhash] at hsuccess
      cases hsuccess

theorem quorumNoOp_iff (r : StateReconciliation) (clock : Clock) (unset : Hash256)
    {peers : OrdMap NodeID (List LedgerEvent)}
    (h : ∀ entry ∈ peers.entries, entry.2 = r.ledger.events) :
    QuorumNoOp H r clock unset peers ↔
      if peers.entries = [] then r.ledger.latestHash = unset
      else peers.entries.length / 2 ≤ peers.entries.length % 2 ^ 32 ∧
        r.ledger.latestHash = computeStateHash H r.ledger.events (currentEpoch (clock.read 0)) := by
  by_cases hempty : peers.entries = []
  -- nobody is asked: the hash that was never set has its zero votes, and that is half
  · have htally : countVotes H (currentEpoch (clock.read 0)) peers = (.empty, .empty) := by
      unfold countVotes
      rw [hempty]
      rfl
    rw [if_pos hempty, quorumNoOp_of_tally (unset, 0) htally rfl
      (List.nil_subset _), hempty]
    simp
  · have htally := countVotes_unanimous (H := H) (currentEpoch (clock.read 0)) hempty h
    have hcount : (UInt32.ofNat peers.entries.length).toNat = peers.entries.length % 2 ^ 32 :=
      UInt32.toNat_ofNat'
    have hsome : 0 < peers.entries.length := List.length_pos_iff.mpr hempty
    rw [if_neg hempty]
    by_cases hzero : 0 < UInt32.ofNat peers.entries.length
    · rw [quorumNoOp_of_tally _ htally ((mostVotes_unanimous unset _).trans (if_pos hzero)) ?_,
        hcount]
      rw [unanimous, OrdMap.find?_insert_self]
      exact List.Subset.refl _
    · -- a count that has wrapped to zero is below half
      have hwrapped : peers.entries.length % 2 ^ 32 = 0 := by
        rw [UInt32.lt_iff_toNat_lt, hcount] at hzero
        simpa using hzero
      have hhalf : ¬ peers.entries.length / 2 ≤ 0 := by omega
      rw [quorumNoOp_of_tally _ htally ((mostVotes_unanimous unset _).trans (if_neg hzero)) ?_,
        hwrapped]
      · exact iff_of_false (fun hnoop => hhalf hnoop.1) fun hnoop => hhalf hnoop.1
      · show ((OrdMap.empty.insert _ _ : OrdMap Hash256 (List LedgerEvent)).find? unset).getD [] ⊆ _
        rw [OrdMap.find?_insert]
        split
        · exact List.Subset.refl _
        · exact List.nil_subset _

/-- **Reconciling with equals.** For every reachable non-empty ledger and peers
that have exactly its events: `auto_reconcile_with_peer` finds no conflict exactly
when the clock changes epoch between its second and third reading or the state
hash collides with the hash of the last event; `reconcile_with_quorum` reports
being in sync exactly when the hashes collide and the votes do not wrap below
half, or without any peers when the uninitialised hash happens to be the right
one. -/
theorem reconcile_noop_iff (H : Bytes → Hash256) (r : StateReconciliation)
    (hreach : Ledger.Reachable H r.ledger) (hne : r.ledger.events ≠ []) (clock : Clock)
    (peerId : NodeID) (unset : Hash256) (peers : OrdMap NodeID (List LedgerEvent))
    (hpeers : ∀ entry ∈ peers.entries, entry.2 = r.ledger.events) :
    (AutoNoOp H r clock peerId ↔
      currentEpoch (clock.read 2) ≠ currentEpoch (clock.read 1) ∨
        Collides H r.ledger.events (currentEpoch (clock.read 0))) ∧
    (QuorumNoOp H r clock unset peers ↔
      if peers.entries = [] then r.ledger.latestHash = unset
      else peers.entries.length / 2 ≤ peers.entries.length % 2 ^ 32 ∧
        Collides H r.ledger.events (currentEpoch (clock.read 0))) := by
  have hcollides : ∀ epoch, Collides H r.ledger.events epoch ↔
      r.ledger.latestHash = computeStateHash H r.ledger.events epoch := by
    intro epoch
    have hlast := List.getLast?_eq_some_getLast hne
    have hlatest : r.ledger.latestHash = H (r.ledger.events.getLast hne).toBytes := by
      rw [hreach.wf.latest, HashChain.Links.tip, hlast]
      rfl
    rw [hlatest, eq_comm]
    constructor
    · rintro ⟨last, hfound, hhash⟩
      rw [hlast, Option.some.injEq] at hfound
      rw [hfound]
      exact hhash
    · intro hhash
      exact ⟨_, hlast, hhash⟩
  rw [autoNoOp_iff, quorumNoOp_iff r clock unset hpeers, hcollides]
  exact ⟨Iff.rfl, Iff.rfl⟩

/-! ## A node and its copy -/

/-- Node 1 with the one event it recorded, hashing with `H`. -/
def oneEvent (H : Bytes → Hash256) : StateReconciliation where
  ledger := ((ledgerMachine H).run (Ledger.fresh (sampleNode 1))
    [(.still sampleTime, .recordNodeJoined (sampleNode 1))]).1
  stateManager := {}

/-- Node 2 with the same events. -/
def copyOf (r : StateReconciliation) : OrdMap NodeID (List LedgerEvent) :=
  OrdMap.empty.insert (sampleNode 2) r.ledger.events

/-- Under a hash that takes everything to zero equals are recognised. -/
theorem oneEvent_noop :
    AutoNoOp (fun _ => FixedBytes.zero) (oneEvent fun _ => FixedBytes.zero) (.still sampleTime)
      (sampleNode 2) := by
  have hne : (oneEvent fun _ => FixedBytes.zero).ledger.events ≠ [] := by decide
  have hlast := List.getLast?_eq_some_getLast hne
  refine (reconcile_noop_iff (fun _ => FixedBytes.zero) (oneEvent fun _ => FixedBytes.zero)
    ⟨sampleNode 1, _, rfl⟩ hne (.still sampleTime) (sampleNode 2) FixedBytes.zero
    (copyOf (oneEvent fun _ => FixedBytes.zero)) ?_).1.mpr (.inr ⟨_, hlast, rfl⟩)
  intro entry hentry
  rw [List.mem_singleton.mp hentry]

/-- Under a hash that tells the strings apart, the copy is counted as a conflict
by one call and as a failed merge by the other. -/
theorem oneEvent_conflict :
    Ledger.Reachable sampleHash (oneEvent sampleHash).ledger ∧
      (oneEvent sampleHash).ledger.events ≠ [] ∧
      ¬ AutoNoOp sampleHash (oneEvent sampleHash) (.still sampleTime) (sampleNode 2) ∧
      ¬ QuorumNoOp sampleHash (oneEvent sampleHash) (.still sampleTime) FixedBytes.zero
        (copyOf (oneEvent sampleHash)) := by
  refine ⟨⟨sampleNode 1, _, rfl⟩, by decide, ?_, ?_⟩
  · rintro ⟨hsame, _⟩
    have hcounted : ((oneEvent sampleHash).autoReconcileWithPeer sampleHash (.still sampleTime)
        (sampleNode 2) (oneEvent sampleHash).ledger.events).1.conflictsDetected = 1 := by
      decide +kernel
    rw [hsame.conflictsDetected] at hcounted
    exact absurd hcounted (by decide)
  · rintro ⟨_, hsuccess, _⟩
    have hfailed : ((oneEvent sampleHash).reconcileWithQuorum sampleHash (.still sampleTime)
        FixedBytes.zero (copyOf (oneEvent sampleHash))).2.success = false := by
      decide +kernel
    rw [hfailed] at hsuccess
    cases hsuccess

end Cashew.Theorems.Reconciliation
