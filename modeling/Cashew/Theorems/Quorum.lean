import Cashew.Network.StateReconciliation

/-!
# Who decides in a quorum

`reconcile_with_quorum` is to follow a state hash only if more than half of the peers
have it. It compares the most votes any hash has, counted in 32 bits, with half the
number of peers rounded down and goes on when they are equal; without any peer both are
zero, and it goes on with a hash that nobody has set. `quorum_sound_iff` says for which
votes this makes a difference.
-/

namespace Cashew.Theorems.Quorum

open Cashew Cashew.Lib StateReconciliation

/-- The peers, each with the events it says it has. -/
abbrev Peers := OrdMap NodeID (List LedgerEvent)

variable {H : Bytes → Hash256} {epoch : UInt64} {peers : Peers} {clock : Clock} {unset : Hash256}

/-- How many peers have this state hash. -/
def count (H : Bytes → Hash256) (epoch : UInt64) (peers : Peers) (hash : Hash256) : Nat :=
  peers.entries.countP fun peer => computeStateHash H peer.2 epoch = hash

/-- How many votes it gets, in 32 bits. -/
def votes (H : Bytes → Hash256) (epoch : UInt64) (peers : Peers) (hash : Hash256) : Nat :=
  count H epoch peers hash % 2 ^ 32

/-- More than half of the peers have it. -/
def Majority (H : Bytes → Hash256) (epoch : UInt64) (peers : Peers) (hash : Hash256) : Prop :=
  peers.entries.length < 2 * count H epoch peers hash

/-- It has the most votes, and is the first of those that do. -/
structure Leads (H : Bytes → Hash256) (epoch : UInt64) (peers : Peers) (hash : Hash256) :
    Prop where
  voted : 0 < votes H epoch peers hash
  most : ∀ other, votes H epoch peers other ≤ votes H epoch peers hash
  first : ∀ other, votes H epoch peers other = votes H epoch peers hash → hash ≤ other

/-- The hash with which the call goes on behind its test for a quorum. -/
def goesOnWith (H : Bytes → Hash256) (clock : Clock) (unset : Hash256) (peers : Peers) :
    Option Hash256 :=
  let winner := mostVotes unset (countVotes H (currentEpoch (clock.read 0)) peers).1
  if winner.2.toNat < peers.entries.length / 2 then none else some winner.1

/-- Going on is for a majority; without one nothing happens. -/
structure QuorumSound (H : Bytes → Hash256) (r : StateReconciliation) (clock : Clock)
    (unset : Hash256) (peers : Peers) : Prop where
  majority : ∀ hash, goesOnWith H clock unset peers = some hash →
    Majority H (currentEpoch (clock.read 0)) peers hash
  otherwise : (∀ hash, ¬ Majority H (currentEpoch (clock.read 0)) peers hash) →
    (r.reconcileWithQuorum H clock unset peers).2.success = false ∧
      (r.reconcileWithQuorum H clock unset peers).1 = r

/-! ## What going on means -/

/-- Without a hash the call fails; with one it reports being in sync, or sets out to adopt
it. -/
theorem reconcileWithQuorum_eq (r : StateReconciliation) :
    r.reconcileWithQuorum H clock unset peers =
      match goesOnWith H clock unset peers with
      | none => (r, { success := false, errorMessage := "No quorum consensus reached" })
      | some hash =>
        if r.ledger.latestHash = hash then
          (r,
           { success := true
             strategyUsed := some .quorumConsensus
             eventsAdded := some 0
             eventsRemoved := some 0
             conflictsResolved := some 0
             finalHash := some hash
             finalEpoch := some (currentEpoch (clock.read 0)) })
        else
          r.resolveConflict H (clock.after 2)
            { type := .hashMismatch
              epoch := currentEpoch (clock.read 0)
              localHash := r.ledger.latestHash
              remoteHash := hash
              remoteEvents :=
                ((countVotes H (currentEpoch (clock.read 0)) peers).2.find? hash).getD []
              detectedAt := (clock.read 1).secs
              description := "Local state differs from quorum consensus" }
            .preferRemote := by
  unfold reconcileWithQuorum goesOnWith
  dsimp only
  split
  · rfl
  · dsimp only
    split
    · rename_i hhash
      rw [hhash]
    · rfl

/-! ## Counting -/

/-- Each hash has a vote for every peer that has it. -/
theorem find?_foldl_countVote (entries : List (NodeID × List LedgerEvent)) (tally : Tally)
    (hash : Hash256) :
    ((entries.foldl (countVote H epoch) tally).1.find? hash).getD 0 =
      (tally.1.find? hash).getD 0 +
        UInt32.ofNat (entries.countP fun peer => computeStateHash H peer.2 epoch = hash) := by
  induction entries generalizing tally with
  | nil => simp
  | cons peer rest ih =>
    rw [List.foldl_cons, ih, List.countP_cons]
    simp only [countVote, OrdMap.find?_upsert]
    by_cases hvote : computeStateHash H peer.2 epoch = hash
    · simp only [hvote, if_true, decide_true, UInt32.ofNat_add, Option.getD_some]
      rw [UInt32.add_assoc, UInt32.add_comm 1]
      rfl
    · simp [hvote]

theorem find?_countVotes (hash : Hash256) :
    (((countVotes H epoch peers).1.find? hash).getD 0).toNat = votes H epoch peers hash := by
  unfold countVotes
  rw [find?_foldl_countVote, OrdMap.find?_empty, Option.getD_none, UInt32.zero_add,
    UInt32.toNat_ofNat']
  rfl

/-! ## The most votes -/

/-- The loop over the votes ends with what it had, or with the first entry that has more
than all before it and as many as any behind it. -/
theorem foldl_most {K : Type} (entries : List (K × UInt32)) (best : K × UInt32) :
    (entries.foldl (fun best vote => if best.2 < vote.2 then vote else best) best = best ∧
      ∀ a ∈ entries, a.2 ≤ best.2) ∨
    ∃ front winner back, entries = front ++ winner :: back ∧
      entries.foldl (fun best vote => if best.2 < vote.2 then vote else best) best = winner ∧
      best.2 < winner.2 ∧ (∀ a ∈ front, a.2 < winner.2) ∧ ∀ a ∈ back, a.2 ≤ winner.2 := by
  induction entries generalizing best with
  | nil => exact .inl ⟨rfl, fun _ h => absurd h List.not_mem_nil⟩
  | cons vote rest ih =>
    rw [List.foldl_cons]
    -- a tie does not replace the leader
    by_cases hmore : best.2 < vote.2
    · rw [if_pos hmore]
      obtain ⟨heq, hle⟩ | ⟨front, winner, back, hrest, heq, hlt, hfront, hback⟩ := ih vote
      · exact .inr ⟨[], vote, rest, rfl, heq, hmore, by simp, hle⟩
      · refine .inr ⟨vote :: front, winner, back, by rw [hrest]; rfl, heq,
          UInt32.lt_trans hmore hlt, ?_, hback⟩
        intro a ha
        obtain rfl | ha := List.mem_cons.mp ha
        · exact hlt
        · exact hfront a ha
    · rw [if_neg hmore]
      have hle : vote.2 ≤ best.2 := UInt32.not_lt.mp hmore
      obtain ⟨heq, hall⟩ | ⟨front, winner, back, hrest, heq, hlt, hfront, hback⟩ := ih best
      · refine .inl ⟨heq, fun a ha => ?_⟩
        obtain rfl | ha := List.mem_cons.mp ha
        · exact hle
        · exact hall a ha
      · refine .inr ⟨vote :: front, winner, back, by rw [hrest]; rfl, heq, hlt, ?_, hback⟩
        intro a ha
        obtain rfl | ha := List.mem_cons.mp ha
        · exact UInt32.lt_of_le_of_lt hle hlt
        · exact hfront a ha

theorem votes_of_find? {hash : Hash256} {v : UInt32}
    (h : (countVotes H epoch peers).1.find? hash = some v) :
    votes H epoch peers hash = v.toNat := by
  rw [← find?_countVotes, h]
  rfl

theorem votes_cases (H : Bytes → Hash256) (epoch : UInt64) (peers : Peers) (hash : Hash256) :
    votes H epoch peers hash = 0 ∨
      ∃ v, (hash, v) ∈ (countVotes H epoch peers).1.entries ∧
        votes H epoch peers hash = v.toNat := by
  cases hfind : (countVotes H epoch peers).1.find? hash with
  | none =>
    refine .inl ?_
    rw [← find?_countVotes, hfind]
    rfl
  | some v => exact .inr ⟨v, OrdMap.mem_entries.mpr hfind, votes_of_find? hfind⟩

/-- Without any vote the unset hash wins, with none; otherwise the leading one. -/
theorem mostVotes_cases (H : Bytes → Hash256) (epoch : UInt64) (peers : Peers)
    (unset : Hash256) :
    (mostVotes unset (countVotes H epoch peers).1 = (unset, 0) ∧
      ∀ hash, votes H epoch peers hash = 0) ∨
    ∃ hash v, mostVotes unset (countVotes H epoch peers).1 = (hash, v) ∧
      Leads H epoch peers hash ∧ v.toNat = votes H epoch peers hash := by
  unfold mostVotes
  obtain ⟨heq, hle⟩ | ⟨front, winner, back, hentries, heq, hpos, hfront, hback⟩ :=
    foldl_most (countVotes H epoch peers).1.entries (unset, 0)
  · refine .inl ⟨heq, fun hash => ?_⟩
    obtain hzero | ⟨v, hmem, hvotes⟩ := votes_cases H epoch peers hash
    · exact hzero
    · have hv : v.toNat ≤ 0 := UInt32.le_iff_toNat_le.mp (hle _ hmem)
      omega
  · refine .inr ⟨winner.1, winner.2, heq, ?_⟩
    have hwinner : votes H epoch peers winner.1 = winner.2.toNat := by
      refine votes_of_find? (OrdMap.mem_entries.mp ?_)
      rw [hentries]
      exact List.mem_append_right _ List.mem_cons_self
    have hpos : 0 < winner.2.toNat := UInt32.lt_iff_toNat_lt.mp hpos
    have hsorted := (countVotes H epoch peers).1.sorted
    rw [hentries, List.pairwise_append, List.pairwise_cons] at hsorted
    -- an entry stands before the winner, is the winner, or stands behind it
    have hplace : ∀ other v, (other, v) ∈ (countVotes H epoch peers).1.entries →
        v.toNat < winner.2.toNat ∨ v.toNat ≤ winner.2.toNat ∧ winner.1 ≤ other := by
      intro other v hmem
      rw [hentries, List.mem_append, List.mem_cons] at hmem
      obtain hmem | rfl | hmem := hmem
      · exact .inl (UInt32.lt_iff_toNat_lt.mp (hfront _ hmem))
      · exact .inr ⟨Nat.le_refl _, le_refl _⟩
      · exact .inr ⟨UInt32.le_iff_toNat_le.mp (hback _ hmem),
          le_of_lt (hsorted.2.1.1 _ hmem)⟩
    refine ⟨⟨by omega, fun other => ?_, fun other hsame => ?_⟩, hwinner.symm⟩
    · obtain hzero | ⟨v, hmem, hvotes⟩ := votes_cases H epoch peers other
      · omega
      · obtain hlt | ⟨hle, _⟩ := hplace other v hmem
        · omega
        · omega
    · obtain hzero | ⟨v, hmem, hvotes⟩ := votes_cases H epoch peers other
      · omega
      · obtain hlt | ⟨_, hle⟩ := hplace other v hmem
        · omega
        · exact hle

theorem Leads.unique {hash hash' : Hash256} (h : Leads H epoch peers hash)
    (h' : Leads H epoch peers hash') : hash = hash' := by
  have hsame : votes H epoch peers hash = votes H epoch peers hash' :=
    Nat.le_antisymm (h'.most hash) (h.most hash')
  exact le_antisymm (h.first hash' hsame.symm) (h'.first hash hsame)

/-! ## The test for a quorum -/

/-- A single peer has one vote. -/
theorem exists_votes_of_length_one (h : peers.entries.length = 1) :
    ∃ hash, votes H epoch peers hash ≠ 0 := by
  obtain ⟨peer, hpeer⟩ := List.length_eq_one_iff.mp h
  refine ⟨computeStateHash H peer.2 epoch, ?_⟩
  simp [votes, count, hpeer]

/-- Among at most one peer nobody has a vote only when there is no peer. -/
theorem entries_eq_nil_of_no_votes (hsmall : peers.entries.length / 2 = 0)
    (hzero : ∀ hash, votes H epoch peers hash = 0) : peers.entries = [] := by
  have hone : peers.entries.length ≠ 1 := by
    intro hone
    obtain ⟨voted, hvoted⟩ : ∃ hash, votes H epoch peers hash ≠ 0 :=
      exists_votes_of_length_one hone
    exact hvoted (hzero voted)
  exact List.length_eq_zero_iff.mp (by omega)

theorem Leads.entries_ne_nil {hash : Hash256} (h : Leads H epoch peers hash) :
    peers.entries ≠ [] := by
  intro hnil
  have hvoted := h.voted
  simp [votes, count, hnil] at hvoted

/-- The call goes on with the leading hash when that has half the votes, and with nothing
at all when there is nobody to ask. -/
theorem goesOnWith_eq_some_iff {hash : Hash256} :
    goesOnWith H clock unset peers = some hash ↔
      (Leads H (currentEpoch (clock.read 0)) peers hash ∧
        peers.entries.length / 2 ≤ votes H (currentEpoch (clock.read 0)) peers hash) ∨
      (peers.entries = [] ∧ hash = unset) := by
  unfold goesOnWith
  dsimp only
  obtain ⟨hmost, hzero⟩ | ⟨leader, v, hmost, hleads, hv⟩ :=
    mostVotes_cases H (currentEpoch (clock.read 0)) peers unset
  · rw [hmost]
    -- nobody voted: nobody leads, and only an empty map passes the test
    have hnone : ¬ Leads H (currentEpoch (clock.read 0)) peers hash := by
      intro hleads
      have hvoted := hleads.voted
      have := hzero hash
      omega
    by_cases hfew : (0 : UInt32).toNat < peers.entries.length / 2
    · have hne : peers.entries ≠ [] := by
        intro hnil
        rw [hnil] at hfew
        simp at hfew
      rw [if_pos hfew]
      simp [hnone, hne]
    · have hsmall : peers.entries.length / 2 = 0 := Nat.eq_zero_of_not_pos hfew
      have hnil := entries_eq_nil_of_no_votes hsmall hzero
      rw [if_neg hfew, Option.some.injEq]
      simp [hnone, hnil, eq_comm]
  · rw [hmost]
    have hne := hleads.entries_ne_nil
    rw [hv]
    -- there is a leader, and the test compares its votes with half of the peers
    by_cases hfew : votes H (currentEpoch (clock.read 0)) peers leader < peers.entries.length / 2
    · rw [if_pos hfew]
      refine iff_of_false (by simp) ?_
      rintro (⟨hleads', hmany⟩ | ⟨hnil, _⟩)
      · rw [← hleads.unique hleads'] at hmany
        omega
      · exact hne hnil
    · rw [if_neg hfew, Option.some.injEq]
      constructor
      · rintro rfl
        exact .inl ⟨hleads, Nat.not_lt.mp hfew⟩
      · rintro (⟨hleads', _⟩ | ⟨hnil, _⟩)
        · exact hleads.unique hleads'
        · exact absurd hnil hne

/-- **Quorum.** The call goes on for a majority only, exactly when there is a peer to ask and
the leading hash has either less than half of the votes, rounded down, or the majority. -/
theorem quorum_sound_iff (H : Bytes → Hash256) (r : StateReconciliation) (clock : Clock)
    (unset : Hash256) (peers : Peers) :
    QuorumSound H r clock unset peers ↔
      peers.entries ≠ [] ∧
      ∀ hash, Leads H (currentEpoch (clock.read 0)) peers hash →
        votes H (currentEpoch (clock.read 0)) peers hash < peers.entries.length / 2 ∨
          Majority H (currentEpoch (clock.read 0)) peers hash := by
  constructor
  · intro hsound
    constructor
    · intro hnil
      have hmajority := hsound.majority unset (goesOnWith_eq_some_iff.mpr (.inr ⟨hnil, rfl⟩))
      simp [Majority, count, hnil] at hmajority
    · intro hash hleads
      rcases Nat.lt_or_ge (votes H (currentEpoch (clock.read 0)) peers hash)
        (peers.entries.length / 2) with hfew | hmany
      · exact .inl hfew
      · exact .inr (hsound.majority hash (goesOnWith_eq_some_iff.mpr (.inl ⟨hleads, hmany⟩)))
  · rintro ⟨hne, hleader⟩
    have hmajority : ∀ hash, goesOnWith H clock unset peers = some hash →
        Majority H (currentEpoch (clock.read 0)) peers hash := by
      intro hash hgoes
      obtain ⟨hleads, hmany⟩ | ⟨hnil, _⟩ := goesOnWith_eq_some_iff.mp hgoes
      · exact (hleader hash hleads).resolve_left (Nat.not_lt.mpr hmany)
      · exact absurd hnil hne
    refine ⟨hmajority, fun hnobody => ?_⟩
    rw [reconcileWithQuorum_eq]
    cases hgoes : goesOnWith H clock unset peers with
    | none => exact ⟨rfl, rfl⟩
    | some hash => exact absurd (hmajority hash hgoes) (hnobody hash)

/-! ## One of two -/

/-- A node with an empty ledger. -/
def emptyNode : StateReconciliation where
  ledger := Ledger.fresh (sampleNode 1)
  stateManager := {}

/-- A first event of node 2. -/
def joinEvent : LedgerEvent where
  eventId := sampleHash [2]
  eventType := .listed .nodeJoined
  sourceNode := sampleNode 2
  timestamp := 1200
  epoch := 2
  previousHash := FixedBytes.zero
  data := []
  signature := FixedBytes.zero

/-- Node 2 has the event and node 3 has nothing. -/
def dividedPeers : Peers :=
  (OrdMap.empty.insert (sampleNode 2) [joinEvent]).insert (sampleNode 3) []

/-- One vote of two is enough, and so is none of none. -/
theorem divided_not_sound :
    Ledger.Reachable sampleHash emptyNode.ledger ∧
      ¬ QuorumSound sampleHash emptyNode (.still sampleTime) FixedBytes.zero dividedPeers ∧
      ¬ QuorumSound sampleHash emptyNode (.still sampleTime) FixedBytes.zero .empty := by
  refine ⟨⟨sampleNode 1, [], rfl⟩, fun hsound => ?_, fun hsound => ?_⟩
  · have hgoes : ∃ hash, goesOnWith sampleHash (.still sampleTime) FixedBytes.zero dividedPeers =
        some hash ∧ count sampleHash (currentEpoch sampleTime) dividedPeers hash = 1 := by
      refine ⟨computeStateHash sampleHash [] (currentEpoch sampleTime), ?_, ?_⟩
      · decide +kernel
      · decide +kernel
    obtain ⟨hash, hgoes, hcount⟩ := hgoes
    have hmajority : dividedPeers.entries.length <
        2 * count sampleHash (currentEpoch sampleTime) dividedPeers hash :=
      hsound.majority hash hgoes
    have hlength : dividedPeers.entries.length = 2 := by decide
    rw [hcount, hlength] at hmajority
    exact absurd hmajority (by decide)
  · have hmajority : 0 < 2 * count sampleHash (currentEpoch sampleTime) .empty FixedBytes.zero :=
      hsound.majority FixedBytes.zero (by decide)
    exact absurd hmajority (by decide)

end Cashew.Theorems.Quorum
