import Cashew.Security.AttackPrevention

/-!
# Which nodes are taken for forked

A node's first key is believed, whether it was recorded or only claimed. From then on a claim
of a key that is not known makes the node a forked one for good (`forked_iff`). Claims alone
make it so exactly when two of them differ, in whichever order they come.

None of this reaches a connection: the coordinator asks its detector, but never tells it
anything (`forks_go_unnoticed`).
-/

namespace Cashew.Theorems.IdentityForks

open Cashew Cashew.Lib

variable {calls : List ForkInput} {call : ForkInput} {n : NodeID} {k : PublicKey}

/-! ## What is known about a node -/

/-- The key that a call gives for a node. -/
def keyGiven (n : NodeID) : ForkInput → Option PublicKey
  | .detectFork nodeId claimedKey => if nodeId = n then some claimedKey else none
  | .recordNodeKey nodeId publicKey => if nodeId = n then some publicKey else none
  | .markAsForked _ => none

/-- Some call has given a key for the node. -/
def Given (calls : List ForkInput) (n : NodeID) : Prop := ∃ call ∈ calls, keyGiven n call ≠ none

/-- The key was the first one given for the node, or was recorded for it. -/
def Known (calls : List ForkInput) (n : NodeID) (k : PublicKey) : Prop :=
  (calls.filterMap (keyGiven n)).head? = some k ∨ .recordNodeKey n k ∈ calls

/-- A claim of a key that is not known, after another key was given. -/
def Conflict (calls : List ForkInput) (n : NodeID) : Prop :=
  ∃ front k back, calls = front ++ .detectFork n k :: back ∧ Given front n ∧ ¬ Known front n k

/-- The detector after these calls. -/
def detector (calls : List ForkInput) : ForkRecords := (forkMachine.run {} calls).1

theorem given_concat : Given (calls ++ [call]) n ↔ Given calls n ∨ keyGiven n call ≠ none := by
  simp [Given, or_and_right, exists_or]

theorem given_iff_filterMap : Given calls n ↔ calls.filterMap (keyGiven n) ≠ [] := by
  simp [Given, List.filterMap_eq_nil_iff]

/-- Once a key is given, only a record adds one. -/
theorem known_concat_of_given (h : Given calls n) :
    Known (calls ++ [call]) n k ↔ Known calls n k ∨ call = .recordNodeKey n k := by
  obtain ⟨first, rest, hgiven⟩ := List.exists_cons_of_ne_nil (given_iff_filterMap.mp h)
  have hhead : ((calls ++ [call]).filterMap (keyGiven n)).head? =
      (calls.filterMap (keyGiven n)).head? := by
    rw [List.filterMap_append, hgiven]
    rfl
  unfold Known
  rw [hhead, List.mem_append, List.mem_singleton, or_assoc]
  exact or_congr_right (or_congr_right ⟨Eq.symm, Eq.symm⟩)

/-- The first key that is given is known. -/
theorem known_concat_of_not_given (h : ¬ Given calls n) :
    Known (calls ++ [call]) n k ↔ keyGiven n call = some k := by
  have hnone : calls.filterMap (keyGiven n) = [] := by
    by_contra hsome
    exact h (given_iff_filterMap.mpr hsome)
  have hrecord : .recordNodeKey n k ∉ calls := by
    intro hmem
    refine h ⟨_, hmem, ?_⟩
    rw [keyGiven, if_pos rfl]
    exact Option.some_ne_none k
  unfold Known
  rw [List.filterMap_append, hnone, List.nil_append, List.mem_append, List.mem_singleton]
  constructor
  · rintro (hhead | hmem | rfl)
    · cases hkey : keyGiven n call with
      | none =>
        rw [List.filterMap_cons_none hkey] at hhead
        cases hhead
      | some k' =>
        rw [List.filterMap_cons_some hkey] at hhead
        exact hhead
    · exact absurd hmem hrecord
    · exact if_pos rfl
  · intro hkey
    rw [List.filterMap_cons_some hkey]
    exact .inl rfl

theorem conflict_concat :
    Conflict (calls ++ [call]) n ↔
      Conflict calls n ∨ ∃ k, call = .detectFork n k ∧ Given calls n ∧ ¬ Known calls n k := by
  constructor
  · rintro ⟨front, k, back, hsplit, hgiven, hknown⟩
    cases back using List.reverseRecOn with
    | nil =>
      obtain ⟨rfl, hlast⟩ := List.append_inj' hsplit rfl
      exact .inr ⟨k, List.head_eq_of_cons_eq hlast, hgiven, hknown⟩
    | append_singleton back last =>
      rw [← List.cons_append, ← List.append_assoc] at hsplit
      obtain ⟨rfl, -⟩ := List.append_inj' hsplit rfl
      exact .inl ⟨front, k, back, rfl, hgiven, hknown⟩
  · rintro (⟨front, k, back, rfl, hgiven, hknown⟩ | ⟨k, rfl, hgiven, hknown⟩)
    · exact ⟨front, k, back ++ [call], by simp, hgiven, hknown⟩
    · exact ⟨calls, k, [], rfl, hgiven, hknown⟩

/-! ## The detector -/

/-- The detector has recorded what is known, and has marked what conflicts. -/
structure Records (calls : List ForkInput) (f : ForkRecords) : Prop where
  unknown : ∀ n, f.nodeKeys.find? n = none ↔ ¬ Given calls n
  keys : ∀ n records, f.nodeKeys.find? n = some records → ∀ k, k ∈ records ↔ Known calls n k
  forked : ∀ n, n ∈ f.detector.forkedNodes ↔ .markAsForked n ∈ calls ∨ Conflict calls n

theorem find?_recordNodeKey (f : ForkRecords) (nodeId : NodeID) (publicKey : PublicKey) :
    (f.recordNodeKey nodeId publicKey).nodeKeys.find? n =
      if nodeId = n then some ((f.nodeKeys.find? nodeId).getD [] ++ [publicKey])
      else f.nodeKeys.find? n :=
  OrdMap.find?_upsert f.nodeKeys nodeId [] (· ++ [publicKey]) n

/-- A call that gives no key for a node leaves its keys alone. -/
theorem find?_step_of_not_given (f : ForkRecords) (h : keyGiven n call = none) :
    (forkMachine.step f call).1.nodeKeys.find? n = f.nodeKeys.find? n := by
  cases call with
  | detectFork nodeId claimedKey =>
    have hother : nodeId ≠ n := by
      rintro rfl
      simp [keyGiven] at h
    show (f.detectFork nodeId claimedKey).1.nodeKeys.find? n = _
    unfold ForkRecords.detectFork
    split
    · rw [find?_recordNodeKey, if_neg hother]
    · split <;> rfl
  | recordNodeKey nodeId publicKey =>
    have hother : nodeId ≠ n := by
      rintro rfl
      simp [keyGiven] at h
    show (f.recordNodeKey nodeId publicKey).nodeKeys.find? n = _
    rw [find?_recordNodeKey, if_neg hother]
  | markAsForked nodeId => rfl

/-- The first key for a node is recorded, however it is given. -/
theorem find?_step_of_new {f : ForkRecords} (h : keyGiven n call = some k)
    (hnew : f.nodeKeys.find? n = none) :
    (forkMachine.step f call).1.nodeKeys.find? n = some [k] := by
  cases call with
  | detectFork nodeId claimedKey =>
    obtain ⟨rfl, rfl⟩ : nodeId = n ∧ claimedKey = k := by simpa [keyGiven] using h
    show (f.detectFork nodeId claimedKey).1.nodeKeys.find? nodeId = _
    unfold ForkRecords.detectFork
    rw [hnew]
    dsimp only
    rw [find?_recordNodeKey, if_pos rfl, hnew]
    rfl
  | recordNodeKey nodeId publicKey =>
    obtain ⟨rfl, rfl⟩ : nodeId = n ∧ publicKey = k := by simpa [keyGiven] using h
    show (f.recordNodeKey nodeId publicKey).nodeKeys.find? nodeId = _
    rw [find?_recordNodeKey, if_pos rfl, hnew]
    rfl
  | markAsForked nodeId => cases h

/-- After the first one, a key is recorded only by a record. -/
theorem find?_step_of_old {f : ForkRecords} {records : List PublicKey}
    (hold : f.nodeKeys.find? n = some records) (call : ForkInput) :
    ∃ records', (forkMachine.step f call).1.nodeKeys.find? n = some records' ∧
      ∀ k, k ∈ records' ↔ k ∈ records ∨ call = .recordNodeKey n k := by
  cases call with
  | detectFork nodeId claimedKey =>
    refine ⟨records, ?_, by simp⟩
    show (f.detectFork nodeId claimedKey).1.nodeKeys.find? n = _
    unfold ForkRecords.detectFork
    split
    · rename_i hnone
      have hother : nodeId ≠ n := by
        rintro rfl
        rw [hold] at hnone
        cases hnone
      rw [find?_recordNodeKey, if_neg hother]
      exact hold
    · split <;> exact hold
  | recordNodeKey nodeId publicKey =>
    show ∃ records', (f.recordNodeKey nodeId publicKey).nodeKeys.find? n = some records' ∧ _
    rw [find?_recordNodeKey]
    by_cases hsame : nodeId = n
    · subst hsame
      rw [if_pos rfl, hold]
      refine ⟨records ++ [publicKey], rfl, ?_⟩
      intro k
      rw [List.mem_append, List.mem_singleton]
      exact or_congr_right ⟨fun h => by rw [h], fun h => by injection h with _ h; exact h.symm⟩
    · rw [if_neg hsame]
      refine ⟨records, hold, ?_⟩
      intro k
      simp [hsame]
  | markAsForked nodeId => exact ⟨records, hold, by simp⟩

/-- What makes a node a forked one. -/
theorem mem_forkedNodes_step (f : ForkRecords) :
    n ∈ (forkMachine.step f call).1.detector.forkedNodes ↔
      n ∈ f.detector.forkedNodes ∨ call = .markAsForked n ∨
        ∃ k records, call = .detectFork n k ∧ f.nodeKeys.find? n = some records ∧
          k ∉ records := by
  cases call with
  | detectFork nodeId claimedKey =>
    show n ∈ (f.detectFork nodeId claimedKey).1.detector.forkedNodes ↔ _
    unfold ForkRecords.detectFork
    cases hfind : f.nodeKeys.find? nodeId with
    -- the node's first key: whatever it is, no fork is seen
    | none =>
      show n ∈ f.detector.forkedNodes ↔ _
      refine ⟨.inl, ?_⟩
      rintro (h | h | ⟨k, records, h, hsome, -⟩)
      · exact h
      · cases h
      · cases h
        rw [hfind] at hsome
        cases hsome
    | some records =>
      dsimp only
      -- the node has keys: it is marked if the claimed one is not among them
      by_cases hknown : claimedKey ∈ records
      · rw [if_pos hknown]
        refine ⟨.inl, ?_⟩
        rintro (h | h | ⟨k, records', h, hsome, hnot⟩)
        · exact h
        · cases h
        · cases h
          rw [hfind] at hsome
          cases hsome
          exact absurd hknown hnot
      · rw [if_neg hknown]
        show n ∈ insert nodeId f.detector.forkedNodes ↔ _
        rw [Finset.mem_insert]
        constructor
        · rintro (rfl | h)
          · exact .inr (.inr ⟨claimedKey, records, rfl, hfind, hknown⟩)
          · exact .inl h
        · rintro (h | h | ⟨k, records', h, -, -⟩)
          · exact .inr h
          · cases h
          · cases h
            exact .inl rfl
  | recordNodeKey nodeId publicKey =>
    show n ∈ f.detector.forkedNodes ↔ _
    simp
  | markAsForked nodeId =>
    show n ∈ insert nodeId f.detector.forkedNodes ↔ _
    rw [Finset.mem_insert]
    constructor
    · rintro (rfl | h)
      · exact .inr (.inl rfl)
      · exact .inl h
    · rintro (h | h | ⟨k, records, h, -, -⟩)
      · exact .inr h
      · cases h
        exact .inl rfl
      · cases h

theorem Records.given_iff {f : ForkRecords} (h : Records calls f) :
    Given calls n ↔ ∃ records, f.nodeKeys.find? n = some records := by
  rw [← not_iff_not, ← h.unknown, ← Option.eq_none_iff_forall_ne_some.trans not_exists.symm]

theorem Records.step {f : ForkRecords} (h : Records calls f) (call : ForkInput) :
    Records (calls ++ [call]) (forkMachine.step f call).1 where
  unknown n := by
    rw [given_concat, not_or, not_not]
    cases hfind : f.nodeKeys.find? n with
    -- without an entry no key was given, so the call gives the first one or none
    | none =>
      have hnot := (h.unknown n).mp hfind
      cases hkey : keyGiven n call with
      | none =>
        rw [find?_step_of_not_given f hkey]
        exact iff_of_true hfind ⟨hnot, rfl⟩
      | some k =>
        rw [find?_step_of_new hkey hfind]
        simp
    | some records =>
      obtain ⟨records', hafter, -⟩ := find?_step_of_old hfind call
      rw [hafter]
      have hgiven := h.given_iff.mpr ⟨records, hfind⟩
      simp [hgiven]
  keys n records' hafter k := by
    cases hfind : f.nodeKeys.find? n with
    | none =>
      rw [known_concat_of_not_given ((h.unknown n).mp hfind)]
      cases hkey : keyGiven n call with
      | none =>
        rw [find?_step_of_not_given f hkey, hfind] at hafter
        cases hafter
      | some first =>
        rw [find?_step_of_new hkey hfind] at hafter
        cases hafter
        simp [eq_comm]
    | some records =>
      obtain ⟨records'', hstep, hmem⟩ := find?_step_of_old hfind call
      rw [hstep] at hafter
      cases hafter
      rw [known_concat_of_given (h.given_iff.mpr ⟨records, hfind⟩), hmem,
        h.keys n records hfind]
  forked n := by
    rw [mem_forkedNodes_step, h.forked, conflict_concat, List.mem_append, List.mem_singleton]
    -- the keys on record are the known ones, so the code's test is the one of the claim
    have hclaim : (∃ k records, call = .detectFork n k ∧ f.nodeKeys.find? n = some records ∧
        k ∉ records) ↔ ∃ k, call = .detectFork n k ∧ Given calls n ∧ ¬ Known calls n k := by
      constructor
      · rintro ⟨k, records, hcall, hfind, hnot⟩
        refine ⟨k, hcall, h.given_iff.mpr ⟨records, hfind⟩, ?_⟩
        rwa [← h.keys n records hfind]
      · rintro ⟨k, hcall, hgiven, hnot⟩
        obtain ⟨records, hfind⟩ := h.given_iff.mp hgiven
        refine ⟨k, records, hcall, hfind, ?_⟩
        rwa [h.keys n records hfind]
    rw [hclaim]
    tauto

theorem records_detector (calls : List ForkInput) : Records calls (detector calls) := by
  apply Machine.run_past_invariant
  · refine ⟨?_, ?_, ?_⟩
    · intro n
      simp [Given]
    · intro n records hfind
      cases hfind
    · intro n
      simp [Conflict]
  · intro past f call h
    exact h.step call

/-! ## Keys that are only claimed -/

/-- Without records, a claim of another key than the first one conflicts. -/
theorem conflict_of_claim {first : PublicKey}
    (hhead : (calls.filterMap (keyGiven n)).head? = some first)
    (hrecord : ∀ k, .recordNodeKey n k ∉ calls) (hclaim : .detectFork n k ∈ calls)
    (hne : k ≠ first) : Conflict calls n := by
  obtain ⟨front, back, rfl⟩ := List.append_of_mem hclaim
  have hkey : keyGiven n (.detectFork n k) = some k := if_pos rfl
  rw [List.filterMap_append, List.filterMap_cons_some hkey] at hhead
  refine ⟨front, k, back, rfl, given_iff_filterMap.mpr ?_, ?_⟩
  · intro hnone
    rw [hnone] at hhead
    exact hne (Option.some_inj.mp hhead)
  · rintro (hfront | hmem)
    · rw [List.head?_append, hfront] at hhead
      exact hne (Option.some_inj.mp hhead)
    · exact hrecord k (List.mem_append_left _ hmem)

/-- Among claims alone the first one is believed and every other key conflicts. -/
theorem conflict_iff_of_claims (hclaims : ∀ call ∈ calls, ∃ n k, call = .detectFork n k) :
    Conflict calls n ↔
      ∃ k k', .detectFork n k ∈ calls ∧ .detectFork n k' ∈ calls ∧ k ≠ k' := by
  have hkey : ∀ call ∈ calls, ∀ k, keyGiven n call = some k ↔ call = .detectFork n k := by
    intro call hcall k
    obtain ⟨n', k', rfl⟩ := hclaims call hcall
    simp only [keyGiven, ForkInput.detectFork.injEq]
    by_cases hsame : n' = n
    · rw [if_pos hsame, Option.some_inj]
      exact (and_iff_right hsame).symm
    · rw [if_neg hsame]
      simp [hsame]
  have hrecord : ∀ k, .recordNodeKey n k ∉ calls := by
    intro k hmem
    obtain ⟨_, _, h⟩ := hclaims _ hmem
    cases h
  constructor
  · rintro ⟨front, k, back, rfl, ⟨first, hfirst, hgiven⟩, hknown⟩
    obtain ⟨k', hk'⟩ := List.exists_mem_of_ne_nil _
      (given_iff_filterMap.mp ⟨first, hfirst, hgiven⟩)
    cases hhead : (front.filterMap (keyGiven n)).head? with
    | none =>
      rw [List.head?_eq_none_iff.mp hhead] at hk'
      cases hk'
    | some k₀ =>
      -- the first key that was given differs from the claimed one
      obtain ⟨claim, hclaim, hkeyOf⟩ := List.mem_filterMap.mp (List.mem_of_mem_head? hhead)
      rw [hkey claim (List.mem_append_left _ hclaim)] at hkeyOf
      subst hkeyOf
      refine ⟨k₀, k, List.mem_append_left _ hclaim, by simp, ?_⟩
      rintro rfl
      exact hknown (.inl hhead)
  · rintro ⟨k, k', hk, hk', hne⟩
    cases hhead : (calls.filterMap (keyGiven n)).head? with
    | none =>
      have hgiven : k ∈ calls.filterMap (keyGiven n) :=
        List.mem_filterMap.mpr ⟨_, hk, (hkey _ hk k).mpr rfl⟩
      rw [List.head?_eq_none_iff.mp hhead] at hgiven
      cases hgiven
    | some first =>
      -- one of the two is not the first
      by_cases hfirst : k = first
      · rw [hfirst] at hne
        exact conflict_of_claim hhead hrecord hk' (Ne.symm hne)
      · exact conflict_of_claim hhead hrecord hk hfirst

/-- **Forked nodes.** After any calls a node is a forked one exactly when it was marked, or a key
was claimed for it that was not known when another one was; among claims alone, when two of them
differ. A signature is taken for consistent when nothing is known about the node, or when it
verifies under one of the known keys. -/
theorem forked_iff (ed : Ed25519) (calls : List ForkInput) (n : NodeID) :
    (n ∈ (detector calls).getDetectedForks ↔ .markAsForked n ∈ calls ∨ Conflict calls n) ∧
    ((∀ call ∈ calls, ∃ n k, call = .detectFork n k) →
      (n ∈ (detector calls).getDetectedForks ↔
        ∃ k k', .detectFork n k ∈ calls ∧ .detectFork n k' ∈ calls ∧ k ≠ k')) ∧
    ∀ message signature,
      (detector calls).verifySignatureConsistency ed n message signature = true ↔
        ¬ Given calls n ∨ ∃ k, Known calls n k ∧ ed.verify message signature k = true := by
  have hrecords := records_detector calls
  have hforked : n ∈ (detector calls).getDetectedForks ↔
      .markAsForked n ∈ calls ∨ Conflict calls n := by
    rw [ForkRecords.getDetectedForks, NodeID.mem_sorted]
    exact hrecords.forked n
  refine ⟨hforked, ?_, ?_⟩
  · intro hclaims
    have hmark : .markAsForked n ∉ calls := by
      intro hmem
      obtain ⟨_, _, h⟩ := hclaims _ hmem
      cases h
    rw [hforked, conflict_iff_of_claims hclaims]
    exact or_iff_right hmark
  · intro message signature
    unfold ForkRecords.verifySignatureConsistency
    cases hfind : (detector calls).nodeKeys.find? n with
    | none => exact iff_of_true rfl (.inl ((hrecords.unknown n).mp hfind))
    | some records =>
      have hgiven := hrecords.given_iff.mpr ⟨records, hfind⟩
      dsimp only
      rw [List.any_eq_true, or_iff_right (not_not.mpr hgiven)]
      exact exists_congr fun k => and_congr_left fun _ => hrecords.keys n records hfind k

/-! ## The coordinator -/

/-- The detector is as it was made. -/
structure Untold (c : AttackDefence) : Prop where
  forked : c.connections.forkDetector.forkedNodes = ∅
  keys : c.nodeKeys = .empty

theorem untold_step (ed : Ed25519) (H : Bytes → Hash256) {c : AttackDefence}
    (input : Clock × DefenceInput) (h : Untold c) :
    Untold ((defenceMachine ed H).step c input).1 := by
  obtain ⟨clock, input⟩ := input
  obtain ⟨hforked, hkeys⟩ := h
  cases input with
  | validateIncomingConnection ipAddress nodeId =>
    refine ⟨?_, hkeys⟩
    show
      (c.connections.validateIncomingConnection clock ipAddress nodeId).1.forkDetector.forkedNodes
      = ∅
    unfold AttackPreventionCoordinator.validateIncomingConnection
    dsimp only
    -- no branch hands a key to the fork detector
    split <;> exact hforked
  | onConnectionEstablished ipAddress nodeId =>
    refine ⟨?_, hkeys⟩
    show (c.connections.onConnectionEstablished clock ipAddress nodeId).forkDetector.forkedNodes = ∅
    unfold AttackPreventionCoordinator.onConnectionEstablished
    split <;> exact hforked
  | onConnectionClosed ipAddress nodeId =>
    refine ⟨?_, hkeys⟩
    show (c.connections.onConnectionClosed ipAddress nodeId).forkDetector.forkedNodes = ∅
    unfold AttackPreventionCoordinator.onConnectionClosed
    split <;> exact hforked
  | validateRequest nodeId requestType =>
    show Untold (c.validateRequest (clock.read 0) nodeId requestType).1
    unfold AttackDefence.validateRequest
    dsimp only
    split
    · exact ⟨hforked, hkeys⟩
    · split <;> exact ⟨hforked, hkeys⟩
  | tick =>
    show Untold (c.tick clock)
    unfold AttackDefence.tick
    dsimp only
    split <;> exact ⟨hforked, hkeys⟩
  | validateNewIdentity nodeId powProof => exact ⟨hforked, hkeys⟩
  | validateSignature nodeId message signature => exact ⟨hforked, hkeys⟩
  | cleanup => exact ⟨hforked, hkeys⟩
  | setRateLimitPolicy policy => exact ⟨hforked, hkeys⟩
  | enableSybilDefense enable => exact ⟨hforked, hkeys⟩
  | enableDdosMitigation enable => exact ⟨hforked, hkeys⟩
  | enableForkDetection enable => exact ⟨hforked, hkeys⟩

/-- **Forks go unnoticed.** Whatever a coordinator has been through, no fork has been detected,
every signature of every node is consistent, and whether a connection is accepted depends on its
address alone. -/
theorem forks_go_unnoticed (ed : Ed25519) (H : Bytes → Hash256) (lastCleanupTime : UInt64)
    (inputs : List (Clock × DefenceInput)) :
    let c := ((defenceMachine ed H).run { lastCleanupTime } inputs).1
    c.detectedForks = 0 ∧
    (∀ nodeId message signature, c.validateSignature ed nodeId message signature = true) ∧
    ∀ clock ipAddress nodeId, (c.validateIncomingConnection clock ipAddress nodeId).2 =
      (!c.connections.ddosMitigationEnabled ||
        (c.connections.ddosMitigation.allowConnection clock ipAddress).2) := by
  intro c
  have huntold : Untold c :=
    (defenceMachine ed H).run_invariant (fun c input => untold_step ed H input) ⟨rfl, rfl⟩ inputs
  obtain ⟨hforked, hkeys⟩ := huntold
  refine ⟨?_, ?_, ?_⟩
  · rw [AttackDefence.detectedForks, hforked]
    rfl
  · intro nodeId message signature
    unfold AttackDefence.validateSignature
    split
    · rfl
    · show (ForkRecords.mk _ c.nodeKeys).verifySignatureConsistency ed nodeId message signature = _
      rw [hkeys]
      rfl
  · intro clock ipAddress nodeId
    show (c.connections.validateIncomingConnection clock ipAddress nodeId).2 = _
    unfold AttackPreventionCoordinator.validateIncomingConnection
    rw [hforked]
    dsimp only
    split <;> simp_all

end Cashew.Theorems.IdentityForks
