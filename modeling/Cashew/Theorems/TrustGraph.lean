import Cashew.Reputation.VouchingWorkflow
import Cashew.Theorems.StateRelations

/-!
# The trust graph and what it is rebuilt from

An edge of the graph is what the last attestation or vouch for its pair of nodes has
made it; a rebuild lets a vouch that stands win over every attestation, and knows of
attestations that a revoked vouch has taken the edge of. `graph_rebuilt_iff` has the
runs in which the two agree.
-/

namespace Cashew.Theorems.TrustGraph

open Cashew Cashew.Lib ReputationManager
open Cashew.VouchingWorkflow (hasVouch)

variable {m : ReputationManager} {source target : NodeID}

/-! ## The property -/

/-- Rebuilding the graph while nothing stored has expired leaves its edges and their
weights as they are. -/
def Agrees (m : ReputationManager) : Prop :=
  ∀ clock : Clock, (∀ a ∈ m.storedAttestations, ∀ i, a.isExpired (clock.read i) = false) →
    ∀ source target, m.trustGraph.getDirectTrust source target =
      (m.rebuildTrustGraph clock).trustGraph.getDirectTrust source target

/-- The attestations about a node. -/
def attestationsOf (m : ReputationManager) (subject : NodeID) : List Attestation :=
  (m.attestations.find? subject).getD []

/-- The attestation passes the tests of `create_attestation`. -/
def Valid (clock : Clock) (a : Attestation) : Prop :=
  a.isExpired (clock.read 0) = false ∧ verifyAttestation (clock.read 1) a = true

/-- A node attests nothing about one it vouches for, and takes back no vouch for one
it has attested something about. -/
def Unmixed (m : ReputationManager) (input : Clock × ReputationInput) : Prop :=
  match input.2 with
  | .createAttestation a => Valid input.1 a → hasVouch m a.attester a.subject = false
  | .vouchForNode _ _ _ => True
  | .revokeVouch voucher vouchee =>
    hasVouch m voucher vouchee = true → ∀ a ∈ attestationsOf m vouchee, a.attester ≠ voucher

/-! ## Weights -/

theorem clampWeight_of_mem {weight : ℚ} (h₀ : 0 ≤ weight) (h₁ : weight ≤ 1) :
    TrustGraph.clampWeight weight = weight := by
  unfold TrustGraph.clampWeight
  simp [not_lt.mpr h₀, not_lt.mpr h₁]

theorem clampWeight_vouchWeight : TrustGraph.clampWeight vouchWeight = vouchWeight :=
  clampWeight_of_mem (by norm_num [vouchWeight]) (by norm_num [vouchWeight])

/-- An attestation gives one of seven weights. -/
theorem attestationWeight_cases {P : ℚ → Prop} (delta : Int) (h₉ : P (9 / 10)) (h₇ : P (7 / 10))
    (h₆ : P (6 / 10)) (h₁ : P (1 / 10)) (h₃ : P (3 / 10)) (h₄ : P (4 / 10)) (h₅ : P (5 / 10)) :
    P (attestationWeight delta) := by
  unfold attestationWeight
  repeat' split
  all_goals assumption

theorem clampWeight_attestationWeight (delta : Int) :
    TrustGraph.clampWeight (attestationWeight delta) = attestationWeight delta := by
  have hmem : 0 ≤ attestationWeight delta ∧ attestationWeight delta ≤ 1 := by
    refine attestationWeight_cases (P := fun w => 0 ≤ w ∧ w ≤ 1) delta ?_ ?_ ?_ ?_ ?_ ?_ ?_ <;>
      norm_num
  exact clampWeight_of_mem hmem.1 hmem.2

/-- None of them is the weight of a vouch. -/
theorem attestationWeight_ne (delta : Int) : attestationWeight delta ≠ vouchWeight := by
  unfold vouchWeight
  refine attestationWeight_cases (P := fun w => w ≠ 8 / 10) delta ?_ ?_ ?_ ?_ ?_ ?_ ?_ <;> norm_num

/-! ## Edges -/

theorem getDirectTrust_addEdge (g : Cashew.TrustGraph) (now : Time) (s t : NodeID) (weight : ℚ) :
    (g.addEdge now s t weight).getDirectTrust source target =
      if s = source ∧ t = target then some (TrustGraph.clampWeight weight)
      else g.getDirectTrust source target := by
  unfold TrustGraph.addEdge TrustGraph.getDirectTrust
  dsimp only
  rw [OrdMap.find?_upsert]
  by_cases hs : s = source
  · subst hs
    by_cases ht : t = target
    · simp [ht]
    · cases g.edges.find? s with
      | none => simp [OrdMap.find?_insert, ht]
      | some targets => simp [OrdMap.find?_insert, ht]
  · simp [hs]

theorem getDirectTrust_removeEdge (g : Cashew.TrustGraph) (s t : NodeID) :
    (g.removeEdge s t).getDirectTrust source target =
      if s = source ∧ t = target then none else g.getDirectTrust source target := by
  unfold TrustGraph.removeEdge TrustGraph.getDirectTrust
  dsimp only
  rw [OrdMap.find?_modify]
  by_cases hs : s = source
  · subst hs
    by_cases ht : t = target
    · cases g.edges.find? s with
      | none => simp
      | some targets => simp [OrdMap.find?_erase, ht]
    · cases g.edges.find? s with
      | none => simp
      | some targets => simp [OrdMap.find?_erase, ht]
  · simp [hs]

/-- A loop whose body may set an edge leaves the last weight it has set. -/
theorem getDirectTrust_foldl {α : Type} {body : Cashew.TrustGraph → α → Cashew.TrustGraph}
    {f : α → Option ℚ} (items : List α) (g : Cashew.TrustGraph)
    (hbody : ∀ g, ∀ x ∈ items, (body g x).getDirectTrust source target =
      (f x).or (g.getDirectTrust source target)) :
    (items.foldl body g).getDirectTrust source target =
      (items.filterMap f).getLast?.or (g.getDirectTrust source target) := by
  induction items using List.reverseRecOn with
  | nil => rfl
  | append_singleton rest x ih =>
    have hx := hbody (rest.foldl body g) x (by simp)
    have hrest := ih fun g y hy => hbody g y (List.mem_append_left _ hy)
    rw [List.foldl_append, List.foldl_cons, List.foldl_nil, hx, hrest, List.filterMap_append]
    cases hf : f x with
    | none => simp [hf]
    | some weight => simp [hf]

/-- A test that sets one weight has set it if it holds anywhere. -/
theorem getLast?_filterMap_const {α : Type} (p : α → Prop) [DecidablePred p] (weight : ℚ)
    (items : List α) :
    (items.filterMap fun x => if p x then some weight else none).getLast? =
      if ∃ x ∈ items, p x then some weight else none := by
  induction items using List.reverseRecOn with
  | nil => simp
  | append_singleton rest x ih =>
    rw [List.filterMap_append]
    by_cases hx : p x
    · simp [hx]
    · simp [hx, ih]

theorem filterMap_zipIdx {α β : Type} (f : α → Option β) (items : List α) :
    items.zipIdx.filterMap (fun e => f e.1) = items.filterMap f := by
  conv_rhs => rw [← List.zipIdx_map_fst 0 items, List.filterMap_map]
  rfl

/-! ## The rebuilt graph -/

/-- Attestations are filed under their subjects, and none is born expired. -/
def Filed (m : ReputationManager) : Prop :=
  ∀ subject, ∀ a ∈ attestationsOf m subject, a.subject = subject ∧ a.expiresAt ≠ 0

/-- The weights the attestations about a node give its edge from another one. -/
def attestedWeights (m : ReputationManager) (source target : NodeID) : List ℚ :=
  (attestationsOf m target).filterMap fun a =>
    if a.attester = source then some (attestationWeight a.scoreDelta) else none

/-- The weight of an edge by what is stored: that of a vouch that stands, or else that
of the last attestation. -/
def expected (m : ReputationManager) (source target : NodeID) : Option ℚ :=
  if hasVouch m source target then some vouchWeight
  else (attestedWeights m source target).getLast?

theorem mem_storedAttestations {a : Attestation} :
    a ∈ m.storedAttestations ↔ ∃ subject, a ∈ attestationsOf m subject := by
  unfold storedAttestations attestationsOf
  rw [List.mem_flatMap]
  constructor
  · rintro ⟨⟨subject, list⟩, hentry, ha⟩
    refine ⟨subject, ?_⟩
    rw [OrdMap.mem_entries.mp hentry]
    exact ha
  · rintro ⟨subject, ha⟩
    cases hfind : m.attestations.find? subject with
    | none => simp [hfind] at ha
    | some list =>
      rw [hfind] at ha
      exact ⟨(subject, list), OrdMap.mem_entries.mpr hfind, ha⟩

/-- The vouches that stand are those that can be revoked. -/
theorem hasVouch_eq (m : ReputationManager) (voucher vouchee : NodeID) :
    hasVouch m voucher vouchee =
      (m.vouches.find? voucher).any fun records => records.any (isRevocable vouchee) := by
  unfold hasVouch getVouchesBy
  cases m.vouches.find? voucher <;> rfl

theorem hasVouch_congr {m' : ReputationManager} (h : m'.vouches = m.vouches)
    (source target : NodeID) : hasVouch m' source target = hasVouch m source target := by
  rw [hasVouch_eq, hasVouch_eq, h]

theorem hasVouch_iff :
    hasVouch m source target = true ↔
      ∃ e ∈ m.storedVouches, e.2.stillActive = true ∧ e.1 = source ∧ e.2.vouchee = target := by
  rw [hasVouch_eq]
  unfold storedVouches
  simp only [Option.any_eq_true, List.any_eq_true, isRevocable, decide_eq_true_eq,
    List.mem_flatMap, List.mem_map]
  constructor
  · rintro ⟨records, hfind, record, hrecord, htarget, hactive⟩
    exact ⟨(source, record), ⟨(source, records), OrdMap.mem_entries.mpr hfind, record, hrecord,
      rfl⟩, hactive, rfl, htarget⟩
  · rintro ⟨_, ⟨⟨voucher, records⟩, hentry, record, hrecord, rfl⟩, hactive, rfl, htarget⟩
    exact ⟨records, OrdMap.mem_entries.mp hentry, record, hrecord, htarget, hactive⟩

/-- Where attestations are filed under their subjects, a loop over all of them finds
those about one node under it. -/
theorem filterMap_storedAttestations (h : Filed m) :
    (m.storedAttestations.filterMap fun a =>
      if a.attester = source ∧ a.subject = target then some (attestationWeight a.scoreDelta)
      else none) = attestedWeights m source target := by
  have hsubject : ∀ subject list, m.attestations.find? subject = some list →
      ∀ a ∈ list, a.subject = subject := by
    intro subject list hfind a ha
    refine (h subject a ?_).1
    rw [attestationsOf, hfind]
    exact ha
  unfold storedAttestations attestedWeights attestationsOf
  rw [List.filterMap_flatMap, OrdMap.flatMap_entries (k := target)]
  · cases hfind : m.attestations.find? target with
    | none => rfl
    | some list =>
      refine List.filterMap_congr fun a ha => ?_
      simp [hsubject target list hfind a ha]
  · intro subject list hfind hne
    refine List.filterMap_eq_nil_iff.mpr fun a ha => ?_
    simp [hsubject subject list hfind a ha, hne]

/-- While nothing has expired, a rebuild has the expected edges. -/
theorem getDirectTrust_rebuild (h : Filed m) {clock : Clock}
    (hlive : ∀ a ∈ m.storedAttestations, ∀ i, a.isExpired (clock.read i) = false) :
    (m.rebuildTrustGraph clock).trustGraph.getDirectTrust source target =
      expected m source target := by
  unfold rebuildTrustGraph expected
  dsimp only
  -- vouches are added after the attestations, and the last edge of a pair stands
  rw [getDirectTrust_foldl (f := fun e => if e.1.2.stillActive = true ∧ e.1.1 = source ∧
      e.1.2.vouchee = target then some vouchWeight else none),
    getDirectTrust_foldl (f := fun e => if e.1.attester = source ∧ e.1.subject = target then
      some (attestationWeight e.1.scoreDelta) else none),
    filterMap_zipIdx fun e : NodeID × VouchRecord => if e.2.stillActive = true ∧ e.1 = source ∧
      e.2.vouchee = target then some vouchWeight else none,
    filterMap_zipIdx fun a : Attestation => if a.attester = source ∧ a.subject = target then
      some (attestationWeight a.scoreDelta) else none,
    getLast?_filterMap_const, filterMap_storedAttestations h]
  · by_cases hvouch : hasVouch m source target = true
    · rw [if_pos (hasVouch_iff.mp hvouch), if_pos hvouch]
      rfl
    · rw [if_neg fun hex => hvouch (hasVouch_iff.mpr hex), if_neg hvouch]
      exact Option.or_none
  · intro g e he
    have hmem : e.1 ∈ m.storedAttestations := List.fst_mem_of_mem_zipIdx he
    rw [if_neg (Bool.eq_false_iff.mp (hlive e.1 hmem _)), getDirectTrust_addEdge,
      clampWeight_attestationWeight]
    split <;> rfl
  · intro g e _
    split
    · rw [getDirectTrust_addEdge, clampWeight_vouchWeight]
      rename_i hactive
      simp only [hactive, true_and]
      split <;> rfl
    · rename_i hinactive
      simp [hinactive]

/-- The graph agrees with its rebuild when its edges are the expected ones. -/
theorem agrees_iff (h : Filed m) :
    Agrees m ↔ ∀ source target,
      m.trustGraph.getDirectTrust source target = expected m source target := by
  constructor
  · intro hagrees source target
    -- at the zero of the clock nothing has expired
    have hlive : ∀ a ∈ m.storedAttestations, ∀ i,
        a.isExpired ((Clock.still ⟨0, by decide⟩).read i) = false := by
      intro a ha i
      obtain ⟨subject, hmem⟩ := mem_storedAttestations.mp ha
      rw [Attestation.isExpired, decide_eq_false_iff_not, Clock.read_still, UInt64.not_le]
      exact UInt64.pos_iff_ne_zero.mpr (h subject a hmem).2
    rw [hagrees _ hlive, getDirectTrust_rebuild h hlive]
  · intro hexpected clock hlive source target
    rw [hexpected, getDirectTrust_rebuild h hlive]

/-! ## Steps -/

/-- An attestation that passes the tests is stored and sets its edge. -/
theorem createAttestation_cases (m : ReputationManager) (clock : Clock) (a : Attestation) :
    (Valid clock a ∧
      (m.createAttestation clock a).1.attestations = m.attestations.upsert a.subject [] (· ++ [a]) ∧
      (m.createAttestation clock a).1.vouches = m.vouches ∧
      (m.createAttestation clock a).1.trustGraph = m.trustGraph.addEdge (clock.read 3) a.attester
        a.subject (attestationWeight a.scoreDelta)) ∨
    (¬ Valid clock a ∧ (m.createAttestation clock a).1 = m) := by
  unfold createAttestation Valid
  cases hexpired : a.isExpired (clock.read 0) with
  | true => simp
  | false =>
    cases hverify : verifyAttestation (clock.read 1) a with
    | false => simp
    | true => simp [applyScoreDelta]

/-- So does a vouch. -/
theorem vouchForNode_cases (m : ReputationManager) (clock : Clock) (state : StateManager)
    (voucher vouchee : NodeID) :
    (∃ record : VouchRecord, record.vouchee = vouchee ∧ record.stillActive = true ∧
      (m.vouchForNode clock state voucher vouchee).1.vouches =
        m.vouches.upsert voucher [] (· ++ [record]) ∧
      (m.vouchForNode clock state voucher vouchee).1.attestations = m.attestations ∧
      (m.vouchForNode clock state voucher vouchee).1.trustGraph =
        m.trustGraph.addEdge (clock.read 1) voucher vouchee vouchWeight) ∨
    (m.vouchForNode clock state voucher vouchee).1 = m := by
  unfold vouchForNode
  split
  · exact .inr rfl
  · exact .inl ⟨_, rfl, rfl, rfl, rfl, rfl⟩

/-- The records with the vouches for one node taken back. -/
theorem any_revoked (records : List VouchRecord) (vouchee t : NodeID) :
    (records.map fun record => if isRevocable vouchee record then
      { record with stillActive := false } else record).any (isRevocable t) =
      if vouchee = t then false else records.any (isRevocable t) := by
  induction records with
  | nil => simp
  | cons record rest ih =>
    rw [List.map_cons, List.any_cons, ih, List.any_cons]
    by_cases ht : vouchee = t
    · subst ht
      cases hrevocable : isRevocable vouchee record with
      | true => simp [isRevocable]
      | false => simp [hrevocable]
    · by_cases hrevocable : isRevocable vouchee record = true
      · have hvouchee : record.vouchee ≠ t := (of_decide_eq_true hrevocable).1 ▸ ht
        rw [if_pos hrevocable]
        simp [isRevocable, ht, hvouchee]
      · simp [hrevocable, ht]

/-- A vouch that stands is taken back with its edge. -/
theorem revokeVouch_cases (m : ReputationManager) (voucher vouchee : NodeID) :
    (m.revokeVouch voucher vouchee).1.attestations = m.attestations ∧
    (∀ s t, hasVouch (m.revokeVouch voucher vouchee).1 s t =
      if voucher = s ∧ vouchee = t then false else hasVouch m s t) ∧
    (m.revokeVouch voucher vouchee).1.trustGraph =
      if hasVouch m voucher vouchee then m.trustGraph.removeEdge voucher vouchee
      else m.trustGraph := by
  unfold revokeVouch
  cases hfind : m.vouches.find? voucher with
  | none =>
    have hnone : ∀ t, hasVouch m voucher t = false := fun t => by simp [hasVouch_eq, hfind]
    refine ⟨rfl, fun s t => ?_, by simp [hnone]⟩
    show hasVouch m s t = _
    by_cases hpair : voucher = s ∧ vouchee = t
    · rw [if_pos hpair, ← hpair.1]
      exact hnone t
    · rw [if_neg hpair]
  | some records =>
    have hsome : ∀ t, hasVouch m voucher t = records.any (isRevocable t) := fun t => by
      simp [hasVouch_eq, hfind]
    dsimp only
    -- the records of the pair are switched off, those of others stay
    have hvouches : ∀ s t, ((m.vouches.insert voucher (records.map fun record =>
        if isRevocable vouchee record then { record with stillActive := false } else record)).find?
          s).any (fun records => records.any (isRevocable t)) =
        if voucher = s ∧ vouchee = t then false else hasVouch m s t := by
      intro s t
      rw [OrdMap.find?_insert]
      by_cases hs : voucher = s
      · subst hs
        rw [if_pos rfl, Option.any_some, any_revoked, hsome]
        simp
      · simp [hs, hasVouch_eq]
    rw [hsome]
    split
    · exact ⟨rfl, fun s t => (hasVouch_eq _ s t).trans (hvouches s t), rfl⟩
    · exact ⟨rfl, fun s t => (hasVouch_eq _ s t).trans (hvouches s t), rfl⟩

theorem attestationsOf_congr {m' : ReputationManager} (h : m'.attestations = m.attestations) :
    attestationsOf m' = attestationsOf m := by
  funext subject
  rw [attestationsOf, attestationsOf, h]

theorem attestedWeights_congr {m' : ReputationManager} (h : m'.attestations = m.attestations) :
    attestedWeights m' = attestedWeights m := by
  funext source target
  rw [attestedWeights, attestedWeights, attestationsOf_congr h]

theorem attestationsOf_upsert (a : Attestation) {m' : ReputationManager}
    (h : m'.attestations = m.attestations.upsert a.subject [] (· ++ [a])) (subject : NodeID) :
    attestationsOf m' subject =
      attestationsOf m subject ++ if a.subject = subject then [a] else [] := by
  unfold attestationsOf
  rw [h, OrdMap.find?_upsert]
  by_cases hs : a.subject = subject
  · simp [hs]
  · simp [hs]

theorem hasVouch_upsert (record : VouchRecord) (voucher : NodeID)
    (hactive : record.stillActive = true) {m' : ReputationManager}
    (h : m'.vouches = m.vouches.upsert voucher [] (· ++ [record])) :
    hasVouch m' source target =
      (hasVouch m source target || decide (voucher = source ∧ record.vouchee = target)) := by
  rw [hasVouch_eq, hasVouch_eq, h, OrdMap.find?_upsert]
  by_cases hs : voucher = source
  · subst hs
    cases m.vouches.find? voucher with
    | none => simp [isRevocable, hactive]
    | some records => simp [isRevocable, hactive]
  · simp [hs]

theorem Filed.step (m : ReputationManager) (input : Clock × ReputationInput) (h : Filed m) :
    Filed (reputationMachine.step m input).1 := by
  obtain ⟨clock, call⟩ := input
  cases call with
  | createAttestation a =>
    rcases createAttestation_cases m clock a with ⟨hvalid, hattestations, _, _⟩ | ⟨_, heq⟩
    · intro subject b hb
      replace hb : b ∈ attestationsOf (m.createAttestation clock a).1 subject := hb
      rw [attestationsOf_upsert a hattestations] at hb
      rcases List.mem_append.mp hb with hold | hnew
      · exact h subject b hold
      · split at hnew
        · rename_i hsubject
          cases List.mem_singleton.mp hnew
          refine ⟨hsubject, fun hzero => ?_⟩
          have hlive := hvalid.1
          rw [Attestation.isExpired, hzero, decide_eq_false_iff_not] at hlive
          exact hlive UInt64.zero_le
        · cases hnew
    · exact heq.symm ▸ h
  | vouchForNode state voucher vouchee =>
    rcases vouchForNode_cases m clock state voucher vouchee with
      ⟨_, _, _, _, hattestations, _⟩ | heq
    · exact fun subject => attestationsOf_congr hattestations ▸ h subject
    · exact heq.symm ▸ h
  | revokeVouch voucher vouchee =>
    have hsame := attestationsOf_congr (revokeVouch_cases m voucher vouchee).1
    exact fun subject => hsame ▸ h subject

/-- An attestation keeps the edges as expected unless its pair has a vouch. -/
theorem expected_createAttestation {clock : Clock} {a : Attestation}
    (h : ∀ s t, m.trustGraph.getDirectTrust s t = expected m s t) :
    (∀ s t, (m.createAttestation clock a).1.trustGraph.getDirectTrust s t =
      expected (m.createAttestation clock a).1 s t) ↔
      (Valid clock a → hasVouch m a.attester a.subject = false) := by
  rcases createAttestation_cases m clock a with
    ⟨hvalid, hattestations, hvouches, hgraph⟩ | ⟨hinvalid, heq⟩
  · have hvouch : ∀ s t, hasVouch (m.createAttestation clock a).1 s t = hasVouch m s t :=
      hasVouch_congr hvouches
    have hweights : ∀ s t, attestedWeights (m.createAttestation clock a).1 s t =
        attestedWeights m s t ++ if a.attester = s ∧ a.subject = t then
          [attestationWeight a.scoreDelta] else [] := by
      intro s t
      rw [attestedWeights, attestationsOf_upsert a hattestations, List.filterMap_append]
      by_cases hs : a.attester = s <;> by_cases ht : a.subject = t <;>
        simp [attestedWeights, hs, ht]
    constructor
    · intro hnext _
      have hpair := hnext a.attester a.subject
      rw [hgraph, getDirectTrust_addEdge, if_pos ⟨rfl, rfl⟩, clampWeight_attestationWeight,
        expected, hvouch] at hpair
      -- no attestation has the weight of a vouch, so the edge would not be the expected one
      cases hhas : hasVouch m a.attester a.subject with
      | false => rfl
      | true =>
        rw [hhas, if_pos rfl] at hpair
        exact absurd (Option.some.inj hpair) (attestationWeight_ne _)
    · intro hnone s t
      rw [hgraph, getDirectTrust_addEdge, clampWeight_attestationWeight, expected, hvouch, hweights]
      by_cases hpair : a.attester = s ∧ a.subject = t
      · obtain ⟨rfl, rfl⟩ := hpair
        simp [hnone hvalid]
      · rw [if_neg hpair, if_neg hpair, List.append_nil, h, expected]
  · rw [heq]
    exact iff_of_true h fun hvalid => absurd hvalid hinvalid

/-- A vouch always does. -/
theorem expected_vouchForNode {clock : Clock} {state : StateManager} {voucher vouchee : NodeID}
    (h : ∀ s t, m.trustGraph.getDirectTrust s t = expected m s t) (s t : NodeID) :
    (m.vouchForNode clock state voucher vouchee).1.trustGraph.getDirectTrust s t =
      expected (m.vouchForNode clock state voucher vouchee).1 s t := by
  rcases vouchForNode_cases m clock state voucher vouchee with
    ⟨record, rfl, hactive, hvouches, hattestations, hgraph⟩ | heq
  · rw [hgraph, getDirectTrust_addEdge, clampWeight_vouchWeight, expected,
      hasVouch_upsert record voucher hactive hvouches, attestedWeights_congr hattestations, h,
      expected]
    by_cases hpair : voucher = s ∧ record.vouchee = t
    · simp [hpair]
    · simp [hpair]
  · rw [heq]
    exact h s t

/-- Taking back a vouch does unless there are attestations for its pair. -/
theorem expected_revokeVouch {voucher vouchee : NodeID}
    (h : ∀ s t, m.trustGraph.getDirectTrust s t = expected m s t) :
    (∀ s t, (m.revokeVouch voucher vouchee).1.trustGraph.getDirectTrust s t =
      expected (m.revokeVouch voucher vouchee).1 s t) ↔
      (hasVouch m voucher vouchee = true →
        ∀ a ∈ attestationsOf m vouchee, a.attester ≠ voucher) := by
  obtain ⟨hattestations, hvouch, hgraph⟩ := revokeVouch_cases m voucher vouchee
  have hweights := attestedWeights_congr hattestations
  have hnone : (attestedWeights m voucher vouchee).getLast? = none ↔
      ∀ a ∈ attestationsOf m vouchee, a.attester ≠ voucher := by
    rw [List.getLast?_eq_none_iff, attestedWeights, List.filterMap_eq_nil_iff]
    simp
  cases hhas : hasVouch m voucher vouchee with
  | false =>
    refine iff_of_true (fun s t => ?_) fun hfalse => absurd hfalse Bool.false_ne_true
    rw [hgraph, hhas, if_neg Bool.false_ne_true, h, expected, expected, hvouch, hweights]
    by_cases hpair : voucher = s ∧ vouchee = t
    · obtain ⟨rfl, rfl⟩ := hpair
      simp [hhas]
    · rw [if_neg hpair]
  -- the edge goes, so an attestation that would have left a weight must not be there
  | true =>
    rw [forall_prop_of_true rfl, ← hnone]
    constructor
    · intro hnext
      have hoff : hasVouch (m.revokeVouch voucher vouchee).1 voucher vouchee = false := by
        rw [hvouch, if_pos ⟨rfl, rfl⟩]
      have hpair := hnext voucher vouchee
      rw [hgraph, hhas, if_pos rfl, getDirectTrust_removeEdge, if_pos ⟨rfl, rfl⟩, expected, hoff,
        if_neg Bool.false_ne_true, hweights] at hpair
      exact hpair.symm
    · intro hlast s t
      rw [hgraph, hhas, if_pos rfl, getDirectTrust_removeEdge, expected, hvouch, hweights]
      by_cases hpair : voucher = s ∧ vouchee = t
      · obtain ⟨rfl, rfl⟩ := hpair
        simp [hlast]
      · rw [if_neg hpair, if_neg hpair, h, expected]

/-! ## The main result -/

/-- **Rebuilding the trust graph.** In a run from an empty manager the graph agrees at
every moment with the one rebuilt from what is stored, exactly when no node attests
something about a node it has a standing vouch for, and none takes back a vouch for a
node it has attested something about. -/
theorem graph_rebuilt_iff (inputs : List (Clock × ReputationInput)) :
    reputationMachine.Always Agrees {} inputs ↔
      reputationMachine.StepsMeet Unmixed {} inputs := by
  have hempty : Filed {} := fun subject a ha => by cases ha
  refine reputationMachine.always_iff (P := Filed) Filed.step ?_ hempty
    ((agrees_iff hempty).mpr fun _ _ => rfl) inputs
  intro m input hfiled hagrees
  have hexpected := (agrees_iff hfiled).mp hagrees
  rw [agrees_iff (hfiled.step m input)]
  obtain ⟨clock, call⟩ := input
  cases call with
  | createAttestation a => exact expected_createAttestation hexpected
  | vouchForNode state voucher vouchee =>
    exact iff_of_true (expected_vouchForNode hexpected) trivial
  | revokeVouch voucher vouchee => exact expected_revokeVouch hexpected

/-- Node 3 attests to node 2, which then vouches for node 1 and denounces it. -/
def vouchesAndDenounces : List (Clock × ReputationInput) :=
  let attestation (attester subject : Nat) (scoreDelta : Int) : Attestation :=
    { attester := sampleNode attester, subject := sampleNode subject, scoreDelta,
      statement := Text.ofString "seen", timestamp := 1200, expiresAt := 4800,
      signature := ⟨List.replicate 64 1, rfl⟩ }
  [(Clock.still sampleTime, .createAttestation (attestation 3 2 100)),
    (Clock.still sampleTime, .vouchForNode
      (stateMachine.run {} [StateRelations.sampleEvent .nodeJoined []]).1 (sampleNode 2)
      (sampleNode 1)),
    (Clock.still sampleTime, .createAttestation (attestation 2 1 (-60)))]

/-- Its edge has the weight of the denouncement, and gets that of the vouch back when the
graph is rebuilt. -/
theorem denounced_vouch_rebuilt : ¬ reputationMachine.Always Agrees {} vouchesAndDenounces := by
  rintro ⟨_, _, _, hagrees⟩
  have hlive : ∀ a ∈ (reputationMachine.run {} vouchesAndDenounces).1.storedAttestations,
      a.isExpired sampleTime = false := by
    decide
  have hedge := hagrees (Clock.still sampleTime) (fun a ha _ => hlive a ha) (sampleNode 2)
    (sampleNode 1)
  have hnow : (reputationMachine.run {} vouchesAndDenounces).1.trustGraph.getDirectTrust
      (sampleNode 2) (sampleNode 1) = some (1 / 10) := by
    decide +kernel
  have hrebuilt : ((reputationMachine.run {} vouchesAndDenounces).1.rebuildTrustGraph
      (Clock.still sampleTime)).trustGraph.getDirectTrust (sampleNode 2) (sampleNode 1) =
        some (8 / 10) := by
    decide +kernel
  have hweights : some (1 / 10 : ℚ) = some (8 / 10) := hnow.symm.trans (hedge.trans hrebuilt)
  norm_num at hweights

end Cashew.Theorems.TrustGraph
