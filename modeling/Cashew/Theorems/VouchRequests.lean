import Cashew.Reputation.VouchingWorkflow
import Cashew.Theorems.TrustGraph

/-!
# Requests for vouches

`request_vouch` records the vouch before it offers an attestation for it to
`create_attestation`, which has tests that `can_vouch` does not have: the attester must not
be the subject. So a node that vouches for itself is told no and keeps the record and the
edge. `vouch_request_iff` says when a refused request leaves nothing behind and when no
node vouches for itself.
-/

namespace Cashew.Theorems.VouchRequests

open Cashew Cashew.Lib ReputationManager VouchingWorkflow

variable {H : Bytes → Hash256} {ed : Ed25519} {m : ReputationManager}

/-! ## The property -/

/-- A request that fails leaves the manager as it was. -/
def Atomic (m : ReputationManager) (answer : ReputationManager × Bool) : Prop :=
  answer.2 = false → answer.1 = m

/-- No node has a vouch for itself that stands, or an edge to itself. -/
structure NoSelfVouch (m : ReputationManager) : Prop where
  record : ∀ node, hasVouch m node node = false
  edge : ∀ node, m.trustGraph.getDirectTrust node node = none

/-- The tests of `create_attestation` that remain for the attestation of a vouch: voucher and
vouchee are two nodes, neither of them zero, the clock stays within thirty days during the
call, and the signature is not zero. -/
def Attestable (H : Bytes → Hash256) (ed : Ed25519) (clock : Clock) (voucherIdentity : NodeIdentity)
    (vouchee : NodeID) (reason : Text) : Prop :=
  (clock.read 3).secs.toNat < (clock.read 0).secs.toNat + 2592000 ∧
    (clock.read 4).secs.toNat < (clock.read 0).secs.toNat + 2592000 ∧
    (voucherIdentity.id H).id ≠ (default : NodeID).id ∧ vouchee.id ≠ (default : NodeID).id ∧
    voucherIdentity.id H ≠ vouchee ∧
    ∃ b ∈ (vouchAttestation H ed clock voucherIdentity vouchee reason).signature.bytes, b ≠ 0

/-- A call that passes `can_vouch` is not for the voucher itself. -/
def NotSelf (H : Bytes → Hash256) (m : ReputationManager) : VouchingInput → Prop
  | .requestVouch state voucherIdentity vouchee _ =>
    m.canVouch state (voucherIdentity.id H) vouchee = true → voucherIdentity.id H ≠ vouchee
  | .manager (.vouchForNode state voucher vouchee) =>
    m.canVouch state voucher vouchee = true → voucher ≠ vouchee
  | _ => True

/-! ## One request -/

theorem verifyAttestation_iff (now : Time) (a : Attestation) :
    verifyAttestation now a = true ↔
      a.isExpired now = false ∧ a.attester.id ≠ (default : NodeID).id ∧
        a.subject.id ≠ (default : NodeID).id ∧ a.attester ≠ a.subject ∧ a.statement.bytes ≠ [] ∧
        (-100 ≤ a.scoreDelta ∧ a.scoreDelta ≤ 100) ∧ ∃ b ∈ a.signature.bytes, b ≠ 0 := by
  unfold verifyAttestation
  simp

theorem isExpired_vouchAttestation (clock : Clock) (voucherIdentity : NodeIdentity)
    (vouchee : NodeID) (reason : Text) (now : Time) :
    (vouchAttestation H ed clock voucherIdentity vouchee reason).isExpired now = false ↔
      now.secs.toNat < (clock.read 0).secs.toNat + 2592000 := by
  have hsigned := (clock.read 0).signed
  have hmonth : (2592000 : UInt64).toNat = 2592000 := rfl
  have hexpires : (vouchAttestation H ed clock voucherIdentity vouchee reason).expiresAt =
      (clock.read 0).secs + 2592000 := rfl
  rw [Attestation.isExpired, decide_eq_false_iff_not, hexpires, UInt64.le_iff_toNat_le,
    UInt64.toNat_add, hmonth, Nat.mod_eq_of_lt (by omega), Nat.not_le]

/-- The attestation of a vouch passes the tests exactly when it is attestable. -/
theorem valid_vouchAttestation_iff (clock : Clock) (voucherIdentity : NodeIdentity)
    (vouchee : NodeID) (reason : Text) :
    TrustGraph.Valid (clock.after 3) (vouchAttestation H ed clock voucherIdentity vouchee reason) ↔
      Attestable H ed clock voucherIdentity vouchee reason := by
  have hstatement :
      (vouchAttestation H ed clock voucherIdentity vouchee reason).statement.bytes ≠ [] := by
    show (if reason.bytes = [] then Text.ofString "Vouching for this node" else reason).bytes ≠ []
    split
    · decide
    · assumption
  have hdelta : (vouchAttestation H ed clock voucherIdentity vouchee reason).scoreDelta = 20 := rfl
  unfold TrustGraph.Valid Attestable
  rw [verifyAttestation_iff, isExpired_vouchAttestation, isExpired_vouchAttestation, hdelta]
  constructor
  · rintro ⟨hfirst, hsecond, hvoucher, hvouchee, hself, -, -, hsignature⟩
    exact ⟨hfirst, hsecond, hvoucher, hvouchee, hself, hsignature⟩
  · rintro ⟨hfirst, hsecond, hvoucher, hvouchee, hself, hsignature⟩
    exact ⟨hfirst, hsecond, hvoucher, hvouchee, hself, hstatement, by decide, hsignature⟩

theorem createAttestation_result (m : ReputationManager) (clock : Clock) (a : Attestation) :
    (m.createAttestation clock a).2 = true ↔ TrustGraph.Valid clock a := by
  unfold createAttestation TrustGraph.Valid
  cases a.isExpired (clock.read 0) <;> cases verifyAttestation (clock.read 1) a <;> simp

/-- A vouch that is made is one record more. -/
theorem vouchForNode_ne (clock : Clock) {state : StateManager} {voucher vouchee : NodeID}
    (h : m.canVouch state voucher vouchee = true) :
    (m.vouchForNode clock state voucher vouchee).2 = true ∧
      ((m.vouchForNode clock state voucher vouchee).1.vouches.find? voucher).getD [] ≠
        (m.vouches.find? voucher).getD [] := by
  unfold vouchForNode
  rw [h, Bool.not_true, if_neg Bool.false_ne_true]
  refine ⟨rfl, ?_⟩
  dsimp only
  rw [OrdMap.find?_upsert, if_pos rfl, Option.getD_some]
  intro heq
  exact absurd (congrArg List.length heq) (by simp)

section Request

variable {clock : Clock} {state : StateManager} {voucherIdentity : NodeIdentity} {vouchee : NodeID}
  {reason : Text}

theorem requestVouch_of_canVouch (h : m.canVouch state (voucherIdentity.id H) vouchee = true) :
    requestVouch H ed m clock state voucherIdentity vouchee reason =
      (m.vouchForNode (clock.after 1) state (voucherIdentity.id H) vouchee).1.createAttestation
        (clock.after 3) (vouchAttestation H ed clock voucherIdentity vouchee reason) := by
  unfold requestVouch
  rw [h, Bool.not_true, if_neg Bool.false_ne_true]
  dsimp only
  rw [(vouchForNode_ne (clock.after 1) h).1, Bool.not_true, if_neg Bool.false_ne_true]

theorem requestVouch_of_not_canVouch
    (h : m.canVouch state (voucherIdentity.id H) vouchee = false) :
    requestVouch H ed m clock state voucherIdentity vouchee reason = (m, false) := by
  unfold requestVouch
  rw [h]
  rfl

/-- What is refused after `can_vouch` leaves the vouch behind. -/
theorem requestVouch_atomic_iff :
    Atomic m (requestVouch H ed m clock state voucherIdentity vouchee reason) ↔
      (m.canVouch state (voucherIdentity.id H) vouchee = true →
        Attestable H ed clock voucherIdentity vouchee reason) := by
  cases hcan : m.canVouch state (voucherIdentity.id H) vouchee with
  | false =>
    rw [requestVouch_of_not_canVouch hcan]
    exact iff_of_true (fun _ => rfl) fun h => nomatch h
  | true =>
    rw [requestVouch_of_canVouch hcan, forall_prop_of_true rfl, ← valid_vouchAttestation_iff]
    unfold Atomic
    rcases TrustGraph.createAttestation_cases
      (m.vouchForNode (clock.after 1) state (voucherIdentity.id H) vouchee).1 (clock.after 3)
      (vouchAttestation H ed clock voucherIdentity vouchee reason) with
      ⟨hvalid, -⟩ | ⟨hinvalid, hsame⟩
    · have haccepted := (createAttestation_result
        (m.vouchForNode (clock.after 1) state (voucherIdentity.id H) vouchee).1 _ _).mpr hvalid
      rw [haccepted]
      exact iff_of_true (fun h => nomatch h) hvalid
    · have hrefused := mt (createAttestation_result
        (m.vouchForNode (clock.after 1) state (voucherIdentity.id H) vouchee).1 _ _).mp hinvalid
      refine iff_of_false (fun hatomic => ?_) hinvalid
      have hleft := hsame.symm.trans (hatomic (Bool.eq_false_iff.mpr hrefused))
      refine (vouchForNode_ne (clock.after 1) hcan).2 ?_
      rw [hleft]

end Request

/-! ## Edges -/

/-- No edge leads from a node to itself. -/
def NoSelfEdge (g : Cashew.TrustGraph) : Prop := ∀ node, g.getDirectTrust node node = none

theorem NoSelfEdge.addEdge {g : Cashew.TrustGraph} (h : NoSelfEdge g) {source target : NodeID}
    (hne : source ≠ target) (now : Time) (weight : ℚ) :
    NoSelfEdge (g.addEdge now source target weight) := by
  intro node
  rw [TrustGraph.getDirectTrust_addEdge, if_neg (fun heq => hne (heq.1.trans heq.2.symm))]
  exact h node

theorem NoSelfEdge.removeEdge {g : Cashew.TrustGraph} (h : NoSelfEdge g) (source target : NodeID) :
    NoSelfEdge (g.removeEdge source target) := by
  intro node
  rw [TrustGraph.getDirectTrust_removeEdge]
  split
  · rfl
  · exact h node

/-! ## Steps -/

/-- Nobody attests anything about itself. -/
def Distinct (m : ReputationManager) : Prop :=
  ∀ subject, ∀ a ∈ TrustGraph.attestationsOf m subject, a.attester ≠ a.subject

/-- A call that makes no vouch: the vouches that stand have stood before, and no edge or
attestation leads from a node to itself if none did. -/
structure NoVouch (m m' : ReputationManager) : Prop where
  record : ∀ source target, hasVouch m' source target = true → hasVouch m source target = true
  edge : Distinct m → NoSelfVouch m → NoSelfEdge m'.trustGraph
  distinct : Distinct m → Distinct m'

variable {m' : ReputationManager}

theorem NoVouch.noSelfVouch (h : NoVouch m m') (hdistinct : Distinct m) (hself : NoSelfVouch m) :
    NoSelfVouch m' where
  record node := by
    refine Bool.eq_false_iff.mpr fun hvouch => ?_
    exact Bool.eq_false_iff.mp (hself.record node) (h.record node node hvouch)
  edge := h.edge hdistinct hself

theorem Distinct.congr (h : m'.attestations = m.attestations) (hdistinct : Distinct m) :
    Distinct m' := by
  unfold Distinct
  rw [TrustGraph.attestationsOf_congr h]
  exact hdistinct

/-- Only the scores change. -/
theorem NoVouch.of_same (hvouches : m'.vouches = m.vouches) (hgraph : m'.trustGraph = m.trustGraph)
    (hattestations : m'.attestations = m.attestations) : NoVouch m m' where
  record source target h := TrustGraph.hasVouch_congr hvouches source target ▸ h
  edge _ h := hgraph.symm ▸ h.edge
  distinct h := h.congr hattestations

theorem NoVouch.createAttestation (m : ReputationManager) (clock : Clock) (a : Attestation) :
    NoVouch m (m.createAttestation clock a).1 := by
  rcases TrustGraph.createAttestation_cases m clock a with
    ⟨hvalid, hattestations, hvouches, hgraph⟩ | ⟨-, hsame⟩
  · have hne : a.attester ≠ a.subject := ((verifyAttestation_iff _ a).mp hvalid.2).2.2.2.1
    refine ⟨fun source target h => TrustGraph.hasVouch_congr hvouches source target ▸ h,
      fun _ h => ?_, ?_⟩
    · rw [hgraph]
      exact NoSelfEdge.addEdge h.edge hne _ _
    · intro hdistinct subject b hb
      rw [TrustGraph.attestationsOf_upsert a hattestations] at hb
      rcases List.mem_append.mp hb with hold | hnew
      · exact hdistinct subject b hold
      · split at hnew
        · rw [List.mem_singleton.mp hnew]
          exact hne
        · cases hnew
  · rw [hsame]
    exact .of_same rfl rfl rfl

theorem NoVouch.revokeVouch (m : ReputationManager) (voucher vouchee : NodeID) :
    NoVouch m (m.revokeVouch voucher vouchee).1 := by
  obtain ⟨hattestations, hvouches, hgraph⟩ := TrustGraph.revokeVouch_cases m voucher vouchee
  refine ⟨fun source target h => ?_, fun _ h => ?_, fun h => h.congr hattestations⟩
  · rw [hvouches] at h
    split at h
    · cases h
    · exact h
  · rw [hgraph]
    split
    · exact NoSelfEdge.removeEdge h.edge _ _
    · exact h.edge

theorem NoVouch.rebuildTrustGraph (m : ReputationManager) (clock : Clock) :
    NoVouch m (m.rebuildTrustGraph clock) := by
  refine ⟨fun _ _ h => h, fun hdistinct hself => ?_, fun h => h⟩
  unfold ReputationManager.rebuildTrustGraph
  dsimp only
  refine List.foldlRecOn _ _ (List.foldlRecOn _ _ (fun _ => rfl) ?_) ?_
  · intro g hg e he
    split
    · exact hg
    · obtain ⟨subject, hmem⟩ := TrustGraph.mem_storedAttestations.mp (List.fst_mem_of_mem_zipIdx he)
      exact hg.addEdge (hdistinct subject e.1 hmem) _ _
  · intro g hg e he
    split
    · rename_i hactive
      refine hg.addEdge (fun heq => ?_) _ _
      -- the vouch stands, and is none of the node for itself
      have hvouch : hasVouch m e.1.1 e.1.2.vouchee = true :=
        TrustGraph.hasVouch_iff.mpr ⟨e.1, List.fst_mem_of_mem_zipIdx he, hactive, rfl, rfl⟩
      rw [← heq] at hvouch
      exact Bool.eq_false_iff.mp (hself.record e.1.1) hvouch
    · exact hg

/-- A cleanup keeps part of the attestations. -/
theorem NoVouch.cleanupExpiredAttestations (m : ReputationManager) (clock : Clock) :
    NoVouch m (m.cleanupExpiredAttestations clock) := by
  refine ⟨fun _ _ h => h, fun _ h => h.edge, fun hdistinct => ?_⟩
  have hkept : ∀ subject, ∀ a ∈ (((m.cleanupExpiredAttestations clock).attestations.find?
      subject).getD []), a ∈ TrustGraph.attestationsOf m subject := by
    unfold ReputationManager.cleanupExpiredAttestations
    refine List.foldlRecOn (motive := fun w : Clock × OrdMap NodeID (List Attestation) =>
      ∀ subject, ∀ a ∈ (w.2.find? subject).getD [], a ∈ TrustGraph.attestationsOf m subject)
      _ _ (fun _ _ ha => ha) ?_
    intro w hw e he subject a ha
    dsimp only at ha
    rw [OrdMap.find?_insert] at ha
    split at ha
    · rename_i hsubject
      obtain ⟨p, hp, rfl⟩ := List.mem_map.mp ha
      have hmem := List.fst_mem_of_mem_zipIdx (List.mem_filter.mp hp).1
      rw [← hsubject, TrustGraph.attestationsOf, OrdMap.mem_entries.mp he]
      exact hmem
    · exact hw subject a ha
  exact fun subject a ha => hdistinct subject a (hkept subject a ha)

theorem NoVouch.decayReputation (m : ReputationManager) (decayScore : Int → Int) :
    NoVouch m (m.decayReputation decayScore) := by
  refine ⟨fun _ _ h => h, fun _ h node => ?_, fun h => h⟩
  have hedge := h.edge node
  unfold TrustGraph.getDirectTrust at hedge ⊢
  unfold ReputationManager.decayReputation
  dsimp only
  rw [OrdMap.find?_mapValues]
  cases hsource : m.trustGraph.edges.find? node with
  | none => rfl
  | some targets =>
    rw [hsource] at hedge
    have hnone : targets.find? node = none := by
      cases htarget : targets.find? node with
      | none => rfl
      | some edge => simp [htarget] at hedge
    show ((targets.mapValues _).find? node).map _ = none
    rw [OrdMap.find?_mapValues, hnone]
    rfl

/-! ### Impacts -/

/-- What the loops over the vouches leave alone. -/
structure SameGraph (m m' : ReputationManager) : Prop where
  vouches : m'.vouches = m.vouches
  graph : m'.trustGraph = m.trustGraph
  attestations : m'.attestations = m.attestations

/-- The impact of a vouch changes scores, and of the record what is known of the vouchee's. -/
theorem updateVouchImpact_same (m : ReputationManager) (clock : Clock) (voucher : NodeID)
    (record : VouchRecord) :
    SameGraph m (m.updateVouchImpact clock voucher record).1.1 ∧
      ∀ vouchee, isRevocable vouchee (m.updateVouchImpact clock voucher record).2 =
        isRevocable vouchee record := by
  unfold updateVouchImpact
  split
  · exact ⟨⟨rfl, rfl, rfl⟩, fun _ => rfl⟩
  · dsimp only
    split
    · exact ⟨⟨rfl, rfl, rfl⟩, fun _ => rfl⟩
    · exact ⟨⟨rfl, rfl, rfl⟩, fun _ => rfl⟩

theorem updateVouchesOf_same (voucher : NodeID) (records : List VouchRecord)
    (w : ReputationManager × Clock) :
    SameGraph w.1 (updateVouchesOf voucher w records).1.1 ∧
      ∀ vouchee, (updateVouchesOf voucher w records).2.any (isRevocable vouchee) =
        records.any (isRevocable vouchee) := by
  induction records generalizing w with
  | nil => exact ⟨⟨rfl, rfl, rfl⟩, fun _ => rfl⟩
  | cons record rest ih =>
    obtain ⟨hfirst, hrecord⟩ := updateVouchImpact_same w.1 w.2 voucher record
    obtain ⟨hothers, hrest⟩ := ih (w.1.updateVouchImpact w.2 voucher record).1
    refine ⟨⟨hothers.vouches.trans hfirst.vouches, hothers.graph.trans hfirst.graph,
      hothers.attestations.trans hfirst.attestations⟩, fun vouchee => ?_⟩
    rw [updateVouchesOf, List.any_cons, List.any_cons, hrecord, hrest]

theorem NoVouch.updateVouchImpacts (m : ReputationManager) (clock : Clock) :
    NoVouch m (m.updateVouchImpacts clock) := by
  have hloop : (m.updateVouchImpacts clock).trustGraph = m.trustGraph ∧
      (m.updateVouchImpacts clock).attestations = m.attestations ∧
      ∀ source target, hasVouch (m.updateVouchImpacts clock) source target =
        hasVouch m source target := by
    unfold ReputationManager.updateVouchImpacts
    refine List.foldlRecOn (motive := fun w : ReputationManager × Clock =>
      w.1.trustGraph = m.trustGraph ∧ w.1.attestations = m.attestations ∧
        ∀ source target, hasVouch w.1 source target = hasVouch m source target) _ _
      ⟨rfl, rfl, fun _ _ => rfl⟩ ?_
    intro w ⟨hgraph, hattestations, hvouch⟩ e he
    obtain ⟨hsame, hrecords⟩ := updateVouchesOf_same e.1 e.2 w
    refine ⟨hsame.graph.trans hgraph, hsame.attestations.trans hattestations,
      fun source target => ?_⟩
    have hbefore := hvouch source target
    rw [TrustGraph.hasVouch_eq, TrustGraph.hasVouch_eq] at hbefore ⊢
    dsimp only
    rw [OrdMap.find?_insert]
    split
    · rename_i hsource
      rw [Option.any_some, hrecords, ← hsource, OrdMap.mem_entries.mp he, Option.any_some]
    · exact hbefore
  obtain ⟨hgraph, hattestations, hvouch⟩ := hloop
  refine ⟨fun source target h => ?_, fun _ h => hgraph.symm ▸ h.edge,
    fun h => h.congr hattestations⟩
  rwa [hvouch] at h

/-! ### The workflow -/

theorem NoVouch.acceptVouch (m : ReputationManager) (clock : Clock) (voucheeIdentity : NodeIdentity)
    (voucher : NodeID) :
    NoVouch m (VouchingWorkflow.acceptVouch H ed m clock voucheeIdentity voucher).1 := by
  unfold VouchingWorkflow.acceptVouch
  split
  · exact .of_same rfl rfl rfl
  · exact .createAttestation m _ _

theorem NoVouch.withdrawVouch (m : ReputationManager) (clock : Clock) (voucher vouchee : NodeID)
    (reason : Text) :
    NoVouch m (VouchingWorkflow.revokeVouch m clock voucher vouchee reason).1 := by
  have hrevoked := NoVouch.revokeVouch m voucher vouchee
  unfold VouchingWorkflow.revokeVouch
  split
  · exact .of_same rfl rfl rfl
  · dsimp only
    split
    · exact hrevoked
    · -- the penalty changes scores only
      exact ⟨hrevoked.record, hrevoked.edge, hrevoked.distinct⟩

theorem vouches_createAttestation (m : ReputationManager) (clock : Clock) (a : Attestation) :
    (m.createAttestation clock a).1.vouches = m.vouches := by
  rcases TrustGraph.createAttestation_cases m clock a with ⟨-, -, hvouches, -⟩ | ⟨-, hsame⟩
  · exact hvouches
  · rw [hsame]

theorem attestations_vouchForNode (m : ReputationManager) (clock : Clock) (state : StateManager)
    (voucher vouchee : NodeID) :
    (m.vouchForNode clock state voucher vouchee).1.attestations = m.attestations := by
  unfold vouchForNode
  split <;> rfl

theorem hasVouch_vouchForNode (clock : Clock) {state : StateManager} {voucher vouchee : NodeID}
    (h : m.canVouch state voucher vouchee = true) :
    hasVouch (m.vouchForNode clock state voucher vouchee).1 voucher vouchee = true := by
  rcases TrustGraph.vouchForNode_cases m clock state voucher vouchee with
    ⟨record, rfl, hactive, hvouches, -⟩ | hsame
  · rw [TrustGraph.hasVouch_upsert record voucher hactive hvouches]
    simp
  · exact absurd (by rw [hsame]) (vouchForNode_ne clock h).2

/-- A vouch keeps the property exactly when it is not for the voucher. -/
theorem noSelfVouch_vouchForNode_iff (hself : NoSelfVouch m) {clock : Clock} {state : StateManager}
    {voucher vouchee : NodeID} :
    NoSelfVouch (m.vouchForNode clock state voucher vouchee).1 ↔
      (m.canVouch state voucher vouchee = true → voucher ≠ vouchee) := by
  constructor
  · rintro hnext hcan rfl
    exact Bool.eq_false_iff.mp (hnext.record voucher) (hasVouch_vouchForNode clock hcan)
  · intro hne
    cases hcan : m.canVouch state voucher vouchee with
    | false =>
      have hsame : (m.vouchForNode clock state voucher vouchee).1 = m := by
        unfold vouchForNode
        rw [hcan]
        rfl
      rwa [hsame]
    | true =>
      rcases TrustGraph.vouchForNode_cases m clock state voucher vouchee with
        ⟨record, rfl, hactive, hvouches, -, hgraph⟩ | hsame
      · refine ⟨fun node => ?_, ?_⟩
        · rw [TrustGraph.hasVouch_upsert record voucher hactive hvouches, hself.record,
            Bool.false_or, decide_eq_false_iff_not]
          exact fun heq => hne hcan (heq.1.trans heq.2.symm)
        · rw [hgraph]
          exact NoSelfEdge.addEdge hself.edge (hne hcan) _ _
      · rwa [hsame]

/-- So does a request. -/
theorem noSelfVouch_requestVouch_iff (hdistinct : Distinct m) (hself : NoSelfVouch m)
    {clock : Clock} {state : StateManager} {voucherIdentity : NodeIdentity} {vouchee : NodeID}
    {reason : Text} :
    NoSelfVouch (requestVouch H ed m clock state voucherIdentity vouchee reason).1 ↔
      (m.canVouch state (voucherIdentity.id H) vouchee = true →
        voucherIdentity.id H ≠ vouchee) := by
  cases hcan : m.canVouch state (voucherIdentity.id H) vouchee with
  | false =>
    rw [requestVouch_of_not_canVouch hcan]
    exact iff_of_true hself fun h => nomatch h
  | true =>
    rw [requestVouch_of_canVouch hcan, forall_prop_of_true rfl]
    constructor
    · rintro hnext rfl
      have hvouch := hasVouch_vouchForNode (clock.after 1) hcan
      rw [← TrustGraph.hasVouch_congr (vouches_createAttestation _ (clock.after 3) _)] at hvouch
      exact Bool.eq_false_iff.mp (hnext.record _) hvouch
    · intro hne
      have hvouched : NoSelfVouch
          (m.vouchForNode (clock.after 1) state (voucherIdentity.id H) vouchee).1 :=
        (noSelfVouch_vouchForNode_iff hself).mpr fun _ => hne
      exact (NoVouch.createAttestation _ _ _).noSelfVouch
        (hdistinct.congr (attestations_vouchForNode m _ state _ vouchee)) hvouched

/-! ## Results -/

theorem Distinct.requestVouch (hdistinct : Distinct m) (clock : Clock) (state : StateManager)
    (voucherIdentity : NodeIdentity) (vouchee : NodeID) (reason : Text) :
    Distinct (requestVouch H ed m clock state voucherIdentity vouchee reason).1 := by
  cases hcan : m.canVouch state (voucherIdentity.id H) vouchee with
  | false => rwa [requestVouch_of_not_canVouch hcan]
  | true =>
    rw [requestVouch_of_canVouch hcan]
    exact (NoVouch.createAttestation _ _ _).distinct
      (hdistinct.congr (attestations_vouchForNode m _ state _ vouchee))

/-- A call is a request, a vouch, or makes no vouch. -/
theorem call_cases {decayScore : Int → Int} (m : ReputationManager) (clock : Clock)
    (input : VouchingInput) :
    (∃ state identity vouchee reason, input = .requestVouch state identity vouchee reason) ∨
    (∃ state voucher vouchee, input = .manager (.vouchForNode state voucher vouchee)) ∨
    NotSelf H m input ∧ NoVouch m (m.vouchingCall H ed decayScore clock input).1 := by
  cases input with
  | requestVouch state identity vouchee reason => exact .inl ⟨_, _, _, _, rfl⟩
  | acceptVouch identity voucher =>
    exact .inr (.inr ⟨trivial, .acceptVouch m clock identity voucher⟩)
  | withdrawVouch voucher vouchee reason =>
    exact .inr (.inr ⟨trivial, .withdrawVouch m clock voucher vouchee reason⟩)
  | manager input =>
    cases input with
    | createAttestation a => exact .inr (.inr ⟨trivial, .createAttestation m clock a⟩)
    | vouchForNode state voucher vouchee => exact .inr (.inl ⟨_, _, _, rfl⟩)
    | revokeVouch voucher vouchee =>
      exact .inr (.inr ⟨trivial, .revokeVouch m voucher vouchee⟩)
  | applyScoreDelta nodeId delta reason => exact .inr (.inr ⟨trivial, .of_same rfl rfl rfl⟩)
  | updateVouchImpacts => exact .inr (.inr ⟨trivial, .updateVouchImpacts m clock⟩)
  | decayReputation => exact .inr (.inr ⟨trivial, .decayReputation m decayScore⟩)
  | rebuildTrustGraph => exact .inr (.inr ⟨trivial, .rebuildTrustGraph m clock⟩)
  | cleanupExpiredAttestations =>
    exact .inr (.inr ⟨trivial, .cleanupExpiredAttestations m clock⟩)

/-- No call lets a node attest something about itself. -/
theorem Distinct.call {decayScore : Int → Int} (hdistinct : Distinct m) (clock : Clock)
    (input : VouchingInput) : Distinct (m.vouchingCall H ed decayScore clock input).1 := by
  rcases call_cases (H := H) m clock input with
    ⟨state, identity, vouchee, reason, rfl⟩ | ⟨state, voucher, vouchee, rfl⟩ | ⟨-, hcall⟩
  · exact hdistinct.requestVouch clock state identity vouchee reason
  · exact hdistinct.congr (attestations_vouchForNode m clock state voucher vouchee)
  · exact hcall.distinct hdistinct

/-- A call keeps the property exactly when it lets no node vouch for itself. -/
theorem noSelfVouch_call_iff {decayScore : Int → Int} (hdistinct : Distinct m)
    (hself : NoSelfVouch m) (clock : Clock) (input : VouchingInput) :
    NoSelfVouch (m.vouchingCall H ed decayScore clock input).1 ↔ NotSelf H m input := by
  rcases call_cases (H := H) m clock input with
    ⟨state, identity, vouchee, reason, rfl⟩ | ⟨state, voucher, vouchee, rfl⟩ | ⟨hnot, hcall⟩
  · exact noSelfVouch_requestVouch_iff hdistinct hself
  · exact noSelfVouch_vouchForNode_iff hself
  · exact iff_of_true (hcall.noSelfVouch hdistinct hself) hnot

/-- **Requests for vouches.** A request leaves the manager alone when it fails, in every state,
exactly when what `can_vouch` lets through is attestable. In a run from an empty manager no
node ever has a standing vouch for itself or an edge to itself, exactly when no node vouches
for itself with a call that `can_vouch` lets through. -/
theorem vouch_request_iff (H : Bytes → Hash256) (ed : Ed25519) (decayScore : Int → Int) :
    (∀ m clock state voucherIdentity vouchee reason,
      Atomic m (requestVouch H ed m clock state voucherIdentity vouchee reason) ↔
        (m.canVouch state (voucherIdentity.id H) vouchee = true →
          Attestable H ed clock voucherIdentity vouchee reason)) ∧
    ∀ inputs, (vouchingMachine H ed decayScore).Always NoSelfVouch {} inputs ↔
      (vouchingMachine H ed decayScore).StepsMeet (fun m input => NotSelf H m input.2) {}
        inputs := by
  refine ⟨fun _ _ _ _ _ _ => requestVouch_atomic_iff, fun inputs => ?_⟩
  have hempty : Distinct {} := fun subject a ha => nomatch ha
  refine (vouchingMachine H ed decayScore).always_iff (P := Distinct)
    (fun m input h => h.call input.1 input.2) ?_ hempty ⟨fun _ => rfl, fun _ => rfl⟩ inputs
  exact fun m input hdistinct hself => noSelfVouch_call_iff hdistinct hself input.1 input.2

/-- Node 3 attests to node 1, which then vouches for itself (its public key is the one that
hashes to 1). -/
def vouchesForItself : List (Clock × VouchingInput) :=
  let attestation : Attestation :=
    { attester := sampleNode 3, subject := sampleNode 1, scoreDelta := 100,
      statement := Text.ofString "seen", timestamp := 1200, expiresAt := 4800,
      signature := ⟨leBytes 64 1, leBytes_length 64 1⟩ }
  [(Clock.still sampleTime, .manager (.createAttestation attestation)),
    (Clock.still sampleTime, .requestVouch
      (stateMachine.run {} [StateRelations.sampleEvent .nodeJoined []]).1
      ⟨samplePublicKey (2 ^ 256 - 2), sampleSecretKey 0⟩ (sampleNode 1) (Text.ofString "me"))]

/-- The request is refused, and the vouch stands. -/
theorem self_vouch_stands :
    let vouching := vouchingMachine sampleHash sampleEd25519 id
    let attested := (vouching.run {} (vouchesForItself.take 1)).1
    (vouching.run {} vouchesForItself).2 = [true, false] ∧
      (vouching.run {} vouchesForItself).1 ≠ attested ∧
      ¬ vouching.Always NoSelfVouch {} vouchesForItself := by
  have hanswers : ((vouchingMachine sampleHash sampleEd25519 id).run {} vouchesForItself).2 =
      [true, false] := by
    decide +kernel
  have hafter : hasVouch ((vouchingMachine sampleHash sampleEd25519 id).run {} vouchesForItself).1
      (sampleNode 1) (sampleNode 1) = true := by
    decide +kernel
  have hbefore : hasVouch ((vouchingMachine sampleHash sampleEd25519 id).run {}
      (vouchesForItself.take 1)).1 (sampleNode 1) (sampleNode 1) = false := by
    decide +kernel
  refine ⟨hanswers, fun hsame => ?_, ?_⟩
  · rw [hsame, hbefore] at hafter
    cases hafter
  · rintro ⟨_, _, hself⟩
    exact Bool.eq_false_iff.mp (hself.record (sampleNode 1)) hafter

end Cashew.Theorems.VouchRequests
