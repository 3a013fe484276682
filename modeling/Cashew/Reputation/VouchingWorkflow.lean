import Cashew.Lib.BigEndian
import Cashew.Reputation.Reputation

/-!
# The vouching workflow

`AttestationSigner` and `VouchingWorkflow` of `core/reputation/attestation.cpp`, and the
calls of `ReputationManager` that change what the workflow works on. A vouch is a record and
an edge of the trust graph; the workflow signs an attestation for it as well.

The manager asks the ledger's state whether a node is active; every call comes with the
state of its moment. What the decay makes of a score is a product of `float`s and a parameter.
-/

namespace Cashew

open Cashew.Lib

/-- `NodeIdentity`. -/
structure NodeIdentity where
  publicKey : PublicKey
  secretKey : SecretKey

/-- `NodeIdentity::id`, with the hash that is used. -/
def NodeIdentity.id (H : Bytes → Hash256) (identity : NodeIdentity) : NodeID :=
  ⟨H identity.publicKey.bytes⟩

/-! ## Signing -/

namespace AttestationSigner

/-- `AttestationSigner::attestation_to_signable_bytes`. -/
def attestationToSignableBytes (a : Attestation) : Bytes :=
  a.attester.id.bytes ++ a.subject.id.bytes ++ beU32Bytes (UInt32.ofInt a.scoreDelta) ++
    beU32Bytes (UInt32.ofNat a.statement.bytes.length) ++ a.statement.bytes ++
    beU64Bytes a.timestamp ++ beU64Bytes a.expiresAt

/-- `AttestationSigner::sign_attestation`; it never fails. -/
def signAttestation (H : Bytes → Hash256) (ed : Ed25519) (a : Attestation)
    (attesterIdentity : NodeIdentity) : Attestation :=
  let attested := { a with attester := attesterIdentity.id H }
  { attested with
    signature := ed.sign (attestationToSignableBytes attested) attesterIdentity.secretKey }

/-- `AttestationSigner::create_attestation`. There is no signature yet. -/
def createAttestation (now : Time) (attester subject : NodeID) (scoreDelta : Int)
    (statement : Text) (validityDurationSeconds : UInt64) : Attestation :=
  { attester, subject, scoreDelta, statement, timestamp := now.secs
    expiresAt := now.secs + validityDurationSeconds, signature := FixedBytes.zero }

/-- `AttestationSigner::create_vouch_attestation`. -/
def createVouchAttestation (now : Time) (voucher vouchee : NodeID) (scoreBoost : Int)
    (statement : Text) (validityDurationSeconds : UInt64) : Attestation :=
  createAttestation now voucher vouchee (if scoreBoost ≤ 0 then 20 else scoreBoost)
    (if statement.bytes = [] then Text.ofString "Vouching for this node" else statement)
    validityDurationSeconds

/-- `AttestationSigner::create_denouncement_attestation`. -/
def createDenouncementAttestation (now : Time) (denouncer subject : NodeID) (scorePenalty : Int)
    (reason : Text) (validityDurationSeconds : UInt64) : Attestation :=
  createAttestation now denouncer subject (if 0 ≤ scorePenalty then -30 else scorePenalty)
    (if reason.bytes = [] then Text.ofString "Reporting negative behavior" else reason)
    validityDurationSeconds

end AttestationSigner

/-! ## Scores, decay and cleanup -/

/-- `VouchRecord::calculate_voucher_impact`. -/
def VouchRecord.calculateVoucherImpact (record : VouchRecord) : Int :=
  if !record.stillActive then 0
  else
    let reputationChange := record.voucheeCurrentReputation - record.voucheeReputationAtVouch
    let impact := reputationChange.tdiv 2
    let impact := if 50 < impact then 50 else impact
    if impact < -50 then -50 else impact

namespace ReputationManager

variable (m : ReputationManager)

/-- One round of `update_vouch_impacts`; the clock is read where a score changes. -/
def updateVouchImpact (clock : Clock) (voucher : NodeID) (record : VouchRecord) :
    (ReputationManager × Clock) × VouchRecord :=
  if !record.stillActive then ((m, clock), record)
  else
    let record := { record with voucheeCurrentReputation := m.getReputation record.vouchee }
    let impact := record.calculateVoucherImpact
    if impact = 0 then ((m, clock), record)
    else
      ((m.applyScoreDelta (clock.read 0) voucher impact (Text.ofString "Vouch impact"),
        clock.after 1), record)

/-- The inner loop, over the vouches of one node. -/
def updateVouchesOf (voucher : NodeID) :
    ReputationManager × Clock → List VouchRecord → (ReputationManager × Clock) × List VouchRecord
  | w, [] => (w, [])
  | w, record :: rest =>
    let first := w.1.updateVouchImpact w.2 voucher record
    let others := updateVouchesOf voucher first.1 rest
    (others.1, first.2 :: others.2)

/-- `ReputationManager::update_vouch_impacts`. -/
def updateVouchImpacts (clock : Clock) : ReputationManager :=
  (m.vouches.entries.foldl (fun w e =>
    let updated := updateVouchesOf e.1 w e.2
    ({ updated.1.1 with vouches := w.1.vouches.insert e.1 updated.2 }, updated.1.2)) (m, clock)).1

/-- `ReputationManager::decay_reputation`, with `TrustGraph::decay_edge_weights(0.95f)`. -/
def decayReputation (decayScore : Int → Int) : ReputationManager :=
  { m with
    scores := m.scores.mapValues fun _ score =>
      { score with totalScore := decayScore score.totalScore }
    trustGraph :=
      { edges := m.trustGraph.edges.mapValues fun _ targets =>
          targets.mapValues fun _ edge =>
            { edge with trustWeight := edge.trustWeight * (95 / 100) } } }

/-- `ReputationManager::cleanup_expired_attestations`: each attestation takes one reading of
the clock. -/
def cleanupExpiredAttestations (clock : Clock) : ReputationManager :=
  let cleaned := m.attestations.entries.foldl (fun w e =>
    let kept := e.2.zipIdx.filter fun p => !p.1.isExpired (w.1.read p.2)
    (w.1.after e.2.length, w.2.insert e.1 (kept.map Prod.fst))) (clock, m.attestations)
  { m with attestations := cleaned.2 }

end ReputationManager

/-! ## The workflow -/

/-- `ReputationManager::get_vouches_by`. -/
def ReputationManager.getVouchesBy (m : ReputationManager) (voucher : NodeID) :
    List VouchRecord :=
  (m.vouches.find? voucher).getD []

namespace VouchingWorkflow

variable (H : Bytes → Hash256) (ed : Ed25519) (m : ReputationManager)

/-- The attestation `request_vouch` signs; reading 0 of the clock dates it. -/
def vouchAttestation (clock : Clock) (voucherIdentity : NodeIdentity) (vouchee : NodeID)
    (reason : Text) : Attestation :=
  AttestationSigner.signAttestation H ed
    (AttestationSigner.createVouchAttestation (clock.read 0) (voucherIdentity.id H) vouchee 20
      reason 2592000) voucherIdentity

/-- `VouchingWorkflow::request_vouch`: readings 1 and 2 of the clock are for the vouch, those
from 3 on for the attestation. -/
def requestVouch (clock : Clock) (state : StateManager) (voucherIdentity : NodeIdentity)
    (vouchee : NodeID) (reason : Text) : ReputationManager × Bool :=
  if !m.canVouch state (voucherIdentity.id H) vouchee then (m, false)
  else
    let vouched := m.vouchForNode (clock.after 1) state (voucherIdentity.id H) vouchee
    if !vouched.2 then (vouched.1, false)
    else
      vouched.1.createAttestation (clock.after 3)
        (vouchAttestation H ed clock voucherIdentity vouchee reason)

/-- `VouchingWorkflow::has_vouch`. -/
def hasVouch (voucher vouchee : NodeID) : Bool :=
  (m.getVouchesBy voucher).any fun record => record.vouchee = vouchee ∧ record.stillActive

/-- `VouchingWorkflow::accept_vouch`. -/
def acceptVouch (clock : Clock) (voucheeIdentity : NodeIdentity) (voucher : NodeID) :
    ReputationManager × Bool :=
  if !hasVouch m voucher (voucheeIdentity.id H) then (m, false)
  else
    m.createAttestation (clock.after 1)
      (AttestationSigner.signAttestation H ed
        (AttestationSigner.createAttestation (clock.read 0) (voucheeIdentity.id H) voucher 5
          (Text.ofString "Accepting vouch") 2592000) voucheeIdentity)

/-- `VouchingWorkflow::revoke_vouch`: the attestation is made for its delta and its text. -/
def revokeVouch (clock : Clock) (voucher vouchee : NodeID) (reason : Text) :
    ReputationManager × Bool :=
  if !hasVouch m voucher vouchee then (m, false)
  else
    let attestation := AttestationSigner.createDenouncementAttestation (clock.read 0) voucher
      vouchee (-20) (if reason.bytes = [] then Text.ofString "Revoking vouch" else reason) 864000
    let revoked := m.revokeVouch voucher vouchee
    if !revoked.2 then (revoked.1, false)
    else
      (revoked.1.applyScoreDelta (clock.read 1) vouchee attestation.scoreDelta
        attestation.statement, true)

end VouchingWorkflow

/-! ## Runs -/

/-- The calls of the workflow, and those of the manager. An action changes a score as
`applyScoreDelta` does. -/
inductive VouchingInput where
  | requestVouch (state : StateManager) (voucherIdentity : NodeIdentity) (vouchee : NodeID)
      (reason : Text)
  | acceptVouch (voucheeIdentity : NodeIdentity) (voucher : NodeID)
  | withdrawVouch (voucher vouchee : NodeID) (reason : Text)
  | manager (input : ReputationInput)
  | applyScoreDelta (nodeId : NodeID) (delta : Int) (reason : Text)
  | updateVouchImpacts
  | decayReputation
  | rebuildTrustGraph
  | cleanupExpiredAttestations

/-- One call and its result, where it has one. -/
def ReputationManager.vouchingCall (H : Bytes → Hash256) (ed : Ed25519) (decayScore : Int → Int)
    (m : ReputationManager) (clock : Clock) : VouchingInput → ReputationManager × Option Bool
  | .requestVouch state voucherIdentity vouchee reason =>
    (VouchingWorkflow.requestVouch H ed m clock state voucherIdentity vouchee reason).map id some
  | .acceptVouch voucheeIdentity voucher =>
    (VouchingWorkflow.acceptVouch H ed m clock voucheeIdentity voucher).map id some
  | .withdrawVouch voucher vouchee reason =>
    (VouchingWorkflow.revokeVouch m clock voucher vouchee reason).map id some
  | .manager input =>
    ((reputationMachine.step m (clock, input)).1, (reputationMachine.step m (clock, input)).2.head?)
  | .applyScoreDelta nodeId delta reason =>
    (m.applyScoreDelta (clock.read 0) nodeId delta reason, none)
  | .updateVouchImpacts => (m.updateVouchImpacts clock, none)
  | .decayReputation => (m.decayReputation decayScore, none)
  | .rebuildTrustGraph => (m.rebuildTrustGraph clock, none)
  | .cleanupExpiredAttestations => (m.cleanupExpiredAttestations clock, none)

/-- The manager driven by calls, each with its readings of the clock. -/
def vouchingMachine (H : Bytes → Hash256) (ed : Ed25519) (decayScore : Int → Int) :
    Machine ReputationManager (Clock × VouchingInput) Bool where
  step m input :=
    ((m.vouchingCall H ed decayScore input.1 input.2).1,
      (m.vouchingCall H ed decayScore input.1 input.2).2.toList)

end Cashew
