import Cashew.Lib.Machine
import Cashew.Ledger.State

/-!
# Reputation and the trust graph

`TrustGraph` and `ReputationManager` of `core/reputation/reputation.cpp`: attestations,
stored by subject, and vouches, stored by voucher. Each of them puts an edge into the
trust graph as it is made; `rebuild_trust_graph` makes the graph again from what is
stored.

A weight is a literal of the source, or one clamped to the unit interval, and nothing
here computes with it: weights are the rationals the literals spell. A score changes by
an accepted attestation, at most 100 at a time and clamped, far from the limits of 32
bits. Actions, the decay and the queries over paths are left out.
-/

namespace Cashew

open Cashew.Lib

/-- `Attestation`. -/
structure Attestation where
  attester : NodeID
  subject : NodeID
  scoreDelta : Int
  statement : Text
  timestamp : UInt64
  expiresAt : UInt64
  signature : Signature
  deriving DecidableEq

/-- `Attestation::is_expired`. -/
def Attestation.isExpired (a : Attestation) (now : Time) : Bool := a.expiresAt ≤ now.secs

/-- `VouchRecord`. -/
structure VouchRecord where
  voucher : NodeID
  vouchee : NodeID
  vouchedAt : UInt64
  stillActive : Bool
  voucheeReputationAtVouch : Int
  voucheeCurrentReputation : Int
  deriving DecidableEq

/-- `ReputationEvent`, as `apply_score_delta` makes it. -/
structure ReputationEvent where
  timestamp : UInt64
  scoreDelta : Int
  scoreAfter : Int
  details : Text
  deriving DecidableEq

/-- `ReputationScore`. -/
structure ReputationScore where
  totalScore : Int := 0
  recentEvents : List ReputationEvent := []
  deriving DecidableEq

/-! ## The trust graph -/

/-- `TrustEdge`. -/
structure TrustEdge where
  source : NodeID
  target : NodeID
  trustWeight : ℚ
  establishedAt : UInt64
  lastUpdated : UInt64

/-- `TrustGraph`. -/
structure TrustGraph where
  edges : OrdMap NodeID (OrdMap NodeID TrustEdge) := .empty

namespace TrustGraph

/-- A weight outside the unit interval is moved to its end. -/
def clampWeight (weight : ℚ) : ℚ :=
  let weight := if weight < 0 then 0 else weight
  if 1 < weight then 1 else weight

variable (g : TrustGraph)

/-- `TrustGraph::add_edge`. -/
def addEdge (now : Time) (source target : NodeID) (weight : ℚ) : TrustGraph :=
  let edge : TrustEdge :=
    { source, target, trustWeight := clampWeight weight, establishedAt := now.secs,
      lastUpdated := now.secs }
  { edges := g.edges.upsert source .empty fun targets => targets.insert target edge }

/-- `TrustGraph::remove_edge`. -/
def removeEdge (source target : NodeID) : TrustGraph :=
  { edges := g.edges.modify source fun targets => targets.erase target }

/-- `TrustGraph::get_direct_trust`. -/
def getDirectTrust (source target : NodeID) : Option ℚ :=
  (g.edges.find? source).bind fun targets => (targets.find? target).map (·.trustWeight)

end TrustGraph

/-! ## The manager -/

/-- `ReputationManager`. -/
structure ReputationManager where
  scores : OrdMap NodeID ReputationScore := .empty
  attestations : OrdMap NodeID (List Attestation) := .empty
  vouches : OrdMap NodeID (List VouchRecord) := .empty
  trustGraph : TrustGraph := {}

namespace ReputationManager

def vouchReputationRequirement : Int := 100
def maxVouchesPerNode : Nat := 5
def reputationFloor : Int := -1000
def reputationCeiling : Int := 10000

/-- The weight of the edge a vouch puts into the graph. -/
def vouchWeight : ℚ := 8 / 10

variable (m : ReputationManager)

/-- `ReputationManager::get_reputation`. -/
def getReputation (nodeId : NodeID) : Int := (m.scores.find? nodeId).elim 0 (·.totalScore)

/-- `ReputationManager::clamp_reputation`. -/
def clampReputation (score : Int) : Int :=
  let score := if score < reputationFloor then reputationFloor else score
  if reputationCeiling < score then reputationCeiling else score

/-- `ReputationManager::apply_score_delta`. -/
def applyScoreDelta (now : Time) (nodeId : NodeID) (delta : Int) (reason : Text) :
    ReputationManager :=
  { m with
    scores := m.scores.upsert nodeId {} fun score =>
      let totalScore := clampReputation (score.totalScore + delta)
      let event : ReputationEvent :=
        { timestamp := now.secs, scoreDelta := delta, scoreAfter := totalScore, details := reason }
      let events := score.recentEvents ++ [event]
      { totalScore, recentEvents := if 100 < events.length then events.tail else events } }

/-- The weight `update_trust_from_attestation` gives an edge. -/
def attestationWeight (scoreDelta : Int) : ℚ :=
  if 50 < scoreDelta then 9 / 10
  else if 20 < scoreDelta then 7 / 10
  else if 0 < scoreDelta then 6 / 10
  else if scoreDelta < -50 then 1 / 10
  else if scoreDelta < -20 then 3 / 10
  else if scoreDelta < 0 then 4 / 10
  else 5 / 10

/-- `ReputationManager::verify_attestation`. -/
def verifyAttestation (now : Time) (a : Attestation) : Bool :=
  if a.isExpired now then false
  else if a.attester.id = (default : NodeID).id then false
  else if a.subject.id = (default : NodeID).id then false
  else if a.attester = a.subject then false
  else if a.statement.bytes = [] then false
  else if a.scoreDelta < -100 ∨ 100 < a.scoreDelta then false
  else a.signature.bytes.any (· != 0)

/-- `ReputationManager::create_attestation`: readings 0 and 1 of the clock are for the
two tests of the expiry, 2 for the event and 3 for the edge. -/
def createAttestation (clock : Clock) (a : Attestation) : ReputationManager × Bool :=
  if a.isExpired (clock.read 0) then (m, false)
  else if !verifyAttestation (clock.read 1) a then (m, false)
  else
    let scored := m.applyScoreDelta (clock.read 2) a.subject a.scoreDelta a.statement
    ({ scored with
        attestations := m.attestations.upsert a.subject [] (· ++ [a])
        trustGraph := m.trustGraph.addEdge (clock.read 3) a.attester a.subject
          (attestationWeight a.scoreDelta) }, true)

/-- `ReputationManager::can_vouch`. -/
def canVouch (state : StateManager) (voucher vouchee : NodeID) : Bool :=
  if m.getReputation voucher < vouchReputationRequirement then false
  else if !state.isNodeActive vouchee then false
  else if (m.vouches.find? voucher).any fun records =>
    decide (maxVouchesPerNode ≤ (records.filter (·.stillActive)).length) then false
  else true

/-- `ReputationManager::vouch_for_node`: reading 0 of the clock dates the record,
reading 1 the edge. -/
def vouchForNode (clock : Clock) (state : StateManager) (voucher vouchee : NodeID) :
    ReputationManager × Bool :=
  if !m.canVouch state voucher vouchee then (m, false)
  else
    let record : VouchRecord :=
      { voucher, vouchee, vouchedAt := (clock.read 0).secs, stillActive := true,
        voucheeReputationAtVouch := m.getReputation vouchee,
        voucheeCurrentReputation := m.getReputation vouchee }
    ({ m with
        vouches := m.vouches.upsert voucher [] (· ++ [record])
        trustGraph := m.trustGraph.addEdge (clock.read 1) voucher vouchee vouchWeight }, true)

/-- A record `revoke_vouch` looks for. -/
def isRevocable (vouchee : NodeID) (record : VouchRecord) : Bool :=
  record.vouchee = vouchee ∧ record.stillActive

/-- `ReputationManager::revoke_vouch`. -/
def revokeVouch (voucher vouchee : NodeID) : ReputationManager × Bool :=
  match m.vouches.find? voucher with
  | none => (m, false)
  | some records =>
    let revoked := records.map fun record =>
      if isRevocable vouchee record then { record with stillActive := false } else record
    let next := { m with vouches := m.vouches.insert voucher revoked }
    if records.any (isRevocable vouchee) then
      ({ next with trustGraph := m.trustGraph.removeEdge voucher vouchee }, true)
    else (next, false)

/-- The attestations in the order of the map they are stored in. -/
def storedAttestations : List Attestation := m.attestations.entries.flatMap (·.2)

/-- The vouches in the order of theirs, each with the key it is stored under. -/
def storedVouches : List (NodeID × VouchRecord) :=
  m.vouches.entries.flatMap fun e => e.2.map fun record => (e.1, record)

/-- `ReputationManager::rebuild_trust_graph`: an attestation takes two readings of the
clock, a vouch one. -/
def rebuildTrustGraph (clock : Clock) : ReputationManager :=
  let attested := m.storedAttestations.zipIdx.foldl (fun g e =>
    if e.1.isExpired (clock.read (2 * e.2)) then g
    else g.addEdge (clock.read (2 * e.2 + 1)) e.1.attester e.1.subject
      (attestationWeight e.1.scoreDelta)) {}
  let vouched := m.storedVouches.zipIdx.foldl (fun g e =>
    if e.1.2.stillActive then
      g.addEdge (clock.read (2 * m.storedAttestations.length + e.2)) e.1.1 e.1.2.vouchee vouchWeight
    else g) attested
  { m with trustGraph := vouched }

end ReputationManager

/-! ## Runs -/

/-- The calls that change the graph. A vouch is looked up in the ledger's state of the
moment. -/
inductive ReputationInput where
  | createAttestation (a : Attestation)
  | vouchForNode (state : StateManager) (voucher vouchee : NodeID)
  | revokeVouch (voucher vouchee : NodeID)

/-- The manager, each call with its readings of the clock and its result. -/
def reputationMachine : Machine ReputationManager (Clock × ReputationInput) Bool where
  step m input :=
    match input.2 with
    | .createAttestation a =>
      ((m.createAttestation input.1 a).1, [(m.createAttestation input.1 a).2])
    | .vouchForNode state voucher vouchee =>
      ((m.vouchForNode input.1 state voucher vouchee).1,
        [(m.vouchForNode input.1 state voucher vouchee).2])
    | .revokeVouch voucher vouchee =>
      ((m.revokeVouch voucher vouchee).1, [(m.revokeVouch voucher vouchee).2])

end Cashew
