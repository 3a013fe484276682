import Cashew.Lib.Index
import Cashew.Security.Access

/-!
# Token revocation

`TokenRevocation` and `TokenRevocationManager` of `security/token_revocation.cpp`.
A manager keeps the revocations it has made or received by their id, which is the
hash of everything but the signature, with an index by node and one by capability.
Revocations expire, and a cleanup drops the expired ones from all three.

The manager knows no public keys: `verify_revocation` is a static function that
nothing calls. The codecs, the queries for gossip and the propagation counts are
left out, with the log lines.
-/

namespace Cashew

open Cashew.Lib

/-- `RevocationReason`. -/
inductive RevocationReason where
  | manualRevocation
  | compromisedKey
  | policyViolation
  | abuseDetected
  | expiredCredentials
  | networkRemoval
  | reputationLoss
  deriving DecidableEq

instance : Enumeration RevocationReason where
  all := [.manualRevocation, .compromisedKey, .policyViolation, .abuseDetected,
    .expiredCredentials, .networkRemoval, .reputationLoss]
  code
    | .manualRevocation => 0
    | .compromisedKey => 1
    | .policyViolation => 2
    | .abuseDetected => 3
    | .expiredCredentials => 4
    | .networkRemoval => 5
    | .reputationLoss => 6
  complete e := by cases e <;> decide
  codes_nodup := by decide

/-! ## Revocations -/

/-- `TokenRevocation`. -/
structure TokenRevocation where
  nodeId : NodeID
  capability : Wire Capability
  reason : Wire RevocationReason
  revokedAt : UInt64
  revoker : NodeID
  context : Bytes
  signature : Signature
  deriving DecidableEq

namespace TokenRevocation

/-- `TokenRevocation::matches_token`. -/
def matchesToken (r : TokenRevocation) (token : CapabilityToken) : Bool :=
  if token.nodeId.id ≠ r.nodeId.id then false
  else if token.capability ≠ r.capability then false
  else if r.context ≠ [] ∧ token.context ≠ [] ∧ r.context ≠ token.context then false
  -- issued after the revocation
  else if r.revokedAt ≤ token.issuedAt then false
  else true

/-- Everything but the signature: what `get_id` hashes and what `verify_revocation`
checks the signature of. -/
def idBytes (r : TokenRevocation) : Bytes :=
  r.nodeId.id.bytes ++ ([r.capability.toByte] ++ ([r.reason.toByte] ++ (u64Bytes r.revokedAt ++
    (r.revoker.id.bytes ++ r.context))))

/-- `TokenRevocation::get_id`. -/
def getId (H : Bytes → Hash256) (r : TokenRevocation) : Hash256 := H r.idBytes

end TokenRevocation

/-- `RevocationListEntry`. -/
structure RevocationListEntry where
  revocation : TokenRevocation
  addedAt : UInt64
  witnesses : Finset NodeID
  deriving DecidableEq

/-- `RevocationListUpdate`, of which `process_revocation_list` reads these two. -/
structure RevocationListUpdate where
  revocations : List TokenRevocation
  sourceNode : NodeID

/-! ## The manager -/

/-- `TokenRevocationManager`. -/
structure TokenRevocationManager where
  revocations : OrdMap Hash256 RevocationListEntry
  revocationsByNode : Index NodeID Hash256
  revocationsByCapability : Index (Wire Capability) Hash256
  seenRevocations : Finset Hash256
  revocationExpiryDays : UInt32
  maxRevocationsPerNode : UInt32

namespace TokenRevocationManager

/-- A manager after its constructor and the two setters; the constructor alone sets
30 days and 100 revocations. -/
def initial (days maximum : UInt32) : TokenRevocationManager where
  revocations := .empty
  revocationsByNode := .empty
  revocationsByCapability := .empty
  seenRevocations := ∅
  revocationExpiryDays := days
  maxRevocationsPerNode := maximum

variable (m : TokenRevocationManager)

/-- `expiry_seconds`: the product is formed in 32 bits. -/
def expirySeconds : UInt64 := (m.revocationExpiryDays * 24 * 3600).toUInt64

/-- `TokenRevocationManager::is_revocation_expired`. -/
def isRevocationExpired (now : Time) (r : TokenRevocation) : Bool :=
  r.revokedAt + m.expirySeconds ≤ now.secs

/-- The node has as many revocations as it may have. -/
def isFull (nodeId : NodeID) : Bool :=
  (m.revocationsByNode.find? nodeId).any fun ids => m.maxRevocationsPerNode.toNat ≤ ids.card

/-- `TokenRevocationManager::should_accept_revocation`: reading 0 of the clock is for
the expiry, reading 1 for the skew. -/
def shouldAcceptRevocation (clock : Clock) (r : TokenRevocation) : Bool :=
  if m.isRevocationExpired (clock.read 0) r then false
  else if (clock.read 1).secs + 300 < r.revokedAt then false
  else if m.isFull r.nodeId then false
  else true

/-- What `revoke_token` and `process_revocation` both do:
`revocations_[id] = entry; add_revocation_to_indexes(id, revocation)`. -/
def store (H : Bytes → Hash256) (entry : RevocationListEntry) : TokenRevocationManager :=
  { m with
    revocations := m.revocations.insert (entry.revocation.getId H) entry
    revocationsByNode :=
      m.revocationsByNode.add entry.revocation.nodeId (entry.revocation.getId H)
    revocationsByCapability :=
      m.revocationsByCapability.add entry.revocation.capability (entry.revocation.getId H) }

/-- The record `revoke_token` makes. Nothing sets its signature; `unset` stands for
what the memory holds. -/
def newRevocation (now : Time) (unset : Signature) (nodeId : NodeID)
    (capability : Wire Capability) (reason : Wire RevocationReason) (revoker : NodeID)
    (context : Bytes) : TokenRevocation :=
  { nodeId, capability, reason, revokedAt := now.secs, revoker, context, signature := unset }

/-- `TokenRevocationManager::revoke_token`: reading 0 of the clock dates the record,
reading 1 its entry. -/
def revokeToken (H : Bytes → Hash256) (clock : Clock) (unset : Signature) (nodeId : NodeID)
    (capability : Wire Capability) (reason : Wire RevocationReason) (revoker : NodeID)
    (context : Bytes) : TokenRevocationManager × Option TokenRevocation :=
  let revocation := newRevocation (clock.read 0) unset nodeId capability reason revoker context
  if m.isFull nodeId then (m, none)
  else
    (m.store H { revocation, addedAt := (clock.read 1).secs, witnesses := ∅ }, some revocation)

/-- `TokenRevocationManager::is_token_revoked`. -/
def isTokenRevoked (token : CapabilityToken) : Bool :=
  (m.revocationsByNode.find? token.nodeId).any fun ids =>
    decide (∃ id ∈ ids,
      (m.revocations.find? id).any (·.revocation.matchesToken token) = true)

/-- `TokenRevocationManager::process_revocation`: reading 2 of the clock dates the
entry. -/
def processRevocation (H : Bytes → Hash256) (clock : Clock) (r : TokenRevocation)
    (sourceNode : NodeID) : TokenRevocationManager × Bool :=
  if r.getId H ∈ m.seenRevocations then (m, false)
  else if !m.shouldAcceptRevocation clock r then (m, false)
  else
    let stored := m.store H
      { revocation := r, addedAt := (clock.read 2).secs, witnesses := {sourceNode} }
    ({ stored with seenRevocations := insert (r.getId H) m.seenRevocations }, true)

/-- `TokenRevocationManager::process_revocation_list`: the number of accepted
revocations beside the next state. Each call takes three readings of the clock. -/
def processRevocationList (H : Bytes → Hash256) (sourceNode : NodeID) :
    TokenRevocationManager → Clock → List TokenRevocation → TokenRevocationManager × Nat
  | m, _, [] => (m, 0)
  | m, clock, r :: rest =>
    let (next, accepted) := m.processRevocation H clock r sourceNode
    let (last, count) := processRevocationList H sourceNode next (clock.after 3) rest
    (last, count + accepted.toNat)

/-- `TokenRevocationManager::verify_revocation`. -/
def verifyRevocation (ed : Ed25519) (r : TokenRevocation) (revokerPublicKey : PublicKey) : Bool :=
  ed.verify r.idBytes r.signature revokerPublicKey

/-- `TokenRevocationManager::remove_revocation_from_indexes`. -/
def removeRevocationFromIndexes (id : Hash256) (r : TokenRevocation) : TokenRevocationManager :=
  { m with
    revocationsByNode := m.revocationsByNode.remove r.nodeId id
    revocationsByCapability := m.revocationsByCapability.remove r.capability id
    seenRevocations := m.seenRevocations.erase id }

/-- The ids `cleanup_expired_revocations` collects: one reading for each entry. -/
def expiredIds (clock : Clock) : List Hash256 :=
  (m.revocations.entries.zipIdx.filter fun e =>
    m.isRevocationExpired (clock.read e.2) e.1.2.revocation).map fun e => e.1.1

/-- The body of its second loop. -/
def dropRevocation (id : Hash256) : TokenRevocationManager :=
  match m.revocations.find? id with
  | none => m
  | some entry =>
    { m.removeRevocationFromIndexes id entry.revocation with
      revocations := m.revocations.erase id }

/-- `TokenRevocationManager::cleanup_expired_revocations`. -/
def cleanupExpiredRevocations (clock : Clock) : TokenRevocationManager :=
  (m.expiredIds clock).foldl dropRevocation m

end TokenRevocationManager

/-! ## Runs -/

/-- The calls on a manager, and those by which tokens are issued. -/
inductive TokenInput where
  | issueToken (control : AccessControl) (nodeId : NodeID) (capability : Wire Capability)
      (context : Option Hash256)
  | revokeToken (unset : Signature) (nodeId : NodeID) (capability : Wire Capability)
      (reason : Wire RevocationReason) (revoker : NodeID) (context : Bytes)
  | processRevocation (r : TokenRevocation) (sourceNode : NodeID)
  | processRevocationList (update : RevocationListUpdate)
  | cleanupExpiredRevocations

/-- What a call yields: a token, a revocation made here, or one received and stored. -/
inductive TokenOutput where
  | issued (token : CapabilityToken)
  | revoked (r : TokenRevocation)
  | accepted (r : TokenRevocation)
  deriving DecidableEq

namespace TokenRevocationManager

/-- The revocations of a list that are stored when it is processed. -/
def acceptedOf (H : Bytes → Hash256) (sourceNode : NodeID) :
    TokenRevocationManager → Clock → List TokenRevocation → List TokenRevocation
  | _, _, [] => []
  | m, clock, r :: rest =>
    (if (m.processRevocation H clock r sourceNode).2 then [r] else []) ++
      acceptedOf H sourceNode (m.processRevocation H clock r sourceNode).1 (clock.after 3) rest

/-- One call, with the clock readings made during it. -/
def call (H : Bytes → Hash256) (m : TokenRevocationManager) (clock : Clock) :
    TokenInput → TokenRevocationManager × List TokenOutput
  | .issueToken control nodeId capability context =>
    (m, ((control.issueToken H (clock.read 0) nodeId capability context).map .issued).toList)
  | .revokeToken unset nodeId capability reason revoker context =>
    let result := m.revokeToken H clock unset nodeId capability reason revoker context
    (result.1, (result.2.map .revoked).toList)
  | .processRevocation r sourceNode =>
    ((m.processRevocation H clock r sourceNode).1,
      (m.acceptedOf H sourceNode clock [r]).map .accepted)
  | .processRevocationList update =>
    ((m.processRevocationList H update.sourceNode clock update.revocations).1,
      (m.acceptedOf H update.sourceNode clock update.revocations).map .accepted)
  | .cleanupExpiredRevocations => (m.cleanupExpiredRevocations clock, [])

end TokenRevocationManager

def tokenMachine (H : Bytes → Hash256) :
    Machine TokenRevocationManager (Clock × TokenInput) TokenOutput where
  step m input := m.call H input.1 input.2

end Cashew
