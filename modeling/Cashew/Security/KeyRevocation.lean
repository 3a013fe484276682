import Cashew.Common
import Cashew.Lib.Machine
import Cashew.Lib.Wire

/-!
# Key revocation

`KeyRevocation` and `KeyRevocationBroadcaster` of `security/key_revocation.cpp`,
with the `RotationCertificate` of `core/node/node_identity.cpp` a revocation may
carry. A broadcaster keeps one revocation for each revoked key; messages of the
network overwrite it, and a periodic cleanup drops what has expired.

Log lines and what only they use (the source node of a message, the texts of the
reasons) are left out.
-/

namespace Cashew

open Cashew.Lib

/-- `KeyRevocationReason`. -/
inductive KeyRevocationReason where
  | suspectedCompromise
  | confirmedCompromise
  | scheduledRotation
  | deviceLoss
  | keyExpiration
  | policyViolation
  | administrative
  | ownerRequest
  deriving DecidableEq

instance : Enumeration KeyRevocationReason where
  all := [.suspectedCompromise, .confirmedCompromise, .scheduledRotation, .deviceLoss,
    .keyExpiration, .policyViolation, .administrative, .ownerRequest]
  code
    | .suspectedCompromise => 0
    | .confirmedCompromise => 1
    | .scheduledRotation => 2
    | .deviceLoss => 3
    | .keyExpiration => 4
    | .policyViolation => 5
    | .administrative => 6
    | .ownerRequest => 7
  complete e := by cases e <;> decide
  codes_nodup := by decide

/-! ## Rotation certificates -/

/-- `core::RotationCertificate`. -/
structure RotationCertificate where
  oldPublicKey : PublicKey
  newPublicKey : PublicKey
  rotationTimestamp : UInt64
  oldKeySignature : Signature
  reason : Bytes
  deriving DecidableEq

namespace RotationCertificate

/-- `RotationCertificate::to_bytes`, which leaves the signature out. -/
def toBytes (c : RotationCertificate) : Bytes :=
  c.oldPublicKey.bytes ++ (c.newPublicKey.bytes ++ (u64Bytes c.rotationTimestamp ++ c.reason))

/-- The message the old key signs: the new key and the time. -/
def signedBytes (c : RotationCertificate) : Bytes :=
  c.newPublicKey.bytes ++ u64Bytes c.rotationTimestamp

/-- `RotationCertificate::verify`. -/
def verify (ed : Ed25519) (c : RotationCertificate) : Bool :=
  ed.verify c.signedBytes c.oldKeySignature c.oldPublicKey

end RotationCertificate

/-! ## Revocations -/

/-- `KeyRevocation`. -/
structure KeyRevocation where
  revokedKey : PublicKey
  reason : Wire KeyRevocationReason
  revokedAt : UInt64
  revoker : NodeID
  replacementKey : Option PublicKey
  rotationCert : Option RotationCertificate
  signature : Signature
  deriving DecidableEq

namespace KeyRevocation

/-- `KeyRevocation::get_id`. -/
def getId (H : Bytes → Hash256) (r : KeyRevocation) : Hash256 :=
  H (r.revokedKey.bytes ++ ([r.reason.toByte] ++ u64Bytes r.revokedAt))

/-- The bytes `verify_revocation` checks the signature of. -/
def signedBytes (r : KeyRevocation) : Bytes :=
  r.revokedKey.bytes ++ ([r.reason.toByte] ++ (u64Bytes r.revokedAt ++ (r.revoker.id.bytes ++
    r.replacementKey.elim [] FixedBytes.bytes)))

/-- The key `verify_revocation` checks the signature with: the replacement key if
there is one, else the revoked key. -/
def verifyingKey (r : KeyRevocation) : PublicKey := r.replacementKey.getD r.revokedKey

end KeyRevocation

/-! ## The broadcaster -/

/-- `KeyRevocationBroadcaster`. -/
structure KeyRevocationBroadcaster where
  revocations : OrdMap PublicKey KeyRevocation
  keyReplacements : OrdMap PublicKey PublicKey
  seenRevocations : Finset Hash256
  revocationExpiryDays : UInt32

namespace KeyRevocationBroadcaster

/-- A broadcaster after its constructor and `set_revocation_expiry_days`; the
constructor alone sets 365 days. -/
def initial (days : UInt32) : KeyRevocationBroadcaster where
  revocations := OrdMap.empty
  keyReplacements := OrdMap.empty
  seenRevocations := ∅
  revocationExpiryDays := days

/-- `KeyRevocationBroadcaster::is_key_revoked`. -/
def isKeyRevoked (b : KeyRevocationBroadcaster) (publicKey : PublicKey) : Bool :=
  b.revocations.contains publicKey

/-- `KeyRevocationBroadcaster::get_revocation`. -/
def getRevocation (b : KeyRevocationBroadcaster) (publicKey : PublicKey) :
    Option KeyRevocation :=
  b.revocations.find? publicKey

/-- `expiry_seconds`: the product is formed in 32 bits. -/
def expirySeconds (b : KeyRevocationBroadcaster) : UInt64 :=
  (b.revocationExpiryDays * 24 * 3600).toUInt64

/-- `KeyRevocationBroadcaster::is_revocation_expired`. -/
def isRevocationExpired (b : KeyRevocationBroadcaster) (now : Time) (r : KeyRevocation) : Bool :=
  r.revokedAt + b.expirySeconds ≤ now.secs

/-- `KeyRevocationBroadcaster::should_accept_revocation`: reading 0 of the clock
is for the expiry, reading 1 for the skew. -/
def shouldAcceptRevocation (ed : Ed25519) (b : KeyRevocationBroadcaster) (clock : Clock)
    (r : KeyRevocation) : Bool :=
  if b.isRevocationExpired (clock.read 0) r then false
  else if (clock.read 1).secs + 300 < r.revokedAt then false
  else
    match r.rotationCert with
    | some cert => cert.verify ed
    | none => true

/-- `KeyRevocationBroadcaster::verify_revocation`. -/
def verifyRevocation (ed : Ed25519) (r : KeyRevocation) : Bool :=
  ed.verify r.signedBytes r.signature r.verifyingKey

/-- What `revoke_key` and `process_revocation` store. -/
def store (b : KeyRevocationBroadcaster) (r : KeyRevocation) : KeyRevocationBroadcaster :=
  { b with
    revocations := b.revocations.insert r.revokedKey r
    keyReplacements :=
      match r.replacementKey with
      | some replacement => b.keyReplacements.insert r.revokedKey replacement
      | none => b.keyReplacements }

/-- `KeyRevocationBroadcaster::revoke_key`. Nothing sets the signature of the
record it stores; `unset` stands for what the memory holds. -/
def revokeKey (b : KeyRevocationBroadcaster) (now : Time) (unset : Signature)
    (revokedKey : PublicKey) (reason : Wire KeyRevocationReason) (revoker : NodeID)
    (replacementKey : Option PublicKey) (rotationCert : Option RotationCertificate) :
    KeyRevocationBroadcaster × Option KeyRevocation :=
  if b.isKeyRevoked revokedKey then (b, none)
  else
    let revocation : KeyRevocation :=
      { revokedKey, reason, revokedAt := now.secs, revoker, replacementKey, rotationCert,
        signature := unset }
    (b.store revocation, some revocation)

/-- `KeyRevocationBroadcaster::process_revocation`. -/
def processRevocation (H : Bytes → Hash256) (ed : Ed25519) (b : KeyRevocationBroadcaster)
    (clock : Clock) (r : KeyRevocation) : KeyRevocationBroadcaster × Bool :=
  if r.getId H ∈ b.seenRevocations then (b, false)
  else if !b.shouldAcceptRevocation ed clock r then (b, false)
  else if !verifyRevocation ed r then (b, false)
  else ({ b.store r with seenRevocations := insert (r.getId H) b.seenRevocations }, true)

/-- The keys `cleanup_expired_revocations` collects: one reading for each entry. -/
def expiredKeys (b : KeyRevocationBroadcaster) (clock : Clock) : List PublicKey :=
  (b.revocations.entries.zipIdx.filter fun e =>
    b.isRevocationExpired (clock.read e.2) e.1.2).map fun e => e.1.1

/-- `KeyRevocationBroadcaster::cleanup_expired_revocations`. -/
def cleanupExpiredRevocations (b : KeyRevocationBroadcaster) (clock : Clock) :
    KeyRevocationBroadcaster :=
  { b with
    revocations := (b.expiredKeys clock).foldl OrdMap.erase b.revocations
    keyReplacements := (b.expiredKeys clock).foldl OrdMap.erase b.keyReplacements }

/-- `KeyRevocationBroadcaster::process_revocation_list`: the number of accepted
revocations beside the next state. Each call takes two readings of the clock. -/
def processRevocationList (H : Bytes → Hash256) (ed : Ed25519) :
    KeyRevocationBroadcaster → Clock → List KeyRevocation → KeyRevocationBroadcaster × Nat
  | b, _, [] => (b, 0)
  | b, clock, r :: rest =>
    let (next, accepted) := b.processRevocation H ed clock r
    let (last, count) := processRevocationList H ed next (clock.after 2) rest
    (last, count + accepted.toNat)

/-! ## What the operations do -/

theorem isKeyRevoked_iff {b : KeyRevocationBroadcaster} {publicKey : PublicKey} :
    b.isKeyRevoked publicKey = true ↔ ∃ r, b.revocations.find? publicKey = some r := by
  unfold isKeyRevoked OrdMap.contains
  rw [Option.isSome_iff_exists]

theorem find?_store (b : KeyRevocationBroadcaster) (r : KeyRevocation) (k : PublicKey) :
    (b.store r).revocations.find? k =
      if r.revokedKey = k then some r else b.revocations.find? k :=
  OrdMap.find?_insert _ _ _ _

/-- What a revocation has to pass to be accepted. -/
structure Accepts (H : Bytes → Hash256) (ed : Ed25519) (b : KeyRevocationBroadcaster)
    (clock : Clock) (r : KeyRevocation) : Prop where
  unseen : r.getId H ∉ b.seenRevocations
  unexpired : ¬ r.revokedAt + b.expirySeconds ≤ (clock.read 0).secs
  notFuture : ¬ (clock.read 1).secs + 300 < r.revokedAt
  certificate : ∀ cert ∈ r.rotationCert, cert.verify ed = true
  signature : ed.verify r.signedBytes r.signature r.verifyingKey = true

theorem shouldAcceptRevocation_iff {ed : Ed25519} {b : KeyRevocationBroadcaster} {clock : Clock}
    {r : KeyRevocation} :
    b.shouldAcceptRevocation ed clock r = true ↔
      ¬ r.revokedAt + b.expirySeconds ≤ (clock.read 0).secs ∧
        ¬ (clock.read 1).secs + 300 < r.revokedAt ∧
          ∀ cert ∈ r.rotationCert, cert.verify ed = true := by
  unfold shouldAcceptRevocation isRevocationExpired
  cases hcert : r.rotationCert with
  | none => simp
  | some cert => simp

/-- Processing stores an accepted revocation and otherwise changes nothing. -/
theorem processRevocation_cases (H : Bytes → Hash256) (ed : Ed25519)
    (b : KeyRevocationBroadcaster) (clock : Clock) (r : KeyRevocation) :
    (b.Accepts H ed clock r ∧ b.processRevocation H ed clock r =
      ({ b.store r with seenRevocations := insert (r.getId H) b.seenRevocations }, true)) ∨
    (¬ b.Accepts H ed clock r ∧ b.processRevocation H ed clock r = (b, false)) := by
  unfold processRevocation
  split
  · rename_i hseen
    exact .inr ⟨fun h => h.unseen hseen, rfl⟩
  · rename_i hseen
    split
    · rename_i hrefused
      refine .inr ⟨fun h => ?_, rfl⟩
      have haccept := shouldAcceptRevocation_iff.mpr ⟨h.unexpired, h.notFuture, h.certificate⟩
      simp [haccept] at hrefused
    · rename_i haccept
      obtain ⟨hunexpired, hfuture, hcert⟩ := shouldAcceptRevocation_iff.mp (by simpa using haccept)
      split
      · rename_i hsignature
        refine .inr ⟨fun h => ?_, rfl⟩
        have hverified : verifyRevocation ed r = true := h.signature
        simp [hverified] at hsignature
      · rename_i hsignature
        have hverified : verifyRevocation ed r = true := by simpa using hsignature
        exact .inl ⟨⟨hseen, hunexpired, hfuture, hcert, hverified⟩, rfl⟩

instance (H : Bytes → Hash256) (ed : Ed25519) (b : KeyRevocationBroadcaster) (clock : Clock)
    (r : KeyRevocation) : Decidable (b.Accepts H ed clock r) :=
  decidable_of_iff ((b.processRevocation H ed clock r).2 = true) (by
    rcases b.processRevocation_cases H ed clock r with ⟨haccepts, heq⟩ | ⟨hrefused, heq⟩
    · simp [heq, haccepts]
    · simp [heq, hrefused])

theorem mem_expiredKeys {b : KeyRevocationBroadcaster} {clock : Clock} {k : PublicKey}
    (h : k ∈ b.expiredKeys clock) :
    ∃ r i, b.revocations.find? k = some r ∧ b.isRevocationExpired (clock.read i) r = true := by
  obtain ⟨⟨⟨k', r⟩, i⟩, hmem, rfl⟩ := List.mem_map.mp h
  obtain ⟨hentry, hexpired⟩ := List.mem_filter.mp hmem
  have hplace := List.mem_zipIdx_iff_getElem?.mp hentry
  exact ⟨r, i, OrdMap.mem_entries.mp (List.mem_of_getElem? hplace), hexpired⟩

theorem find?_cleanupExpiredRevocations (b : KeyRevocationBroadcaster) (clock : Clock)
    (k : PublicKey) :
    (b.cleanupExpiredRevocations clock).revocations.find? k =
      if k ∈ b.expiredKeys clock then none else b.revocations.find? k :=
  OrdMap.find?_foldl_erase _ _ _

end KeyRevocationBroadcaster

/-! ## Runs -/

/-- The calls on a broadcaster. -/
inductive RevocationInput where
  | revokeKey (unset : Signature) (revokedKey : PublicKey) (reason : Wire KeyRevocationReason)
      (revoker : NodeID) (replacementKey : Option PublicKey)
      (rotationCert : Option RotationCertificate)
  | processRevocation (r : KeyRevocation)
  | cleanupExpiredRevocations

/-- The state after one call, with the clock readings made during it. -/
def KeyRevocationBroadcaster.call (H : Bytes → Hash256) (ed : Ed25519)
    (b : KeyRevocationBroadcaster) (clock : Clock) : RevocationInput → KeyRevocationBroadcaster
  | .revokeKey unset revokedKey reason revoker replacementKey rotationCert =>
    (b.revokeKey (clock.read 0) unset revokedKey reason revoker replacementKey rotationCert).1
  | .processRevocation r => (b.processRevocation H ed clock r).1
  | .cleanupExpiredRevocations => b.cleanupExpiredRevocations clock

/-- The network message of a call, if its key was not revoked before the call and
is after it. -/
def RevocationInput.revokes (before after : KeyRevocationBroadcaster) :
    RevocationInput → List KeyRevocation
  | .processRevocation r =>
    if before.isKeyRevoked r.revokedKey = false ∧ after.isKeyRevoked r.revokedKey = true then [r]
    else []
  | _ => []

/-- A broadcaster driven by calls; it shows the network messages by which a key
became revoked. -/
def revocationMachine (H : Bytes → Hash256) (ed : Ed25519) :
    Machine KeyRevocationBroadcaster (Clock × RevocationInput) KeyRevocation where
  step b input :=
    (b.call H ed input.1 input.2, input.2.revokes b (b.call H ed input.1 input.2))

/-- Processing a list is processing its revocations one after another. -/
theorem KeyRevocationBroadcaster.processRevocationList_eq_run (H : Bytes → Hash256)
    (ed : Ed25519) (b : KeyRevocationBroadcaster) (clock : Clock) (list : List KeyRevocation) :
    (b.processRevocationList H ed clock list).1 =
      ((revocationMachine H ed).run b (list.zipIdx.map fun e =>
        (clock.after (2 * e.2), .processRevocation e.1))).1 := by
  have hshift : ∀ (list : List KeyRevocation) (b : KeyRevocationBroadcaster) (done : Nat),
      (b.processRevocationList H ed (clock.after (2 * done)) list).1 =
        ((revocationMachine H ed).run b ((list.zipIdx done).map fun e =>
          (clock.after (2 * e.2), .processRevocation e.1))).1 := by
    intro list
    induction list with
    | nil => exact fun _ _ => rfl
    | cons r rest ih =>
      intro b done
      have hclock : (clock.after (2 * done)).after 2 = clock.after (2 * (done + 1)) := by
        refine congrArg Clock.mk (funext fun i => ?_)
        show clock.read (i + 2 + 2 * done) = clock.read (i + 2 * (done + 1))
        rw [show i + 2 + 2 * done = i + 2 * (done + 1) by omega]
      rw [processRevocationList, List.zipIdx_cons, List.map_cons, Machine.run, hclock]
      exact ih _ (done + 1)
  exact hshift list b 0

end Cashew
