import Cashew.Node.NodeIdentity
import Cashew.Theorems.KeyCodec

/-!
# The rotations of an identity

Every rotation extends a chain of certificates that verifies to one that verifies, from the
same first key (`Chained.rotate`). What the verifier checks is what a chain is
(`verifyRotationChain_iff`), so the links can be read off its answer.
-/

namespace Cashew.Theorems.KeyRotation

open Cashew Cashew.Lib RotatingIdentity KeyCodec

variable {ed : Ed25519} {identity : RotatingIdentity}

/-- The second certificate starts where the first one ends. -/
def Linked (cert next : RotationCertificate) : Prop := next.oldPublicKey = cert.newPublicKey

theorem verifyCertificates_iff (certs : List RotationCertificate) :
    verifyCertificates ed certs = true ↔
      (∀ cert ∈ certs, cert.verify ed = true) ∧ certs.IsChain Linked := by
  fun_induction verifyCertificates ed certs with
  | case1 => exact iff_of_true rfl ⟨(fun _ h => nomatch h), .nil⟩
  | case2 cert => simp
  | case3 cert next rest ih =>
    rw [Bool.and_eq_true, Bool.and_eq_true, beq_iff_eq, ih, List.isChain_cons_cons,
      List.forall_mem_cons (a := cert)]
    constructor
    · rintro ⟨⟨hcert, hlink⟩, hrest, hchain⟩
      exact ⟨⟨hcert, hrest⟩, hlink.symm, hchain⟩
    · rintro ⟨⟨hcert, hrest⟩, hlink, hchain⟩
      exact ⟨⟨hcert, hlink.symm⟩, hrest, hchain⟩

/-- The verifier accepts when every certificate verifies, each starts where the one before
it ends, and the last one ends in the current key. -/
theorem verifyRotationChain_iff :
    identity.verifyRotationChain ed = true ↔
      (∀ cert ∈ identity.rotationHistory, cert.verify ed = true) ∧
        identity.rotationHistory.IsChain Linked ∧
        ∀ cert ∈ identity.rotationHistory.getLast?, cert.newPublicKey = identity.publicKey := by
  unfold verifyRotationChain
  split
  · rename_i hnone
    rw [List.getLast?_eq_none_iff.mp hnone]
    exact iff_of_true rfl ⟨(fun _ h => nomatch h), .nil, (fun _ h => nomatch h)⟩
  · rename_i lastCert hlast
    rw [Bool.and_eq_true, verifyCertificates_iff, beq_iff_eq, hlast, and_assoc]
    refine and_congr_right fun _ => and_congr_right fun _ => ?_
    exact ⟨fun h cert hcert => Option.some.inj hcert ▸ h, fun h => h lastCert rfl⟩

/-- A chain that verifies, from the first key to the public key of the secret key. -/
structure Chained (ed : Ed25519) (genesis : PublicKey) (identity : RotatingIdentity) : Prop where
  keyPair : identity.publicKey = identity.secretKey.publicKey
  verified : identity.verifyRotationChain ed = true
  genesisKey : identity.getGenesisKey = genesis

theorem chained_generate (secretKey : SecretKey) (now : Time) :
    Chained ed secretKey.publicKey (generate secretKey now) :=
  ⟨rfl, rfl, rfl⟩

/-- The certificate of a rotation verifies. -/
theorem verify_rotationCertificate (hed : AcceptsOwn ed)
    (hkeys : identity.publicKey = identity.secretKey.publicKey) (rotation : Rotation) :
    (identity.rotationCertificate ed rotation).verify ed = true := by
  unfold RotationCertificate.verify RotationCertificate.signedBytes rotationCertificate
  dsimp only
  rw [hkeys]
  exact hed _ _

/-- A rotation succeeds and extends the chain by its certificate. -/
theorem Chained.rotate {genesis : PublicKey} (hed : AcceptsOwn ed)
    (h : Chained ed genesis identity) (rotation : Rotation) :
    ∃ rotated, identity.rotate ed rotation = some rotated ∧ Chained ed genesis rotated ∧
      rotated.rotationHistory =
        identity.rotationHistory ++ [identity.rotationCertificate ed rotation] := by
  have hverify := verify_rotationCertificate hed h.keyPair rotation
  obtain ⟨hall, hchain, hlast⟩ := verifyRotationChain_iff.mp h.verified
  refine ⟨_, if_pos hverify, ⟨rfl, verifyRotationChain_iff.mpr ⟨?_, ?_, ?_⟩, ?_⟩, rfl⟩
  · intro cert hcert
    rcases List.mem_append.mp hcert with hbefore | hnew
    · exact hall cert hbefore
    · rw [List.mem_singleton.mp hnew]
      exact hverify
  · -- the certificate starts with the outgoing key, where the chain ended
    refine hchain.append (.singleton _) fun cert hcert next hnext => ?_
    cases hnext
    exact (hlast cert hcert).symm
  · intro cert hcert
    rw [List.getLast?_concat] at hcert
    cases hcert
    rfl
  · rw [← h.genesisKey]
    unfold getGenesisKey
    cases identity.rotationHistory <;> rfl

theorem Chained.rotateAll {genesis : PublicKey} (hed : AcceptsOwn ed)
    (h : Chained ed genesis identity) (rotations : List Rotation) :
    ∃ rotated, identity.rotateAll ed rotations = some rotated ∧ Chained ed genesis rotated ∧
      rotated.rotationHistory.length = identity.rotationHistory.length + rotations.length := by
  induction rotations generalizing identity with
  | nil => exact ⟨identity, rfl, h, rfl⟩
  | cons rotation rest ih =>
    obtain ⟨next, hnext, hchained, hhistory⟩ := h.rotate hed rotation
    obtain ⟨rotated, hrest, hdone, hlength⟩ := ih hchained
    refine ⟨rotated, ?_, hdone, ?_⟩
    · unfold RotatingIdentity.rotateAll at hrest ⊢
      rw [List.foldlM_cons, hnext]
      exact hrest
    · rw [hlength, hhistory, List.length_append, List.length_cons]
      simp only [List.length_cons, List.length_nil]
      omega

/-- **Rotations.** Any number of rotations of a generated identity succeed. Afterwards the
chain has a certificate for each and verifies, the first key is the one that was generated,
each certificate starts with the key the one before it ends with, and the last one ends with
the current key. -/
theorem rotations_verified (ed : Ed25519) (hed : AcceptsOwn ed) (secretKey : SecretKey) (now : Time)
    (rotations : List Rotation) :
    ∃ rotated, (generate secretKey now).rotateAll ed rotations = some rotated ∧
      rotated.rotationHistory.length = rotations.length ∧
      rotated.verifyRotationChain ed = true ∧
      rotated.getGenesisKey = secretKey.publicKey ∧
      rotated.rotationHistory.IsChain
        (fun cert next => next.oldPublicKey = cert.newPublicKey) ∧
      ∀ cert, rotated.rotationHistory.getLast? = some cert →
        rotated.publicKey = cert.newPublicKey := by
  obtain ⟨rotated, hrun, hchained, hlength⟩ :=
    (chained_generate secretKey now).rotateAll hed rotations
  obtain ⟨-, hchain, hlast⟩ := verifyRotationChain_iff.mp hchained.verified
  refine ⟨rotated, hrun, ?_, hchained.verified, hchained.genesisKey, hchain, ?_⟩
  · rw [hlength]
    exact Nat.zero_add _
  · exact fun cert hcert => (hlast cert hcert).symm

/-- Two rotations. -/
def sampleRotations : List Rotation :=
  [⟨⟨leBytes 64 2, leBytes_length 64 2⟩, sampleTime, (Text.ofString "scheduled").bytes⟩,
    ⟨⟨leBytes 64 3, leBytes_length 64 3⟩, sampleTime, (Text.ofString "update").bytes⟩]

/-- They succeed with the scheme to compute with. -/
theorem rotated_twice :
    ∃ rotated, (generate ⟨leBytes 64 1, leBytes_length 64 1⟩ sampleTime).rotateAll sampleEd25519
        sampleRotations = some rotated ∧
      rotated.rotationHistory.length = 2 ∧ rotated.verifyRotationChain sampleEd25519 = true := by
  obtain ⟨rotated, hrun, hlength, hverified, -⟩ := rotations_verified sampleEd25519
    sampleEd25519_acceptsOwn ⟨leBytes 64 1, leBytes_length 64 1⟩ sampleTime sampleRotations
  exact ⟨rotated, hrun, hlength, hverified⟩

end Cashew.Theorems.KeyRotation
