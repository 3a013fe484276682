import Cashew.Security.KeyRevocation

/-!
# Who can revoke a key, and for how long

A message that names a replacement key is checked with that key, which the
sender chose; the rotation certificate that would tie it to the revoked key is
optional and is not compared with either (`revocation_authorised_iff`).

A stored revocation is overwritten by whatever message comes later, also by one
with an older timestamp, and the cleanup works from what is stored:
`revocation_lasts` has the condition under which a revocation stays for its
whole period.
-/

namespace Cashew.Theorems.KeyRevocation

open Cashew Cashew.Lib

variable {H : Bytes → Hash256} {ed : Ed25519}

/-! ## Who can revoke -/

/-- The holder of the revoked key stands behind the message: its signature is the
key's own, or a certificate of the key names the replacement. -/
def Authorised (ed : Ed25519) (r : KeyRevocation) : Prop :=
  ed.verify r.signedBytes r.signature r.revokedKey = true ∨
    ∃ cert ∈ r.rotationCert, ∃ new ∈ r.replacementKey,
      cert.oldPublicKey = r.revokedKey ∧ cert.newPublicKey = new ∧ cert.verify ed = true

/-- A replacement key is the revoked key itself, or the message has a certificate
from the one to the other, or the revoked key signed it as well. -/
def ReplacementBound (ed : Ed25519) (r : KeyRevocation) : Prop :=
  ∀ new ∈ r.replacementKey, new = r.revokedKey ∨
    (∃ cert ∈ r.rotationCert, cert.oldPublicKey = r.revokedKey ∧ cert.newPublicKey = new) ∨
      ed.verify r.signedBytes r.signature r.revokedKey = true

/-- A message that passes the checks for a key not revoked so far has its
replacement key bound to the revoked one. -/
def HolderBound (H : Bytes → Hash256) (ed : Ed25519) (b : KeyRevocationBroadcaster)
    (input : Clock × RevocationInput) : Prop :=
  ∀ r, input.2 = .processRevocation r → b.Accepts H ed input.1 r →
    b.isKeyRevoked r.revokedKey = false → ReplacementBound ed r

/-- For a message that passes the checks, being authorised is a matter of its
replacement key. -/
theorem authorised_iff {b : KeyRevocationBroadcaster} {clock : Clock} {r : KeyRevocation}
    (h : b.Accepts H ed clock r) : Authorised ed r ↔ ReplacementBound ed r := by
  have hsignature := h.signature
  unfold KeyRevocation.verifyingKey at hsignature
  unfold Authorised ReplacementBound
  cases hnew : r.replacementKey with
  | none =>
    rw [hnew] at hsignature
    exact iff_of_true (.inl hsignature) (fun _ hmem => nomatch hmem)
  | some new =>
    rw [hnew] at hsignature
    constructor
    · rintro (hown | ⟨cert, hcert, new', hnew', hold, hto, _⟩) new'' hnew''
      · exact .inr (.inr hown)
      · cases hnew'
        cases hnew''
        exact .inr (.inl ⟨cert, hcert, hold, hto⟩)
    · intro hbound
      rcases hbound new rfl with rfl | ⟨cert, hcert, hold, hto⟩ | hown
      · exact .inl hsignature
      · exact .inr ⟨cert, hcert, new, rfl, hold, hto, h.certificate cert hcert⟩
      · exact .inl hown

theorem isKeyRevoked_store (b : KeyRevocationBroadcaster) (r : KeyRevocation) :
    (b.store r).isKeyRevoked r.revokedKey = true :=
  KeyRevocationBroadcaster.isKeyRevoked_iff.mpr ⟨r, by rw [b.find?_store, if_pos rfl]⟩

/-- The messages a step shows are the one accepted for a key not revoked before. -/
theorem mem_step_iff {b : KeyRevocationBroadcaster} {input : Clock × RevocationInput}
    {r : KeyRevocation} :
    r ∈ ((revocationMachine H ed).step b input).2 ↔
      input.2 = .processRevocation r ∧ b.Accepts H ed input.1 r ∧
        b.isKeyRevoked r.revokedKey = false := by
  obtain ⟨clock, call⟩ := input
  cases call with
  -- a local revocation is no message
  | revokeKey => simp [revocationMachine, RevocationInput.revokes]
  | cleanupExpiredRevocations => simp [revocationMachine, RevocationInput.revokes]
  | processRevocation r' =>
    show r ∈ (if b.isKeyRevoked r'.revokedKey = false ∧
      (b.processRevocation H ed clock r').1.isKeyRevoked r'.revokedKey = true then [r'] else []) ↔ _
    rcases b.processRevocation_cases H ed clock r' with ⟨haccepts, heq⟩ | ⟨hrefused, heq⟩
    · have hnext : (b.processRevocation H ed clock r').1.isKeyRevoked r'.revokedKey = true := by
        rw [heq]
        exact isKeyRevoked_store b r'
      constructor
      · intro hmem
        split at hmem
        · rename_i hnew
          cases List.mem_singleton.mp hmem
          exact ⟨rfl, haccepts, hnew.1⟩
        · cases hmem
      · rintro ⟨hcall, _, hnew⟩
        cases hcall
        rw [if_pos ⟨hnew, hnext⟩]
        exact List.mem_singleton.mpr rfl
    · constructor
      · intro hmem
        rw [heq] at hmem
        split at hmem
        · rename_i hnew
          exact absurd (hnew.1.symm.trans hnew.2) Bool.false_ne_true
        · cases hmem
      · rintro ⟨hcall, haccepts, _⟩
        cases hcall
        exact absurd haccepts hrefused

theorem step_authorised_iff (b : KeyRevocationBroadcaster) (input : Clock × RevocationInput) :
    (∀ r ∈ ((revocationMachine H ed).step b input).2, Authorised ed r) ↔
      HolderBound H ed b input := by
  constructor
  · intro hall r hcall haccepts hnew
    exact (authorised_iff haccepts).mp (hall r (mem_step_iff.mpr ⟨hcall, haccepts, hnew⟩))
  · intro hbound r hmem
    obtain ⟨hcall, haccepts, hnew⟩ := mem_step_iff.mp hmem
    exact (authorised_iff haccepts).mpr (hbound r hcall haccepts hnew)

/-- **Who can revoke.** In a run the holder stands behind every message that
revoked a key exactly when every message that passed the checks for a key not
revoked so far names no replacement key, or one that is bound to the revoked key. -/
theorem revocation_authorised_iff (H : Bytes → Hash256) (ed : Ed25519)
    (b : KeyRevocationBroadcaster) (inputs : List (Clock × RevocationInput)) :
    (∀ r ∈ ((revocationMachine H ed).run b inputs).2, Authorised ed r) ↔
      (revocationMachine H ed).StepsMeet (HolderBound H ed) b inputs :=
  (revocationMachine H ed).run_outputs_iff (P := fun _ => True) (fun _ _ _ => trivial)
    (fun b input _ => step_authorised_iff b input) trivial inputs

/-- A revocation of key 1 that names key 2 as its replacement and is signed with
key 2. -/
def forged : KeyRevocation :=
  let unsigned : KeyRevocation := {
    revokedKey := samplePublicKey 1
    reason := .listed .ownerRequest
    revokedAt := 1200
    revoker := sampleNode 2
    replacementKey := some (samplePublicKey 2)
    rotationCert := none
    signature := FixedBytes.zero }
  { unsigned with signature := sampleEd25519.sign unsigned.signedBytes (sampleSecretKey 2) }

/-- Key 2 revokes key 1: no certificate, and no signature of key 1. -/
theorem forged_revokes :
    ((revocationMachine sampleHash sampleEd25519).run (.initial 365)
        [(Clock.still sampleTime, .processRevocation forged)]).1.isKeyRevoked
      (samplePublicKey 1) = true ∧
    forged ∈ ((revocationMachine sampleHash sampleEd25519).run (.initial 365)
      [(Clock.still sampleTime, .processRevocation forged)]).2 ∧
    ¬ Authorised sampleEd25519 forged := by
  refine ⟨by decide +kernel, by decide +kernel, ?_⟩
  rintro (hown | ⟨cert, hcert, _⟩)
  · exact absurd hown (by decide +kernel)
  · cases hcert

/-! ## For how long -/

/-- Once a revocation is stored, its key stays revoked until the revocation's
timestamp plus the expiry period. The clock does not go back: at a time `now` all
readings so far are at most `now`. -/
def StaysRevoked (H : Bytes → Hash256) (ed : Ed25519) (days : UInt32)
    (inputs : List (Clock × RevocationInput)) : Prop :=
  ∀ front back, inputs = front ++ back → ∀ k r,
    ((revocationMachine H ed).run (.initial days) front).1.getRevocation k = some r →
      ∀ now, (∀ input ∈ back, ∀ i, (input.1.read i).secs.toNat ≤ now) →
        now < r.revokedAt.toNat + 86400 * days.toNat →
          ((revocationMachine H ed).run (.initial days) (front ++ back)).1.isKeyRevoked k = true

/-- A message that is accepted for a revoked key is no older than the stored
revocation. -/
def NotOlder (H : Bytes → Hash256) (ed : Ed25519) (b : KeyRevocationBroadcaster)
    (input : Clock × RevocationInput) : Prop :=
  match input.2 with
  | .processRevocation r => b.Accepts H ed input.1 r →
    ∀ stored ∈ b.getRevocation r.revokedKey, stored.revokedAt ≤ r.revokedAt
  | _ => True

instance (b : KeyRevocationBroadcaster) (input : Clock × RevocationInput) :
    Decidable (NotOlder H ed b input) :=
  match input with
  | (clock, .processRevocation r) =>
    inferInstanceAs (Decidable (b.Accepts H ed clock r →
      ∀ stored ∈ b.getRevocation r.revokedKey, stored.revokedAt ≤ r.revokedAt))
  | (_, .revokeKey ..) => instDecidableTrue
  | (_, .cleanupExpiredRevocations) => instDecidableTrue

/-- The expiry period is set and no stored revocation lies more than the
tolerated skew beyond the range of the clock. -/
structure Dated (days : UInt32) (b : KeyRevocationBroadcaster) : Prop where
  days_eq : b.revocationExpiryDays = days
  revokedAt_le : b.revocations.AllValues fun r => r.revokedAt.toNat ≤ 2 ^ 63 + 300

/-- The key has a stored revocation that is at least as recent as `since`. -/
def CoveredSince (since : Nat) (k : PublicKey) (b : KeyRevocationBroadcaster) : Prop :=
  ∃ r, b.revocations.find? k = some r ∧ since ≤ r.revokedAt.toNat

/-- Up to 49710 days the period in seconds fits 32 bits. -/
theorem expirySeconds_toNat {b : KeyRevocationBroadcaster}
    (hdays : b.revocationExpiryDays.toNat ≤ 49710) :
    b.expirySeconds.toNat = 86400 * b.revocationExpiryDays.toNat := by
  unfold KeyRevocationBroadcaster.expirySeconds
  rw [UInt32.toNat_toUInt64, UInt32.toNat_mul, UInt32.toNat_mul]
  have h24 : (24 : UInt32).toNat = 24 := rfl
  have h3600 : (3600 : UInt32).toNat = 3600 := rfl
  rw [h24, h3600]
  omega

/-- Then expiry is what the period says. -/
theorem expired_iff {days : UInt32} (hdays : days.toNat ≤ 49710) {b : KeyRevocationBroadcaster}
    (hb : Dated days b) {now : Time} {r : KeyRevocation}
    (hr : r.revokedAt.toNat ≤ 2 ^ 63 + 300) :
    b.isRevocationExpired now r = true ↔
      r.revokedAt.toNat + 86400 * days.toNat ≤ now.secs.toNat := by
  have hperiod : b.expirySeconds.toNat = 86400 * days.toNat := by
    rw [expirySeconds_toNat (by rw [hb.days_eq]; exact hdays), hb.days_eq]
  unfold KeyRevocationBroadcaster.isRevocationExpired
  rw [decide_eq_true_iff, UInt64.le_iff_toNat_le, UInt64.toNat_add, hperiod,
    Nat.mod_eq_of_lt (by omega)]

theorem accepts_revokedAt_le {b : KeyRevocationBroadcaster} {clock : Clock} {r : KeyRevocation}
    (h : b.Accepts H ed clock r) : r.revokedAt.toNat ≤ 2 ^ 63 + 300 := by
  have hlimit : (clock.read 1).secs + 300 = (clock.read 1).skewLimit := rfl
  have hle := h.notFuture
  have hsigned := (clock.read 1).signed
  rw [hlimit, UInt64.lt_iff_toNat_lt, Time.skewLimit_toNat] at hle
  omega

theorem Dated.store {days : UInt32} {b : KeyRevocationBroadcaster} (hb : Dated days b)
    {r : KeyRevocation} (hr : r.revokedAt.toNat ≤ 2 ^ 63 + 300) : Dated days (b.store r) :=
  ⟨hb.days_eq, hb.revokedAt_le.insert r.revokedKey hr⟩

theorem Dated.call {days : UInt32} {b : KeyRevocationBroadcaster} (hb : Dated days b)
    (input : Clock × RevocationInput) : Dated days (b.call H ed input.1 input.2) := by
  obtain ⟨clock, call⟩ := input
  cases call with
  | revokeKey unset k reason revoker replacementKey rotationCert =>
    have hsigned := (clock.read 0).signed
    show Dated days (b.revokeKey _ _ _ _ _ _ _).1
    unfold KeyRevocationBroadcaster.revokeKey
    split
    · exact hb
    · exact hb.store (Nat.le_of_lt (Nat.lt_of_lt_of_le hsigned (Nat.le_add_right _ _)))
  | processRevocation r =>
    show Dated days (b.processRevocation H ed clock r).1
    rcases b.processRevocation_cases H ed clock r with ⟨haccepts, heq⟩ | ⟨_, heq⟩
    · rw [heq]
      have hstored := hb.store (accepts_revokedAt_le haccepts)
      exact ⟨hstored.days_eq, hstored.revokedAt_le⟩
    · rw [heq]
      exact hb
  | cleanupExpiredRevocations =>
    refine ⟨hb.days_eq, ?_⟩
    intro k r hr
    rw [KeyRevocationBroadcaster.call, b.find?_cleanupExpiredRevocations] at hr
    split at hr
    · cases hr
    · exact hb.revokedAt_le k r hr

/-- Storing a revocation that is recent enough keeps every key covered. -/
theorem CoveredSince.store {since : Nat} {k : PublicKey} {b : KeyRevocationBroadcaster}
    (hk : CoveredSince since k b) {r : KeyRevocation}
    (hr : r.revokedKey = k → since ≤ r.revokedAt.toNat) : CoveredSince since k (b.store r) := by
  obtain ⟨stored, hstored, hsince⟩ := hk
  by_cases hkey : r.revokedKey = k
  · exact ⟨r, by rw [b.find?_store, if_pos hkey], hr hkey⟩
  · exact ⟨stored, by rw [b.find?_store, if_neg hkey, hstored], hsince⟩

/-- A key stays covered through every call made before the period is over. -/
theorem CoveredSince.call {days : UInt32} (hdays : days.toNat ≤ 49710) {since : Nat}
    {k : PublicKey} {b : KeyRevocationBroadcaster} (hb : Dated days b)
    (hk : CoveredSince since k b) {input : Clock × RevocationInput}
    (hinput : NotOlder H ed b input)
    (hnow : ∀ i, (input.1.read i).secs.toNat < since + 86400 * days.toNat) :
    CoveredSince since k (b.call H ed input.1 input.2) := by
  obtain ⟨clock, call⟩ := input
  have hcovered := hk
  obtain ⟨stored, hstored, hsince⟩ := hk
  cases call with
  | revokeKey unset k' reason revoker replacementKey rotationCert =>
    show CoveredSince since k (b.revokeKey _ _ _ _ _ _ _).1
    unfold KeyRevocationBroadcaster.revokeKey
    split
    · exact hcovered
    · rename_i hnew
      refine hcovered.store ?_
      -- a revoked key is refused
      rintro rfl
      exact absurd (KeyRevocationBroadcaster.isKeyRevoked_iff.mpr ⟨stored, hstored⟩) hnew
  | processRevocation r =>
    show CoveredSince since k (b.processRevocation H ed clock r).1
    rcases b.processRevocation_cases H ed clock r with ⟨haccepts, heq⟩ | ⟨_, heq⟩
    · rw [heq]
      refine hcovered.store ?_
      rintro rfl
      have hle : stored.revokedAt ≤ r.revokedAt := hinput haccepts stored hstored
      exact Nat.le_trans hsince (UInt64.le_iff_toNat_le.mp hle)
    · rw [heq]
      exact hcovered
  | cleanupExpiredRevocations =>
    refine ⟨stored, ?_, hsince⟩
    rw [KeyRevocationBroadcaster.call, b.find?_cleanupExpiredRevocations, if_neg ?_, hstored]
    intro hmem
    obtain ⟨r, i, hr, hexpired⟩ := KeyRevocationBroadcaster.mem_expiredKeys hmem
    cases hstored.symm.trans hr
    rw [expired_iff hdays hb (hb.revokedAt_le k stored hstored)] at hexpired
    have hread := hnow i
    dsimp only at hread hexpired
    omega

/-- **For how long.** With a period of at most 49710 days, and if no message is
accepted for a revoked key that is older than the stored revocation, every key
stays revoked for the whole period of a revocation stored for it. -/
theorem revocation_lasts (H : Bytes → Hash256) (ed : Ed25519) (days : UInt32)
    (hdays : days.toNat ≤ 49710) (inputs : List (Clock × RevocationInput))
    (hmeet : (revocationMachine H ed).StepsMeet (NotOlder H ed) (.initial days) inputs) :
    StaysRevoked H ed days inputs := by
  intro front back hinputs k r hr now hreadings hnow
  subst hinputs
  let m := revocationMachine H ed
  have hstart : Dated days (.initial days) := ⟨rfl, fun _ _ h => nomatch h⟩
  have hfront : Dated days (m.run (.initial days) front).1 :=
    m.run_invariant (fun _ input h => h.call input) hstart front
  have hback : m.StepsMeet (fun _ input => ∀ i,
      (input.1.read i).secs.toNat < r.revokedAt.toNat + 86400 * days.toNat)
      (m.run (.initial days) front).1 back := by
    rw [m.stepsMeet_inputs]
    exact fun input hinput i => Nat.lt_of_le_of_lt (hreadings input hinput i) hnow
  -- along the second part the key is covered since the timestamp of `r`
  have hcovered := (hmeet.of_append.and hback).invariant
    (P := fun b => Dated days b ∧ CoveredSince r.revokedAt.toNat k b)
    (fun b input h hcond => ⟨h.1.call input, h.2.call hdays h.1 hcond.1 hcond.2⟩)
    ⟨hfront, r, hr, Nat.le_refl _⟩
  obtain ⟨_, stored, hstored, _⟩ := hcovered
  rw [Machine.run_append]
  exact KeyRevocationBroadcaster.isKeyRevoked_iff.mpr ⟨stored, hstored⟩

/-- A revocation of key 1 signed with key 1. -/
def ownRevocation (revokedAt : UInt64) : KeyRevocation :=
  let unsigned : KeyRevocation := {
    revokedKey := samplePublicKey 1
    reason := .listed .ownerRequest
    revokedAt
    revoker := sampleNode 1
    replacementKey := none
    rotationCert := none
    signature := FixedBytes.zero }
  { unsigned with signature := sampleEd25519.sign unsigned.signedBytes (sampleSecretKey 1) }

/-- 365 days after 1199. -/
def yearEnd : Time := ⟨1199 + 31536000, by decide⟩

/-- Two revocations of key 1 and a later cleanup. -/
def twoRevocations (first second : UInt64) : List (Clock × RevocationInput) :=
  [(Clock.still sampleTime, .processRevocation (ownRevocation first)),
    (Clock.still sampleTime, .processRevocation (ownRevocation second)),
    (Clock.still yearEnd, .cleanupExpiredRevocations)]

theorem revocation_lasts_sample :
    StaysRevoked sampleHash sampleEd25519 365 (twoRevocations 1199 1200) :=
  revocation_lasts sampleHash sampleEd25519 365 (by decide) (twoRevocations 1199 1200)
    (by decide +kernel)

/-- Key 1 is revoked at 1200 and then, by a second message, at 1199. The cleanup
365 days after 1199 drops the revocation a second before the first one's end. -/
theorem older_revocation_ends_newer :
    ¬ StaysRevoked sampleHash sampleEd25519 365 (twoRevocations 1200 1199) := by
  intro h
  have hlost := h ((twoRevocations 1200 1199).take 1) ((twoRevocations 1200 1199).drop 1)
    rfl (samplePublicKey 1) (ownRevocation 1200) (by decide +kernel) (1199 + 31536000)
    (by
      intro input hinput i
      simp only [twoRevocations, List.drop_succ_cons, List.drop_zero, List.mem_cons,
        List.not_mem_nil, or_false] at hinput
      rcases hinput with rfl | rfl
      · exact Nat.le_of_ble_eq_true rfl
      · exact Nat.le_refl _)
    (by decide)
  exact absurd hlost (by decide +kernel)

end Cashew.Theorems.KeyRevocation
