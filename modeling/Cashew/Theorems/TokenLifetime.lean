import Cashew.Logic.TokenRevocation
import Cashew.Theorems.StateRelations

/-!
# Which tokens a revocation ends

A revocation is to end the tokens issued before it and no others. Both are dated in
whole seconds, and `matches_token` leaves alone what carries the date of the
revocation: a token of the same second survives, issued before it or after it
(`tokens_ended_iff`).
-/

namespace Cashew.Theorems.TokenLifetime

open Cashew Cashew.Lib TokenRevocationManager

variable {H : Bytes → Hash256} {m start : TokenRevocationManager}

/-! ## The property -/

/-- A call that brings nothing from the network. -/
def isLocal : TokenInput → Bool
  | .processRevocation _ _ => false
  | .processRevocationList _ => false
  | _ => true

/-- No reading is earlier than one of a call before. -/
def Chronological (inputs : List (Clock × TokenInput)) : Prop :=
  inputs.Pairwise fun a b => ∀ i j, (a.1.read i).secs ≤ (b.1.read j).secs

/-- After these calls, a token issued before a revocation of its node and capability
(one that is not limited to a context) is revoked until the revocation expires, and a
token issued in a later second than all of them is not. -/
structure Honoured (H : Bytes → Hash256) (start : TokenRevocationManager)
    (done : List (Clock × TokenInput)) : Prop where
  earlier : ∀ front input back, done = front ++ input :: back →
    ∀ r, .revoked r ∈ ((tokenMachine H).step ((tokenMachine H).run start front).1 input).2 →
    r.context = [] →
    ∀ token, .issued token ∈ ((tokenMachine H).run start front).2 →
    token.nodeId = r.nodeId → token.capability = r.capability →
    ∀ now : Time, r.revokedAt ≤ now.secs →
    (∀ later ∈ back, ∀ i, (later.1.read i).secs ≤ now.secs) →
    start.isRevocationExpired now r = false →
    ((tokenMachine H).run start done).1.isTokenRevoked token = true
  later : ∀ token, .issued token ∈ ((tokenMachine H).run start done).2 →
    (∀ r, .revoked r ∈ ((tokenMachine H).run start done).2 → r.nodeId = token.nodeId →
      r.capability = token.capability → r.revokedAt < token.issuedAt) →
    ((tokenMachine H).run start done).1.isTokenRevoked token = false

/-- A revocation that is stored, and not expired at once, comes in another second than
the tokens issued before for its node and capability. -/
def Apart (H : Bytes → Hash256) (start : TokenRevocationManager)
    (past : List (Clock × TokenInput)) (m : TokenRevocationManager)
    (input : Clock × TokenInput) : Prop :=
  match input.2 with
  | .revokeToken _ nodeId capability _ _ [] =>
    m.isFull nodeId = false → start.expirySeconds ≠ 0 →
      ∀ token, .issued token ∈ ((tokenMachine H).run start past).2 → token.nodeId = nodeId →
        token.capability = capability → token.issuedAt ≠ (input.1.read 0).secs
  | _ => True

/-! ## Dates -/

/-- Tokens carry the time of the call that issues them. -/
theorem issuedAt_of_step {input : Clock × TokenInput} {token : CapabilityToken}
    (h : .issued token ∈ ((tokenMachine H).step m input).2) :
    token.issuedAt = (input.1.read 0).secs := by
  obtain ⟨clock, call⟩ := input
  cases call with
  | issueToken control nodeId capability context =>
    have hissued : control.issueToken H (clock.read 0) nodeId capability context = some token := by
      simpa [tokenMachine, TokenRevocationManager.call] using h
    unfold AccessControl.issueToken at hissued
    dsimp only at hissued
    split at hissued
    · cases hissued
    · cases hissued
      rfl
  | revokeToken unset nodeId capability reason revoker context =>
    simp [tokenMachine, TokenRevocationManager.call] at h
  | processRevocation r sourceNode => simp [tokenMachine, TokenRevocationManager.call] at h
  | processRevocationList update => simp [tokenMachine, TokenRevocationManager.call] at h
  | cleanupExpiredRevocations => simp [tokenMachine, TokenRevocationManager.call] at h

/-- Only a call of `revoke_token` with room for one more makes a revocation: it carries
the arguments and the time of the call, and is stored. -/
theorem revoked_of_step {input : Clock × TokenInput} {r : TokenRevocation}
    (h : .revoked r ∈ ((tokenMachine H).step m input).2) :
    ∃ unset nodeId capability reason revoker context,
      input.2 = .revokeToken unset nodeId capability reason revoker context ∧
        r = newRevocation (input.1.read 0) unset nodeId capability reason revoker context ∧
        m.isFull nodeId = false ∧
        ((tokenMachine H).step m input).1 = m.store H (madeEntry input.1 r) := by
  obtain ⟨clock, call⟩ := input
  cases call with
  | issueToken control nodeId capability context =>
    simp [tokenMachine, TokenRevocationManager.call] at h
  | revokeToken unset nodeId capability reason revoker context =>
    rcases m.revokeToken_cases H clock unset nodeId capability reason revoker context with
      ⟨hroom, heq⟩ | ⟨_, heq⟩
    · have hr :
          newRevocation (clock.read 0) unset nodeId capability reason revoker context = r := by
        simpa [tokenMachine, TokenRevocationManager.call, heq, eq_comm] using h
      subst hr
      exact ⟨unset, nodeId, capability, reason, revoker, context, rfl, rfl, hroom,
        congrArg Prod.fst heq⟩
    · simp [tokenMachine, TokenRevocationManager.call, heq] at h
  | processRevocation r' sourceNode => simp [tokenMachine, TokenRevocationManager.call] at h
  | processRevocationList update => simp [tokenMachine, TokenRevocationManager.call] at h
  | cleanupExpiredRevocations => simp [tokenMachine, TokenRevocationManager.call] at h

/-- With room for one more it does. -/
theorem revoked_mem_step {clock : Clock} {unset : Signature} {nodeId : NodeID}
    {capability : Wire Capability} {reason : Wire RevocationReason} {revoker : NodeID}
    {context : Bytes} (h : m.isFull nodeId = false) :
    .revoked (newRevocation (clock.read 0) unset nodeId capability reason revoker context) ∈
      ((tokenMachine H).step m
        (clock, .revokeToken unset nodeId capability reason revoker context)).2 := by
  rcases m.revokeToken_cases H clock unset nodeId capability reason revoker context with
    ⟨_, heq⟩ | ⟨hfull, _⟩
  · simp [tokenMachine, TokenRevocationManager.call, heq]
  · exact absurd (h.symm.trans hfull) Bool.false_ne_true

/-- What a run of local calls stores was made by one of them. -/
theorem revoked_of_stored {inputs : List (Clock × TokenInput)} {days maximum : UInt32}
    (hlocal : ∀ input ∈ inputs, isLocal input.2 = true) {id : Hash256}
    {entry : RevocationListEntry}
    (h : ((tokenMachine H).run (initial days maximum) inputs).1.revocations.find? id = some entry) :
    .revoked entry.revocation ∈ ((tokenMachine H).run (initial days maximum) inputs).2 := by
  rcases stored_of_run h with hbefore | ⟨o, ho, hstored⟩
  · cases hbefore
  · cases o with
    | issued token => cases hstored
    | revoked r =>
      cases hstored
      exact ho
    | accepted r =>
      -- only the calls that are not local accept one
      obtain ⟨front, ⟨clock, call⟩, back, rfl, hstep⟩ :=
        (tokenMachine H).exists_step_of_mem_run ho
      have hcall : isLocal call = true := hlocal (clock, call) (by simp)
      cases call <;> simp_all [tokenMachine, TokenRevocationManager.call, isLocal]

/-- What a call shows that comes after these is dated no earlier than what they show. -/
theorem issuedAt_le {front back : List (Clock × TokenInput)} {input : Clock × TokenInput}
    (hclock : Chronological (front ++ input :: back)) {token : CapabilityToken}
    (h : .issued token ∈ ((tokenMachine H).run m front).2) :
    token.issuedAt ≤ (input.1.read 0).secs := by
  obtain ⟨before, made, after, rfl, hmade⟩ := (tokenMachine H).exists_step_of_mem_run h
  rw [issuedAt_of_step hmade]
  exact (List.pairwise_append.mp hclock).2.2 made (by simp) input (by simp) 0 0

/-- No revocation is dated later than the last call. -/
theorem revokedAt_le {front back : List (Clock × TokenInput)} {input : Clock × TokenInput}
    (hclock : Chronological (front ++ input :: back)) {r : TokenRevocation}
    (h : .revoked r ∈ ((tokenMachine H).run m (front ++ [input])).2) :
    r.revokedAt ≤ (input.1.read 0).secs := by
  obtain ⟨before, made, after, hsplit, hstep⟩ := (tokenMachine H).exists_step_of_mem_run h
  obtain ⟨_, _, _, _, _, _, _, rfl, _, _⟩ := revoked_of_step hstep
  have hmem : made ∈ front ++ [input] := by
    rw [hsplit]
    simp
  rcases List.mem_append.mp hmem with hfront | hlast
  · exact (List.pairwise_append.mp hclock).2.2 made hfront input List.mem_cons_self 0 0
  · rw [List.mem_singleton.mp hlast]
    exact UInt64.le_refl _

/-! ## Expiry -/

/-- An expired revocation stays expired. -/
theorem isRevocationExpired_mono {r : TokenRevocation} {now then' : Time}
    (hle : now.secs ≤ then'.secs) (h : m.isRevocationExpired then' r = false) :
    m.isRevocationExpired now r = false := by
  unfold isRevocationExpired at h ⊢
  rw [decide_eq_false_iff_not] at h ⊢
  exact fun hexpired => h (UInt64.le_trans hexpired hle)

/-- A revocation made now is expired at once only if revocations are not kept at all. -/
theorem isRevocationExpired_now {r : TokenRevocation} {now : Time}
    (hdate : r.revokedAt = now.secs) :
    m.isRevocationExpired now r = false ↔ m.expirySeconds ≠ 0 := by
  have hperiod := m.expirySeconds_lt
  have hsigned := now.signed
  have hzero : m.expirySeconds = 0 ↔ m.expirySeconds.toNat = 0 := UInt64.toNat_inj.symm
  unfold isRevocationExpired
  rw [decide_eq_false_iff_not, hdate, UInt64.le_iff_toNat_le, UInt64.toNat_add,
    Nat.mod_eq_of_lt (by omega), Ne, hzero]
  omega

/-- No call changes how long revocations are kept. -/
theorem revocationExpiryDays_step (input : Clock × TokenInput) :
    ((tokenMachine H).step m input).1.revocationExpiryDays = m.revocationExpiryDays := by
  obtain ⟨clock, call⟩ := input
  have hprocess : ∀ (m : TokenRevocationManager) (clock : Clock) (r : TokenRevocation)
      (sourceNode : NodeID), (m.processRevocation H clock r sourceNode).1.revocationExpiryDays =
        m.revocationExpiryDays := by
    intro m clock r sourceNode
    rcases m.processRevocation_cases H clock r sourceNode with ⟨_, heq⟩ | ⟨_, heq⟩
    · rw [heq]
      rfl
    · rw [heq]
  cases call with
  | issueToken control nodeId capability context => rfl
  | revokeToken unset nodeId capability reason revoker context =>
    show (m.revokeToken H clock _ _ _ _ _ _).1.revocationExpiryDays = _
    rcases m.revokeToken_cases H clock unset nodeId capability reason revoker context with
      ⟨_, heq⟩ | ⟨_, heq⟩
    · rw [heq]
      rfl
    · rw [heq]
  | processRevocation r sourceNode => exact hprocess m clock r sourceNode
  | processRevocationList update =>
    exact processRevocationList_induct
      (P := fun next => next.revocationExpiryDays = m.revocationExpiryDays) update.sourceNode
      (fun next clock r _ hnext => (hprocess next clock r _).trans hnext) rfl
  | cleanupExpiredRevocations =>
    refine cleanupExpiredRevocations_induct
      (P := fun next => next.revocationExpiryDays = m.revocationExpiryDays) ?_ rfl
    intro next id hnext
    unfold TokenRevocationManager.dropRevocation
    split
    · exact hnext
    · exact hnext

theorem revocationExpiryDays_run (inputs : List (Clock × TokenInput)) :
    ((tokenMachine H).run m inputs).1.revocationExpiryDays = m.revocationExpiryDays :=
  (tokenMachine H).run_invariant (P := fun next => next.revocationExpiryDays = _)
    (fun _ input hnext => (revocationExpiryDays_step input).trans hnext) rfl inputs

/-- The revocation is stored, or one that differs in its signature at most. -/
structure Kept (H : Bytes → Hash256) (r : TokenRevocation) (days : UInt32)
    (m : TokenRevocationManager) : Prop where
  days_eq : m.revocationExpiryDays = days
  stored : ∃ entry, m.revocations.find? (r.getId H) = some entry ∧ entry.revocation.Same r

/-- A call of a run without collisions keeps a revocation that does not expire
during it. -/
theorem Kept.step {S : Set Bytes} {r : TokenRevocation} {days : UInt32} (h : Kept H r days m)
    (hS : Set.InjOn H S) (hr : r.idBytes ∈ S) {input : Clock × TokenInput}
    (hinput : ∀ b ∈ hashedBy input.1 input.2, b ∈ S) (hlocal : isLocal input.2 = true)
    (hunexpired : ∀ i, m.isRevocationExpired (input.1.read i) r = false) :
    Kept H r days ((tokenMachine H).step m input).1 := by
  refine ⟨(revocationExpiryDays_step input).trans h.days_eq, ?_⟩
  obtain ⟨entry, hentry, hsame⟩ := h.stored
  obtain ⟨clock, call⟩ := input
  cases call with
  | issueToken control nodeId capability context => exact ⟨entry, hentry, hsame⟩
  | revokeToken unset nodeId capability reason revoker context =>
    show ∃ entry, (m.revokeToken H clock _ _ _ _ _ _).1.revocations.find? _ = some entry ∧ _
    rcases m.revokeToken_cases H clock unset nodeId capability reason revoker context with
      ⟨_, heq⟩ | ⟨_, heq⟩
    · rw [heq]
      by_cases hid : (newRevocation (clock.read 0) unset nodeId capability reason revoker
          context).getId H = r.getId H
      · -- the same id again: the entry is replaced by one with the same contents
        have hbytes := hS (hinput _ (List.mem_singleton.mpr rfl)) hr hid
        exact ⟨_, (OrdMap.find?_insert _ _ _ _).trans (if_pos hid),
          TokenRevocation.same_of_idBytes hbytes⟩
      · exact ⟨entry, (OrdMap.find?_insert _ _ _ _).trans ((if_neg hid).trans hentry), hsame⟩
    · rw [heq]
      exact ⟨entry, hentry, hsame⟩
  | processRevocation r' sourceNode => cases hlocal
  | processRevocationList update => cases hlocal
  -- the cleanup drops what has expired at a reading of its clock
  | cleanupExpiredRevocations =>
    refine ⟨entry, ?_, hsame⟩
    show (m.cleanupExpiredRevocations clock).revocations.find? _ = _
    rw [find?_cleanupExpiredRevocations, if_neg, hentry]
    intro hexpired
    obtain ⟨found, i, hfound, hat⟩ := mem_expiredIds hexpired
    cases hentry.symm.trans hfound
    have hnot := hunexpired i
    unfold isRevocationExpired at hat hnot
    rw [← hsame.revokedAt, hat] at hnot
    cases hnot

/-- So it is still there at the end of a run of such calls. -/
theorem Kept.run {S : Set Bytes} {r : TokenRevocation} {days : UInt32} (h : Kept H r days m)
    (hS : Set.InjOn H S) (hr : r.idBytes ∈ S) {inputs : List (Clock × TokenInput)}
    (hinputs : hashed inputs ⊆ S) (hlocal : ∀ input ∈ inputs, isLocal input.2 = true) {now : Time}
    (hbefore : ∀ input ∈ inputs, ∀ i, (input.1.read i).secs ≤ now.secs)
    (hunexpired : m.isRevocationExpired now r = false) :
    Kept H r days ((tokenMachine H).run m inputs).1 := by
  refine (tokenMachine H).run_invariant_on (Q := (· ∈ inputs)) ?_ h inputs fun _ hi => hi
  intro next input hinput hnext
  refine hnext.step hS hr (fun b hb => hinputs ⟨input, hinput, hb⟩) (hlocal input hinput) ?_
  intro i
  refine isRevocationExpired_mono (hbefore input hinput i) ?_
  unfold isRevocationExpired expirySeconds at hunexpired ⊢
  rw [hnext.days_eq, ← h.days_eq]
  exact hunexpired

/-! ## The main result -/

section Run

variable {inputs : List (Clock × TokenInput)} {days maximum : UInt32}

/-- Without a collision of ids an entry for a token's node and capability revokes the
token if it is dated later. -/
theorem isTokenRevoked_of_kept {S : Set Bytes} {r : TokenRevocation} {token : CapabilityToken}
    (h : Indexed H S m) (hkept : Kept H r days m) (hcontext : r.context = [])
    (hnode : token.nodeId = r.nodeId) (hcapability : token.capability = r.capability)
    (hdate : token.issuedAt < r.revokedAt) : m.isTokenRevoked token = true := by
  obtain ⟨entry, hentry, hsame⟩ := hkept.stored
  refine isTokenRevoked_iff.mpr ⟨r.getId H, ?_, entry, hentry, ?_⟩
  · exact (h.byNode.mem_iff _ _).mpr ⟨entry, hentry, hsame.nodeId.trans hnode.symm⟩
  · exact TokenRevocation.matchesToken_iff.mpr ⟨hnode.trans hsame.nodeId.symm,
      hcapability.trans hsame.capability.symm, .inl (hsame.context.trans hcontext),
      hsame.revokedAt ▸ hdate⟩

/-- A token that is revoked is of an earlier second than some revocation made for its
node and capability. -/
theorem revoked_later (hlocal : ∀ input ∈ inputs, isLocal input.2 = true) {token : CapabilityToken}
    (h : ((tokenMachine H).run (initial days maximum) inputs).1.isTokenRevoked token = true) :
    ∃ r, .revoked r ∈ ((tokenMachine H).run (initial days maximum) inputs).2 ∧
      r.nodeId = token.nodeId ∧ r.capability = token.capability ∧
        token.issuedAt < r.revokedAt := by
  obtain ⟨id, _, entry, hentry, hmatches⟩ := isTokenRevoked_iff.mp h
  obtain ⟨hnode, hcapability, _, hdate⟩ := TokenRevocation.matchesToken_iff.mp hmatches
  exact ⟨entry.revocation, revoked_of_stored hlocal hentry, hnode.symm, hcapability.symm, hdate⟩

/-- A revocation that is apart from the tokens before it is of a later second. -/
theorem issuedAt_lt_revokedAt {front back : List (Clock × TokenInput)} {input : Clock × TokenInput}
    (hclock : Chronological (front ++ input :: back))
    (hapart : Apart H start front ((tokenMachine H).run start front).1 input) {r : TokenRevocation}
    (hr : .revoked r ∈ ((tokenMachine H).step ((tokenMachine H).run start front).1 input).2)
    (hcontext : r.context = []) {token : CapabilityToken}
    (htoken : .issued token ∈ ((tokenMachine H).run start front).2)
    (hnode : token.nodeId = r.nodeId) (hcapability : token.capability = r.capability) {now : Time}
    (hnow : r.revokedAt ≤ now.secs) (hlive : start.isRevocationExpired now r = false) :
    token.issuedAt < r.revokedAt := by
  obtain ⟨unset, nodeId, capability, reason, revoker, context, hcall, rfl, hroom, _⟩ :=
    revoked_of_step hr
  obtain rfl : context = [] := hcontext
  have hdate : (newRevocation (input.1.read 0) unset nodeId capability reason revoker
      []).revokedAt = (input.1.read 0).secs := rfl
  have hperiod : start.expirySeconds ≠ 0 :=
    (isRevocationExpired_now hdate).mp (isRevocationExpired_mono hnow hlive)
  simp only [Apart, hcall] at hapart
  exact UInt64.lt_of_le_of_ne (issuedAt_le hclock htoken)
    (hapart hroom hperiod token htoken hnode hcapability)

/-- A revocation is kept from the call that makes it on, until it expires. -/
theorem kept_of_revoked {S : Set Bytes} {front back : List (Clock × TokenInput)}
    {input : Clock × TokenInput} (hS : Set.InjOn H S)
    (hhashed : hashed (front ++ input :: back) ⊆ S)
    (hlocal : ∀ i ∈ front ++ input :: back, isLocal i.2 = true) {r : TokenRevocation}
    (hr : .revoked r ∈
      ((tokenMachine H).step ((tokenMachine H).run (initial days maximum) front).1 input).2)
    {now : Time} (hback : ∀ later ∈ back, ∀ i, (later.1.read i).secs ≤ now.secs)
    (hlive : (initial days maximum).isRevocationExpired now r = false) :
    Kept H r days ((tokenMachine H).run (initial days maximum) (front ++ input :: back)).1 := by
  obtain ⟨unset, nodeId, capability, reason, revoker, context, hcall, hmade, _, hstep⟩ :=
    revoked_of_step hr
  have hmem : r.idBytes ∈ S := by
    refine hhashed ⟨input, by simp, ?_⟩
    rw [hcall, hmade]
    exact List.mem_singleton.mpr rfl
  have hbackHashed : hashed back ⊆ S := by
    rintro b ⟨i, hi, hb⟩
    exact hhashed ⟨i, by simp [hi], hb⟩
  have hkept : Kept H r days
      ((tokenMachine H).step ((tokenMachine H).run (initial days maximum) front).1 input).1 := by
    refine ⟨(revocationExpiryDays_step input).trans (revocationExpiryDays_run front), ?_⟩
    rw [hstep]
    exact ⟨_, (OrdMap.find?_insert _ _ _ _).trans (if_pos rfl), TokenRevocation.same_of_idBytes rfl⟩
  rw [(tokenMachine H).run_append]
  refine hkept.run hS hmem hbackHashed (fun i hi => hlocal i (by simp [hi])) hback ?_
  unfold isRevocationExpired expirySeconds at hlive ⊢
  rw [hkept.days_eq]
  exact hlive

/-- A run whose revocations are apart from the tokens before them honours all of them. -/
theorem honoured_of_apart (hlocal : ∀ input ∈ inputs, isLocal input.2 = true)
    (hclock : Chronological inputs) (hinj : Set.InjOn H (hashed inputs))
    (happart : (tokenMachine H).EachStep (Apart H (initial days maximum)) (initial days maximum)
      inputs) {done : List (Clock × TokenInput)} (hdone : done <+: inputs) :
    Honoured H (initial days maximum) done := by
  obtain ⟨rest, rfl⟩ := hdone
  have hlocal' : ∀ input ∈ done, isLocal input.2 = true := fun input hinput =>
    hlocal input (List.mem_append_left rest hinput)
  have hhashed : hashed done ⊆ hashed (done ++ rest) := by
    rintro b ⟨input, hinput, hb⟩
    exact ⟨input, List.mem_append_left rest hinput, hb⟩
  refine ⟨?_, ?_⟩
  · rintro front input back rfl r hr hcontext token htoken hnode hcapability now hnow hback hlive
    have hapart := happart front input (back ++ rest) (by simp)
    rw [List.append_assoc, List.cons_append] at hclock
    have hlt := issuedAt_lt_revokedAt hclock hapart hr hcontext htoken hnode hcapability hnow hlive
    have hkept := kept_of_revoked hinj hhashed hlocal' hr hback hlive
    have hindexed := (Indexed.initial H _ days maximum).run hinj hhashed
    exact isTokenRevoked_of_kept hindexed hkept hcontext hnode hcapability hlt
  · intro token _ hlater
    rw [Bool.eq_false_iff]
    intro hrevoked
    obtain ⟨r, hr, hnode, hcapability, hdate⟩ := revoked_later hlocal' hrevoked
    exact UInt64.lt_asymm hdate (hlater r hr hnode hcapability)

/-- A run that honours all of them has the tokens apart. -/
theorem apart_of_honoured (hlocal : ∀ input ∈ inputs, isLocal input.2 = true)
    (hclock : Chronological inputs)
    (h : ∀ done, done <+: inputs → Honoured H (initial days maximum) done) :
    (tokenMachine H).EachStep (Apart H (initial days maximum)) (initial days maximum) inputs := by
  rintro front ⟨clock, call⟩ back rfl
  unfold Apart
  split
  · rename_i unset nodeId capability reason revoker hcall
    obtain rfl : call = .revokeToken unset nodeId capability reason revoker [] := hcall
    intro hroom hperiod token htoken hnode hcapability hsame
    -- right after the call the token is not revoked: no revocation is dated later
    have hdone : front ++ [(clock, .revokeToken unset nodeId capability reason revoker [])] <+:
        front ++ (clock, .revokeToken unset nodeId capability reason revoker []) :: back :=
      ⟨back, by simp⟩
    have hmade : .revoked (newRevocation (clock.read 0) unset nodeId capability reason revoker [])
        ∈ ((tokenMachine H).step ((tokenMachine H).run (initial days maximum) front).1
          (clock, .revokeToken unset nodeId capability reason revoker [])).2 :=
      revoked_mem_step hroom
    have hrevoked := (h _ hdone).earlier front _ [] rfl _ hmade rfl token htoken hnode hcapability
      (clock.read 0) (UInt64.le_refl _) (fun _ hlater => by cases hlater)
      ((isRevocationExpired_now rfl).mpr hperiod)
    obtain ⟨r, hr, _, _, hdate⟩ :=
      revoked_later (fun input hinput => hlocal input (hdone.subset hinput)) hrevoked
    rw [hsame] at hdate
    exact UInt64.not_lt.mpr (revokedAt_le hclock hr) hdate
  · trivial

end Run

/-- Node 1 has joined and been issued a key. -/
def withKey : AccessControl :=
  .initial (stateMachine.run {} [StateRelations.sampleEvent .nodeJoined [],
    StateRelations.sampleEvent .keyIssued (KeyIssuanceData.toBytes
      { keyType := .listed .identity, count := 1, method := .listed .pow,
        proof := FixedBytes.zero })]).1

/-- It is issued a token, which is revoked at the given time. -/
def issuesAndRevokes (time : Time) : List (Clock × TokenInput) :=
  [(Clock.still sampleTime, .issueToken withKey (sampleNode 1) (.listed .postContent) none),
    (Clock.still time, .revokeToken FixedBytes.zero (sampleNode 1) (.listed .postContent)
      (.listed .abuseDetected) (sampleNode 2) [])]

theorem issuesAndRevokes_local (time : Time) :
    ∀ input ∈ issuesAndRevokes time, isLocal input.2 = true := by
  simp [issuesAndRevokes, isLocal]

theorem issuesAndRevokes_chronological {time : Time} (h : sampleTime.secs ≤ time.secs) :
    Chronological (issuesAndRevokes time) := by
  simpa [Chronological, issuesAndRevokes] using h

theorem injOn_issuesAndRevokes (time : Time) : Set.InjOn H (hashed (issuesAndRevokes time)) := by
  have hone : ∀ b ∈ hashed (issuesAndRevokes time),
      b = (newRevocation time FixedBytes.zero (sampleNode 1) (.listed .postContent)
        (.listed .abuseDetected) (sampleNode 2) []).idBytes := by
    rintro b ⟨input, hinput, hb⟩
    rcases List.mem_pair.mp hinput with rfl | rfl
    · cases hb
    · exact List.mem_singleton.mp hb
  intro a ha b hb _
  rw [hone a ha, hone b hb]

/-- What is issued to it at 1200. -/
def sampleToken : CapabilityToken :=
  let token : CapabilityToken :=
    { nodeId := sampleNode 1, capability := .listed .postContent, issuedAt := 1200,
      expiresAt := 4800, context := [], signature := FixedBytes.zero }
  { token with signature := token.deriveSignature sampleHash }

theorem withKey_issues :
    ((tokenMachine sampleHash).run (initial 30 100) ((issuesAndRevokes sampleTime).take 1)).2 =
      [.issued sampleToken] := by
  decide

/-- **Which tokens a revocation ends.** In a run of local calls in the order of the
clock, without collisions of ids, every revocation ends at each moment the tokens issued
before it and none of a later second, exactly when no revocation that is stored comes in
the same second as a token issued before it for the same node and capability. -/
theorem tokens_ended_iff (H : Bytes → Hash256) (days maximum : UInt32)
    (inputs : List (Clock × TokenInput)) (hlocal : ∀ input ∈ inputs, isLocal input.2 = true)
    (hclock : Chronological inputs) (hinj : Set.InjOn H (hashed inputs)) :
    (∀ done, done <+: inputs → Honoured H (initial days maximum) done) ↔
      (tokenMachine H).EachStep (Apart H (initial days maximum)) (initial days maximum) inputs :=
  ⟨apart_of_honoured hlocal hclock, fun happart _ => honoured_of_apart hlocal hclock hinj happart⟩

/-- A revocation one second after the token ends it. -/
theorem token_ended_later :
    Set.InjOn sampleHash (hashed (issuesAndRevokes ⟨1201, by decide⟩)) ∧
      ∀ done, done <+: issuesAndRevokes ⟨1201, by decide⟩ →
        Honoured sampleHash (initial 30 100) done := by
  refine ⟨injOn_issuesAndRevokes _, (tokens_ended_iff sampleHash 30 100 _
    (issuesAndRevokes_local _) (issuesAndRevokes_chronological (by decide))
    (injOn_issuesAndRevokes _)).mpr ?_⟩
  intro front input back hsplit
  match front, hsplit with
  | [], hsplit =>
    cases hsplit
    trivial
  | [_], hsplit =>
    cases hsplit
    intro _ _ token htoken _ _
    replace htoken : .issued token ∈ ((tokenMachine sampleHash).run (initial 30 100)
      ((issuesAndRevokes sampleTime).take 1)).2 := htoken
    rw [withKey_issues] at htoken
    cases List.mem_singleton.mp htoken
    decide
  | _ :: _ :: front, hsplit =>
    simp [issuesAndRevokes] at hsplit

/-- A revocation in the same second does not end the token issued before it. -/
theorem token_survives_same_second :
    (∀ input ∈ issuesAndRevokes sampleTime, isLocal input.2 = true) ∧
      Chronological (issuesAndRevokes sampleTime) ∧
      Set.InjOn sampleHash (hashed (issuesAndRevokes sampleTime)) ∧
      ¬ ∀ done, done <+: issuesAndRevokes sampleTime →
        Honoured sampleHash (initial 30 100) done := by
  refine ⟨issuesAndRevokes_local _, issuesAndRevokes_chronological (UInt64.le_refl _),
    injOn_issuesAndRevokes _, fun h => ?_⟩
  have hapart := apart_of_honoured (issuesAndRevokes_local _)
    (issuesAndRevokes_chronological (UInt64.le_refl _)) h
    ((issuesAndRevokes sampleTime).take 1) _ [] rfl (by decide) (by decide) sampleToken
  refine hapart ?_ rfl rfl rfl
  rw [withKey_issues]
  exact List.mem_singleton.mpr rfl

end Cashew.Theorems.TokenLifetime
