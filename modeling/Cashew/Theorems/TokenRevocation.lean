import Cashew.Logic.TokenRevocation

/-!
# What a token revocation manager stores

The store and its two indexes agree after every run. The limit on the revocations of
one node is looked up in the index, where a node without any has no set yet: with a
limit of zero the first one passes all the same (`indexes_consistent_iff`).

A received revocation is stored without a look at its signature:
`revocations_signed_iff` has the messages that must not arrive.
-/

namespace Cashew.Theorems.TokenRevocation

open Cashew Cashew.Lib TokenRevocationManager

variable {H : Bytes → Hash256} {ed : Ed25519} {m : TokenRevocationManager}

/-! ## Indexes and limits -/

/-- The stored revocations of a node that were received: those with a witness. -/
def receivedOf (m : TokenRevocationManager) (n : NodeID) : List (Hash256 × RevocationListEntry) :=
  m.revocations.entries.filter fun e => e.2.revocation.nodeId = n ∧ e.2.witnesses.Nonempty

/-- Every revocation is stored under its id, the indexes list the ids of what is
stored and nothing else, and no node has more received revocations than it may have. -/
structure Consistent (H : Bytes → Hash256) (m : TokenRevocationManager) : Prop where
  ids : ∀ id entry, m.revocations.find? id = some entry → entry.revocation.getId H = id
  byNode : m.revocationsByNode.Exact m.revocations (·.revocation.nodeId)
  byCapability : m.revocationsByCapability.Exact m.revocations (·.revocation.capability)
  quota : ∀ n, (receivedOf m n).length ≤ m.maxRevocationsPerNode.toNat

/-- No set of the index by node is larger than the limit. -/
structure Bounded (maximum : UInt32) (m : TokenRevocationManager) : Prop where
  maximum_eq : m.maxRevocationsPerNode = maximum
  card_le : ∀ n, (m.revocationsByNode.members n).card ≤ maximum.toNat

theorem Bounded.store {maximum : UInt32} (h : Bounded maximum m) (hmax : maximum ≠ 0)
    {entry : RevocationListEntry} (hroom : m.isFull entry.revocation.nodeId = false) :
    Bounded maximum (m.store H entry) := by
  refine ⟨h.maximum_eq, fun n => ?_⟩
  have hcard := card_lt_of_isFull (h.maximum_eq.symm ▸ hmax) hroom
  rw [h.maximum_eq] at hcard
  show ((m.revocationsByNode.add _ _).members n).card ≤ _
  rw [Index.members_add]
  split
  · rename_i hn
    subst hn
    exact (Finset.card_insert_le _ _).trans hcard
  · exact h.card_le n

theorem Bounded.dropRevocation {maximum : UInt32} (h : Bounded maximum m) (id : Hash256) :
    Bounded maximum (m.dropRevocation id) := by
  unfold TokenRevocationManager.dropRevocation
  split
  · exact h
  · refine ⟨h.maximum_eq, fun n => ?_⟩
    show ((m.revocationsByNode.remove _ _).members n).card ≤ _
    rw [Index.members_remove]
    split
    · exact (Finset.card_le_card (Finset.erase_subset _ _)).trans (h.card_le n)
    · exact h.card_le n

theorem Bounded.processRevocation {maximum : UInt32} (h : Bounded maximum m) (hmax : maximum ≠ 0)
    (clock : Clock) (r : TokenRevocation) (sourceNode : NodeID) :
    Bounded maximum (m.processRevocation H clock r sourceNode).1 := by
  rcases m.processRevocation_cases H clock r sourceNode with ⟨haccepts, heq⟩ | ⟨_, heq⟩
  · rw [heq]
    have hnext : Bounded maximum (m.store H (receivedEntry clock r sourceNode)) :=
      h.store hmax haccepts.room
    exact ⟨hnext.maximum_eq, hnext.card_le⟩
  · rw [heq]
    exact h

theorem Bounded.call {maximum : UInt32} (hmax : maximum ≠ 0) (m : TokenRevocationManager)
    (input : Clock × TokenInput) (h : Bounded maximum m) :
    Bounded maximum (m.call H input.1 input.2).1 := by
  obtain ⟨clock, call⟩ := input
  cases call with
  | issueToken control nodeId capability context => exact h
  | revokeToken unset nodeId capability reason revoker context =>
    show Bounded maximum (m.revokeToken H clock _ _ _ _ _ _).1
    rcases m.revokeToken_cases H clock unset nodeId capability reason revoker context with
      ⟨hroom, heq⟩ | ⟨_, heq⟩
    · rw [heq]
      exact h.store hmax hroom
    · rw [heq]
      exact h
  | processRevocation r sourceNode => exact h.processRevocation hmax clock r sourceNode
  | processRevocationList update =>
    exact processRevocationList_induct update.sourceNode
      (fun m clock r _ hm => hm.processRevocation hmax clock r update.sourceNode) h
  | cleanupExpiredRevocations =>
    exact cleanupExpiredRevocations_induct (fun m id hm => hm.dropRevocation id) h

/-- Exact indexes within their limit make a consistent store. -/
theorem consistent_of_indexed {S : Set Bytes} {maximum : UInt32} (h : Indexed H S m)
    (hbounded : Bounded maximum m) : Consistent H m := by
  refine ⟨fun id entry hentry => (h.stored id entry hentry).1, h.byNode, h.byCapability, ?_⟩
  intro n
  calc (receivedOf m n).length
      ≤ (m.revocations.entries.filter fun e => e.2.revocation.nodeId = n).length := by
        refine (List.monotone_filter_right _ ?_).length_le
        intro e he
        simpa using (of_decide_eq_true he).1
    _ = (m.revocationsByNode.members n).card := h.byNode.length_filter_eq n
    _ ≤ m.maxRevocationsPerNode.toNat := hbounded.maximum_eq ▸ hbounded.card_le n

/-- A revocation of node 1's right to post, dated one second ahead of `sampleTime`. -/
def sampleRevocation : TokenRevocation where
  nodeId := sampleNode 1
  capability := .listed .postContent
  reason := .listed .abuseDetected
  revokedAt := 1201
  revoker := sampleNode 2
  context := []
  signature := FixedBytes.zero

/-- The revocation comes from node 3. -/
def receivesOne : List (Clock × TokenInput) :=
  [(Clock.still sampleTime, .processRevocation sampleRevocation (sampleNode 3))]

/-- An empty store accepts it, whatever its limits. -/
theorem initial_accepts (H : Bytes → Hash256) (days maximum : UInt32) :
    (initial days maximum).Accepts H (Clock.still sampleTime) sampleRevocation := by
  refine ⟨Finset.notMem_empty _, ?_, by decide, rfl⟩
  have hperiod := expirySeconds_lt (initial days maximum)
  have hdate : sampleRevocation.revokedAt.toNat = 1201 := rfl
  have hnow : sampleTime.secs.toNat = 1200 := rfl
  unfold isRevocationExpired
  rw [decide_eq_false_iff_not, Clock.read_still, UInt64.le_iff_toNat_le, UInt64.toNat_add, hdate,
    hnow, Nat.mod_eq_of_lt (by omega)]
  omega

/-- With a limit of zero it is one too many. -/
theorem not_consistent_zero (H : Bytes → Hash256) (days : UInt32) :
    ¬ Consistent H ((tokenMachine H).run (initial days 0) receivesOne).1 := by
  intro h
  have hquota := h.quota (sampleNode 1)
  rcases (initial days 0).processRevocation_cases H (Clock.still sampleTime) sampleRevocation
    (sampleNode 3) with ⟨_, heq⟩ | ⟨hrefused, _⟩
  · have hrun : ((tokenMachine H).run (initial days 0) receivesOne).1 =
        ((initial days 0).processRevocation H (Clock.still sampleTime) sampleRevocation
          (sampleNode 3)).1 := rfl
    rw [hrun, heq] at hquota
    exact absurd hquota (by simp [receivedOf, TokenRevocationManager.store, receivedEntry,
      OrdMap.insert, OrdMap.insertList, initial, OrdMap.empty, sampleRevocation])
  · exact hrefused (initial_accepts H days 0)

/-- One string does not collide with itself. -/
theorem injOn_receivesOne (H : Bytes → Hash256) : Set.InjOn H (hashed receivesOne) := by
  rintro _ ⟨_, h, hb⟩ _ ⟨_, h', hb'⟩ _
  cases List.mem_singleton.mp h
  cases List.mem_singleton.mp h'
  rw [List.mem_singleton.mp hb, List.mem_singleton.mp hb']

/-- **Indexes and limits.** For a store with a given expiry and limit, the indexes and
the limits are as they should be at the end of every run without a collision of ids
exactly when the limit is not zero. -/
theorem indexes_consistent_iff (H : Bytes → Hash256) (days maximum : UInt32) :
    (∀ inputs, Set.InjOn H (hashed inputs) →
      Consistent H ((tokenMachine H).run (initial days maximum) inputs).1) ↔ maximum ≠ 0 := by
  constructor
  · rintro hall rfl
    exact not_consistent_zero H days (hall receivesOne (injOn_receivesOne H))
  · intro hmax inputs hinj
    have hbounded : Bounded maximum ((tokenMachine H).run (initial days maximum) inputs).1 :=
      (tokenMachine H).run_invariant (P := Bounded maximum) (Bounded.call hmax)
        ⟨rfl, fun n => Nat.zero_le _⟩ inputs
    exact consistent_of_indexed ((Indexed.initial H _ days maximum).run hinj (le_refl _)) hbounded

/-- A limit of zero, and one revocation is stored. -/
theorem zero_limit_exceeded :
    Set.InjOn sampleHash (hashed receivesOne) ∧
      ¬ Consistent sampleHash ((tokenMachine sampleHash).run (initial 30 0) receivesOne).1 :=
  ⟨injOn_receivesOne sampleHash, not_consistent_zero sampleHash 30⟩

/-! ## Signatures -/

/-- The revocation has a signature that verifies with a key of its revoker. -/
def Signed (H : Bytes → Hash256) (ed : Ed25519) (r : TokenRevocation) : Prop :=
  ∃ key : PublicKey, r.revoker = ⟨H key.bytes⟩ ∧ verifyRevocation ed r key = true

/-- It was made here, or it was received and is signed. -/
def Genuine (H : Bytes → Hash256) (ed : Ed25519) (outputs : List TokenOutput)
    (r : TokenRevocation) : Prop :=
  .revoked r ∈ outputs ∨ .accepted r ∈ outputs ∧ Signed H ed r

/-- Only signed revocations were stored on receipt, and no other revokes a token or
counts against the limit of a node. -/
structure OnlySigned (H : Bytes → Hash256) (ed : Ed25519)
    (result : TokenRevocationManager × List TokenOutput) : Prop where
  entered : ∀ r, .accepted r ∈ result.2 → Signed H ed r
  revokes : ∀ token, result.1.isTokenRevoked token = true →
    ∃ r, Genuine H ed result.2 r ∧ r.matchesToken token = true
  counts : ∀ n, ∀ id ∈ result.1.revocationsByNode.members n,
    ∃ r, Genuine H ed result.2 r ∧ r.getId H = id ∧ r.nodeId = n

/-- The revocations of a list that pass the checks, each when its turn comes, are
signed. -/
def AcceptsSigned (H : Bytes → Hash256) (ed : Ed25519) (sourceNode : NodeID) :
    TokenRevocationManager → Clock → List TokenRevocation → Prop
  | _, _, [] => True
  | m, clock, r :: rest =>
    (m.Accepts H clock r → Signed H ed r) ∧
      AcceptsSigned H ed sourceNode (m.processRevocation H clock r sourceNode).1
        (clock.after 3) rest

/-- No message of the call passes the checks unsigned. -/
def NoneForged (H : Bytes → Hash256) (ed : Ed25519) (m : TokenRevocationManager)
    (input : Clock × TokenInput) : Prop :=
  match input.2 with
  | .processRevocation r sourceNode => AcceptsSigned H ed sourceNode m input.1 [r]
  | .processRevocationList update =>
    AcceptsSigned H ed update.sourceNode m input.1 update.revocations
  | _ => True

theorem acceptedOf_signed_iff (sourceNode : NodeID) (m : TokenRevocationManager) (clock : Clock)
    (list : List TokenRevocation) :
    (∀ r ∈ acceptedOf H sourceNode m clock list, Signed H ed r) ↔
      AcceptsSigned H ed sourceNode m clock list := by
  induction list generalizing m clock with
  | nil => simp [acceptedOf, AcceptsSigned]
  | cons r rest ih =>
    rw [acceptedOf, AcceptsSigned, ← ih, List.forall_mem_append]
    refine and_congr_left fun _ => ?_
    rcases m.processRevocation_cases H clock r sourceNode with ⟨haccepts, heq⟩ | ⟨hrefused, heq⟩
    · simp [heq, haccepts]
    · simp [heq, hrefused]

theorem step_signed_iff (m : TokenRevocationManager) (input : Clock × TokenInput) :
    (∀ o ∈ ((tokenMachine H).step m input).2, ∀ r, o = .accepted r → Signed H ed r) ↔
      NoneForged H ed m input := by
  obtain ⟨clock, call⟩ := input
  cases call with
  | issueToken control nodeId capability context =>
    simp [tokenMachine, TokenRevocationManager.call, NoneForged]
  | revokeToken unset nodeId capability reason revoker context =>
    simp [tokenMachine, TokenRevocationManager.call, NoneForged]
  | cleanupExpiredRevocations =>
    simp [tokenMachine, TokenRevocationManager.call, NoneForged]
  | processRevocation r sourceNode =>
    simp [tokenMachine, TokenRevocationManager.call, NoneForged, ← acceptedOf_signed_iff]
  | processRevocationList update =>
    simp [tokenMachine, TokenRevocationManager.call, NoneForged, ← acceptedOf_signed_iff]

/-- Where all that entered is signed, what is stored is genuine. -/
theorem genuine_of_stored {outputs : List TokenOutput}
    (h : ∀ r, .accepted r ∈ outputs → Signed H ed r) {o : TokenOutput} (ho : o ∈ outputs)
    {r : TokenRevocation} (hr : o.stored? = some r) : Genuine H ed outputs r := by
  cases o with
  | issued token => cases hr
  | revoked r' =>
    cases hr
    exact .inl ho
  | accepted r' =>
    cases hr
    exact .inr ⟨ho, h r ho⟩

/-- **Signatures.** At the end of a run from the empty store only signed revocations
have entered it from the network, revoke a token or use up a limit, exactly when
every received revocation that passes the other checks is signed. -/
theorem revocations_signed_iff (H : Bytes → Hash256) (ed : Ed25519) (days maximum : UInt32)
    (inputs : List (Clock × TokenInput)) :
    OnlySigned H ed ((tokenMachine H).run (initial days maximum) inputs) ↔
      (tokenMachine H).StepsMeet (NoneForged H ed) (initial days maximum) inputs := by
  have hentered := (tokenMachine H).run_outputs_iff (P := fun _ => True)
    (Q := fun o => ∀ r, o = .accepted r → Signed H ed r) (fun _ _ _ => trivial)
    (fun m input _ => step_signed_iff m input) (s := initial days maximum) trivial inputs
  rw [← hentered]
  constructor
  · rintro h o ho r rfl
    exact h.entered r ho
  · intro h
    have hsigned : ∀ r, .accepted r ∈ ((tokenMachine H).run (initial days maximum) inputs).2 →
        Signed H ed r := fun r hr => h _ hr r rfl
    refine ⟨hsigned, ?_, ?_⟩
    · intro token htoken
      obtain ⟨id, _, entry, hentry, hmatches⟩ := isTokenRevoked_iff.mp htoken
      rcases stored_of_run hentry with hbefore | ⟨o, ho, hstored⟩
      · cases hbefore
      · exact ⟨entry.revocation, genuine_of_stored hsigned ho hstored, hmatches⟩
    · intro n id hid
      rcases listed_of_run hid with hbefore | ⟨o, ho, r, hstored, hof⟩
      · exact absurd hbefore (Finset.notMem_empty id)
      · exact ⟨r, genuine_of_stored hsigned ho hstored, hof⟩

/-- The zero signature of `sampleRevocation` verifies with no key. -/
theorem sampleRevocation_unsigned : ¬ Signed sampleHash sampleEd25519 sampleRevocation := by
  rintro ⟨key, _, hverify⟩
  have hbytes : sampleRevocation.signature.bytes =
      (sampleHash (key.bytes ++ sampleRevocation.idBytes)).bytes ++ key.bytes :=
    beq_iff_eq.mp hverify
  have hfront := congrArg (List.take 32) hbytes
  rw [List.take_left' (FixedBytes.size _)] at hfront
  refine sampleHash_ne_zero (key.bytes ++ sampleRevocation.idBytes) (FixedBytes.ext ?_)
  rw [← hfront]
  rfl

/-- It is stored, and revokes a token of node 1. -/
theorem unsigned_revokes :
    ¬ OnlySigned sampleHash sampleEd25519
        ((tokenMachine sampleHash).run (initial 30 100) receivesOne) ∧
      ((tokenMachine sampleHash).run (initial 30 100) receivesOne).1.isTokenRevoked
        { nodeId := sampleNode 1, capability := .listed .postContent, issuedAt := 1200,
          expiresAt := 4800, context := [], signature := FixedBytes.zero } = true := by
  refine ⟨fun h => ?_, by decide +kernel⟩
  exact sampleRevocation_unsigned (h.entered sampleRevocation (by decide))

end Cashew.Theorems.TokenRevocation
