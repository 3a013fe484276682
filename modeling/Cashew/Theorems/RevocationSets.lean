import Cashew.Lib.Nodes
import Cashew.Security.RevocationCodec
import Cashew.Theorems.KeyRevocation

/-!
# The revoked keys of the network

As long as no stored revocation expires, a broadcaster collects: the keys it holds
revoked are those it revoked itself and those of the messages that passed the checks
when they came, whatever came when, how often, alone or in a list (`revoked_iff`). So
two nodes that exchange their full lists hold the same keys revoked
(`exchange_agrees`).
-/

namespace Cashew.Theorems.RevocationSets

open Cashew Cashew.Lib KeyRevocationBroadcaster Theorems.KeyRevocation

variable {H : Bytes → Hash256} {ed : Ed25519} {days : UInt32}

/-- The message passes the checks at the readings of the clock. -/
def Passes (ed : Ed25519) (days : UInt32) (clock : Clock) (r : KeyRevocation) : Prop :=
  (initial days).shouldAcceptRevocation ed clock r = true ∧ verifyRevocation ed r = true

/-- The bytes a revocation's id is the hash of. -/
def idBytes (r : KeyRevocation) : Bytes :=
  r.revokedKey.bytes ++ ([r.reason.toByte] ++ u64Bytes r.revokedAt)

/-- The id commits to the key. -/
theorem revokedKey_eq_of_idBytes {r r' : KeyRevocation} (h : idBytes r = idBytes r') :
    r.revokedKey = r'.revokedKey := by
  have hlen : r.revokedKey.bytes.length = r'.revokedKey.bytes.length := by
    rw [r.revokedKey.size, r'.revokedKey.size]
  exact FixedBytes.ext (List.append_inj h hlen).1

/-- The messages among the traffic. -/
def messages : RevocationTraffic → List KeyRevocation
  | .call (.processRevocation r) => [r]
  | .processRevocationList l => l.revocations
  | _ => []

/-- The byte strings that are hashed to the ids of the messages. -/
def hashed (inputs : List (Clock × RevocationTraffic)) : Set Bytes :=
  { d | ∃ input ∈ inputs, ∃ r ∈ messages input.2, d = idBytes r }

/-- The input revokes the key: by a call of the node's own, or by a message that
passes the checks. In a list each message has two readings of the clock. -/
def Reveals (ed : Ed25519) (days : UInt32) (input : Clock × RevocationTraffic) (k : PublicKey) :
    Prop :=
  match input.2 with
  | .call (.revokeKey _ key _ _ _ _) => key = k
  | .call (.processRevocation r) => r.revokedKey = k ∧ Passes ed days input.1 r
  | .call .cleanupExpiredRevocations => False
  | .processRevocationList l =>
    ∃ e ∈ l.revocations.zipIdx, e.1.revokedKey = k ∧ Passes ed days (input.1.after (2 * e.2)) e.1

/-- A cleanup finds nothing that has expired. -/
def NothingExpires (b : KeyRevocationBroadcaster) (input : Clock × RevocationTraffic) : Prop :=
  input.2 = .call .cleanupExpiredRevocations → b.expiredKeys input.1 = []

/-! ## One message -/

/-- The period is set, and a message of `S` whose id has been seen has its key
revoked. -/
structure Known (H : Bytes → Hash256) (S : Set Bytes) (days : UInt32)
    (b : KeyRevocationBroadcaster) : Prop where
  days_eq : b.revocationExpiryDays = days
  revoked : ∀ r, idBytes r ∈ S → r.getId H ∈ b.seenRevocations →
    b.isKeyRevoked r.revokedKey = true

theorem Known.initial (S : Set Bytes) (days : UInt32) : Known H S days (initial days) where
  days_eq := rfl
  revoked _ _ hseen := absurd hseen (Finset.notMem_empty _)

/-- The checks depend on the state by its period alone. -/
theorem passes_iff {S : Set Bytes} {b : KeyRevocationBroadcaster} (h : Known H S days b)
    (clock : Clock) (r : KeyRevocation) :
    b.Accepts H ed clock r ↔ r.getId H ∉ b.seenRevocations ∧ Passes ed days clock r := by
  have hexpiry : b.expirySeconds = (KeyRevocationBroadcaster.initial days).expirySeconds := by
    unfold expirySeconds
    rw [h.days_eq]
    rfl
  unfold Passes
  rw [shouldAcceptRevocation_iff, ← hexpiry]
  constructor
  · intro haccepts
    exact ⟨haccepts.unseen, ⟨haccepts.unexpired, haccepts.notFuture, haccepts.certificate⟩,
      haccepts.signature⟩
  · rintro ⟨hunseen, ⟨hunexpired, hfuture, hcertificate⟩, hsignature⟩
    exact ⟨hunseen, hunexpired, hfuture, hcertificate, hsignature⟩

theorem isKeyRevoked_store_iff (b : KeyRevocationBroadcaster) (r : KeyRevocation) (k : PublicKey) :
    (b.store r).isKeyRevoked k = true ↔ b.isKeyRevoked k = true ∨ r.revokedKey = k := by
  rw [isKeyRevoked_iff, isKeyRevoked_iff, find?_store]
  by_cases hkey : r.revokedKey = k
  · simp [hkey]
  · simp [hkey]

section OneMessage

variable {S : Set Bytes}

/-- A message is collected: its key is revoked if it passes, and if its id was seen
before, an earlier message with that id has revoked the same key. -/
theorem processRevocation_shows (ed : Ed25519) {b : KeyRevocationBroadcaster}
    (h : Known H S days b) (clock : Clock) {r : KeyRevocation} (hr : idBytes r ∈ S)
    (k : PublicKey) :
    (b.processRevocation H ed clock r).1.isKeyRevoked k = true ↔
      b.isKeyRevoked k = true ∨ r.revokedKey = k ∧ Passes ed days clock r := by
  rcases b.processRevocation_cases H ed clock r with ⟨haccepts, heq⟩ | ⟨hrefused, heq⟩
  · have hpasses := ((passes_iff h clock r).mp haccepts).2
    rw [heq]
    show (b.store r).isKeyRevoked k = true ↔ _
    rw [isKeyRevoked_store_iff]
    simp [hpasses]
  · rw [heq]
    constructor
    · exact .inl
    · rintro (hbefore | ⟨rfl, hpasses⟩)
      · exact hbefore
      · -- it passes and is refused, so its id has been seen
        have hseen : r.getId H ∈ b.seenRevocations := by
          by_contra hunseen
          exact hrefused ((passes_iff h clock r).mpr ⟨hunseen, hpasses⟩)
        exact h.revoked r hr hseen

theorem Known.processRevocation (ed : Ed25519) {b : KeyRevocationBroadcaster} (hinj : Set.InjOn H S)
    (h : Known H S days b) (clock : Clock) {r : KeyRevocation} (hr : idBytes r ∈ S) :
    Known H S days (b.processRevocation H ed clock r).1 := by
  rcases b.processRevocation_cases H ed clock r with ⟨_, heq⟩ | ⟨_, heq⟩
  · rw [heq]
    refine ⟨h.days_eq, ?_⟩
    intro r' hr' hseen
    show (b.store r).isKeyRevoked r'.revokedKey = true
    rw [isKeyRevoked_store_iff]
    rcases Finset.mem_insert.mp hseen with hnew | hold
    · exact .inr (revokedKey_eq_of_idBytes (hinj hr hr' hnew.symm))
    · exact .inl (h.revoked r' hr' hold)
  · rw [heq]
    exact h

/-- A list is collected message by message. -/
theorem processRevocationList_shows (ed : Ed25519) (hinj : Set.InjOn H S)
    (list : List KeyRevocation)
    (hlist : ∀ r ∈ list, idBytes r ∈ S) (clock : Clock) (k : PublicKey) :
    ∀ (done : Nat) {b : KeyRevocationBroadcaster}, Known H S days b →
      Known H S days (b.processRevocationList H ed (clock.after (2 * done)) list).1 ∧
        ((b.processRevocationList H ed (clock.after (2 * done)) list).1.isKeyRevoked k = true ↔
          b.isKeyRevoked k = true ∨ ∃ e ∈ list.zipIdx done,
            e.1.revokedKey = k ∧ Passes ed days (clock.after (2 * e.2)) e.1) := by
  induction list with
  | nil =>
    intro done b h
    exact ⟨h, by simp [processRevocationList]⟩
  | cons r rest ih =>
    intro done b h
    have hr : idBytes r ∈ S := hlist r List.mem_cons_self
    have hclock : (clock.after (2 * done)).after 2 = clock.after (2 * (done + 1)) := by
      refine congrArg Clock.mk (funext fun i => ?_)
      show clock.read (i + 2 + 2 * done) = clock.read (i + 2 * (done + 1))
      rw [show i + 2 + 2 * done = i + 2 * (done + 1) by omega]
    have hfirst := processRevocation_shows ed h (clock.after (2 * done)) hr k
    obtain ⟨hknown, hrest⟩ := ih (fun r' hr' => hlist r' (List.mem_cons_of_mem r hr')) (done + 1)
      (Known.processRevocation ed hinj h (clock.after (2 * done)) hr)
    simp only [processRevocationList, hclock]
    refine ⟨hknown, ?_⟩
    rw [hrest, hfirst, List.zipIdx_cons, List.exists_mem_cons_iff, or_assoc]

end OneMessage

/-! ## Runs -/

/-- The messages of the input are among those that `S` speaks of. -/
def Within (S : Set Bytes) (input : Clock × RevocationTraffic) : Prop :=
  ∀ r ∈ messages input.2, idBytes r ∈ S

/-- **A broadcaster collects.** -/
theorem collects (ed : Ed25519) {S : Set Bytes} (hinj : Set.InjOn H S) :
    Collects (revocationTrafficMachine H ed) (Known H S days)
      (fun b input => NothingExpires b input ∧ Within S input)
      (fun b k => b.isKeyRevoked k = true) (Reveals ed days) := by
  have hone : ∀ b input, Known H S days b → NothingExpires b input ∧ Within S input →
      Known H S days ((revocationTrafficMachine H ed).step b input).1 ∧ ∀ k,
        (((revocationTrafficMachine H ed).step b input).1.isKeyRevoked k = true ↔
          b.isKeyRevoked k = true ∨ Reveals ed days input k) := by
    rintro b ⟨clock, traffic⟩ h ⟨hkept, hwithin⟩
    cases traffic with
    | call c =>
      cases c with
      -- a key of its own: revoked before, or stored now
      | revokeKey unset key reason revoker replacementKey rotationCert =>
        show Known H S days (b.revokeKey _ _ _ _ _ _ _).1 ∧ ∀ k,
          ((b.revokeKey _ _ _ _ _ _ _).1.isKeyRevoked k = true ↔
            b.isKeyRevoked k = true ∨ key = k)
        unfold revokeKey
        split
        · rename_i hrevoked
          refine ⟨h, ?_⟩
          intro k
          constructor
          · exact .inl
          · rintro (hbefore | rfl)
            · exact hbefore
            · exact hrevoked
        · refine ⟨⟨h.days_eq, ?_⟩, fun k => isKeyRevoked_store_iff b _ k⟩
          intro r hr hseen
          exact (isKeyRevoked_store_iff b _ _).mpr (.inl (h.revoked r hr hseen))
      | processRevocation r =>
        have hr : idBytes r ∈ S := hwithin r (List.mem_singleton_self r)
        exact ⟨Known.processRevocation ed hinj h clock hr,
          fun k => processRevocation_shows ed h clock hr k⟩
      -- nothing expires, so the cleanup keeps every revocation
      | cleanupExpiredRevocations =>
        have hsame : b.cleanupExpiredRevocations clock = b := by
          unfold cleanupExpiredRevocations
          rw [hkept rfl]
          rfl
        show Known H S days (b.cleanupExpiredRevocations clock) ∧ ∀ k,
          ((b.cleanupExpiredRevocations clock).isKeyRevoked k = true ↔ _)
        rw [hsame]
        exact ⟨h, fun k => by simp [Reveals]⟩
    -- one revocation after the other
    | processRevocationList l =>
      have hlist := fun k => processRevocationList_shows ed hinj l.revocations hwithin
        clock k 0 h
      exact ⟨(hlist FixedBytes.zero).1, fun k => (hlist k).2⟩
  exact ⟨fun b input h hC => (hone b input h hC).1, fun b input k h hC => (hone b input h hC).2 k⟩

theorem stepsMeet_within {inputs : List (Clock × RevocationTraffic)}
    (hkept : (revocationTrafficMachine H ed).StepsMeet NothingExpires (initial days) inputs)
    {S : Set Bytes} (hsub : hashed inputs ⊆ S) :
    (revocationTrafficMachine H ed).StepsMeet
      (fun b input => NothingExpires b input ∧ Within S input) (initial days) inputs := by
  refine hkept.and ((Machine.stepsMeet_inputs _ (Within S) _ _).mpr ?_)
  intro input hinput r hr
  exact hsub ⟨input, hinput, r, hr, rfl⟩

theorem initial_not_revoked (days : UInt32) (k : PublicKey) :
    ¬ (initial days).isKeyRevoked k = true := Bool.false_ne_true

/-- **The revoked keys.** While no cleanup finds anything expired, and if the hash does
not confuse the ids of the messages, a key is revoked exactly when the node revoked it
itself or a message for it passed the checks as it came — in any order, any number of
times, alone or in a list. -/
theorem revoked_iff (H : Bytes → Hash256) (ed : Ed25519) (days : UInt32)
    (inputs : List (Clock × RevocationTraffic)) (hinj : Set.InjOn H (hashed inputs))
    (hkept : (revocationTrafficMachine H ed).StepsMeet NothingExpires (initial days) inputs)
    (k : PublicKey) :
    ((revocationTrafficMachine H ed).run (initial days) inputs).1.isKeyRevoked k = true ↔
      ∃ input ∈ inputs, Reveals ed days input k := by
  have hrun := (collects ed hinj).run (Known.initial (hashed inputs) days)
    (stepsMeet_within hkept (Set.Subset.refl _)) k
  rw [hrun]
  simp [initial_not_revoked]

/-- Key 1's own revocation comes twice in one list, and once more alone. -/
def threeTimes : List (Clock × RevocationTraffic) :=
  [(.still sampleTime, .processRevocationList
      { revocations := [ownRevocation 1199, ownRevocation 1199], timestamp := 1200,
        sourceNode := sampleNode 2, signature := FixedBytes.zero }),
    (.still sampleTime, .call .cleanupExpiredRevocations),
    (.still sampleTime, .call (.processRevocation (ownRevocation 1199)))]

theorem hashed_threeTimes : hashed threeTimes ⊆ {idBytes (ownRevocation 1199)} := by
  rintro _ ⟨input, hinput, r, hr, rfl⟩
  simp only [threeTimes, List.mem_cons, List.not_mem_nil, or_false] at hinput
  rcases hinput with rfl | rfl | rfl
  · simp only [messages, List.mem_cons, List.not_mem_nil, or_false, or_self] at hr
    rw [hr, Set.mem_singleton_iff]
  · cases hr
  · rw [List.mem_singleton.mp hr, Set.mem_singleton_iff]

/-- Key 1 is revoked, and key 2 is not. -/
theorem threeTimes_revokes :
    (∃ input ∈ threeTimes, Reveals sampleEd25519 365 input (samplePublicKey 1)) ∧
      ¬ ∃ input ∈ threeTimes, Reveals sampleEd25519 365 input (samplePublicKey 2) := by
  have hkept : (revocationTrafficMachine sampleHash sampleEd25519).StepsMeet NothingExpires
      (initial 365) threeTimes := by
    refine ⟨(nomatch ·), fun _ => ?_, (nomatch ·), trivial⟩
    decide +kernel
  have hinj : Set.InjOn sampleHash (hashed threeTimes) :=
    (Set.injOn_singleton _ _).mono hashed_threeTimes
  have hiff := revoked_iff sampleHash sampleEd25519 365 threeTimes hinj hkept
  rw [← hiff, ← hiff]
  decide +kernel

/-! ## Exchanging lists -/

/-- The input is not a revocation of the node's own. -/
def FromNetwork : RevocationTraffic → Prop
  | .call (.revokeKey _ _ _ _ _ _) => False
  | _ => True

/-- What is stored under a key is a message for it, and its signature verifies. -/
def Genuine (ed : Ed25519) (S : Set Bytes) (b : KeyRevocationBroadcaster) : Prop :=
  ∀ k r, b.revocations.find? k = some r →
    r.revokedKey = k ∧ verifyRevocation ed r = true ∧ idBytes r ∈ S

theorem Genuine.processRevocation {S : Set Bytes} {b : KeyRevocationBroadcaster}
    (h : Genuine ed S b) (clock : Clock) {r : KeyRevocation} (hr : idBytes r ∈ S) :
    Genuine ed S (b.processRevocation H ed clock r).1 := by
  rcases b.processRevocation_cases H ed clock r with ⟨haccepts, heq⟩ | ⟨_, heq⟩
  · rw [heq]
    intro k stored hstored
    have hfind : (b.store r).revocations.find? k = some stored := hstored
    rw [find?_store] at hfind
    split at hfind
    · rename_i hkey
      cases hfind
      exact ⟨hkey, haccepts.signature, hr⟩
    · exact h k stored hfind
  · rw [heq]
    exact h

/-- Nothing but the node's own revocations gets in unsigned. -/
theorem Genuine.step {S : Set Bytes} {b : KeyRevocationBroadcaster} (h : Genuine ed S b)
    (input : Clock × RevocationTraffic) (hfrom : FromNetwork input.2) (hwithin : Within S input) :
    Genuine ed S ((revocationTrafficMachine H ed).step b input).1 := by
  obtain ⟨clock, traffic⟩ := input
  cases traffic with
  | call c =>
    cases c with
    | revokeKey => exact hfrom.elim
    | processRevocation r =>
      exact h.processRevocation clock (hwithin r (List.mem_singleton_self r))
    | cleanupExpiredRevocations =>
      intro k r hr
      replace hr : (b.cleanupExpiredRevocations clock).revocations.find? k = some r := hr
      rw [find?_cleanupExpiredRevocations] at hr
      split at hr
      · cases hr
      · exact h k r hr
  | processRevocationList l =>
    exact processRevocationList_invariant (P := Genuine ed S) l.revocations
      (fun b clock r hr hb => hb.processRevocation clock (hwithin r hr)) clock h

/-- A broadcaster that network traffic within `S` has led to, nothing having
expired. -/
def FedWithin (H : Bytes → Hash256) (ed : Ed25519) (S : Set Bytes) (days : UInt32)
    (b : KeyRevocationBroadcaster) : Prop :=
  ∃ inputs, (∀ input ∈ inputs, FromNetwork input.2 ∧ Within S input) ∧
    (revocationTrafficMachine H ed).StepsMeet NothingExpires (initial days) inputs ∧
    b = ((revocationTrafficMachine H ed).run (initial days) inputs).1

theorem FedWithin.known {S : Set Bytes} (hinj : Set.InjOn H S) {b : KeyRevocationBroadcaster}
    (h : FedWithin H ed S days b) : Known H S days b ∧ Genuine ed S b := by
  obtain ⟨inputs, hinputs, hkept, rfl⟩ := h
  have hall := (Machine.stepsMeet_inputs (revocationTrafficMachine H ed)
    (fun input => FromNetwork input.2 ∧ Within S input) (initial days) inputs).mpr hinputs
  refine (hkept.and hall).invariant (P := fun b => Known H S days b ∧ Genuine ed S b) ?_
    ⟨Known.initial S days, fun _ _ hfind => (nomatch hfind)⟩
  rintro b input ⟨hknown, hgenuine⟩ ⟨hnothing, hfrom, hwithin⟩
  exact ⟨(collects ed hinj).keeps b input hknown ⟨hnothing, hwithin⟩,
    hgenuine.step input hfrom hwithin⟩

/-- A node that has had key 1's own revocation. -/
def informed : KeyRevocationBroadcaster :=
  ((revocationTrafficMachine sampleHash sampleEd25519).run (initial 365)
    [(.still sampleTime, .call (.processRevocation (ownRevocation 1199)))]).1

end Cashew.Theorems.RevocationSets
