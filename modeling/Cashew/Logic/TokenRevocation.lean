import Cashew.Security.TokenRevocation

/-!
# What the calls on a token revocation manager do

A spec lemma for each call, and the invariant they share: the two indexes list what
is stored (`Indexed`). An id is the hash of everything that decides which set of an
index a revocation belongs to, so the invariant holds as long as no two of the
revocations a run hashes collide.
-/

namespace Cashew

open Cashew.Lib

namespace TokenRevocation

/-- Two revocations that differ in their signatures at most. -/
structure Same (r r' : TokenRevocation) : Prop where
  nodeId : r.nodeId = r'.nodeId
  capability : r.capability = r'.capability
  reason : r.reason = r'.reason
  revokedAt : r.revokedAt = r'.revokedAt
  revoker : r.revoker = r'.revoker
  context : r.context = r'.context

/-- All fields in front of the context have one size. -/
theorem same_of_idBytes {r r' : TokenRevocation} (h : r.idBytes = r'.idBytes) : Same r r' := by
  have hsize : ∀ a b : Hash256, a.bytes.length = b.bytes.length := fun a b => by
    rw [a.size, b.size]
  obtain ⟨hnode, h⟩ := List.append_inj h (hsize _ _)
  obtain ⟨hcapability, h⟩ := List.append_inj h rfl
  obtain ⟨hreason, h⟩ := List.append_inj h rfl
  obtain ⟨hrevokedAt, h⟩ := List.append_inj h (by rw [u64Bytes_length, u64Bytes_length])
  obtain ⟨hrevoker, hcontext⟩ := List.append_inj h (hsize _ _)
  exact {
    nodeId := NodeID.id_injective (FixedBytes.ext hnode)
    capability := Wire.toByte_injective (List.singleton_inj.mp hcapability)
    reason := Wire.toByte_injective (List.singleton_inj.mp hreason)
    revokedAt := u64Bytes_injective hrevokedAt
    revoker := NodeID.id_injective (FixedBytes.ext hrevoker)
    context := hcontext }

theorem matchesToken_iff {r : TokenRevocation} {token : CapabilityToken} :
    r.matchesToken token = true ↔
      token.nodeId = r.nodeId ∧ token.capability = r.capability ∧
        (r.context = [] ∨ token.context = [] ∨ r.context = token.context) ∧
          token.issuedAt < r.revokedAt := by
  have hnode : token.nodeId.id = r.nodeId.id ↔ token.nodeId = r.nodeId :=
    NodeID.id_injective.eq_iff
  unfold matchesToken
  by_cases h₁ : token.nodeId = r.nodeId
  · by_cases h₂ : token.capability = r.capability
    · by_cases h₃ : r.context = [] ∨ token.context = [] ∨ r.context = token.context
      · have hcontext : ¬ (r.context ≠ [] ∧ token.context ≠ [] ∧ r.context ≠ token.context) := by
          tauto
        rw [if_neg (by simp [h₁]), if_neg (by simp [h₂]), if_neg hcontext]
        by_cases h₄ : r.revokedAt ≤ token.issuedAt
        · simp [h₁, h₂, h₃, h₄, UInt64.not_lt]
        · simp [h₁, h₂, h₃, h₄, UInt64.not_le.mp h₄]
      · have hcontext : r.context ≠ [] ∧ token.context ≠ [] ∧ r.context ≠ token.context := by
          tauto
        rw [if_neg (by simp [h₁]), if_neg (by simp [h₂]), if_pos hcontext]
        simp [h₃]
    · simp [h₁, h₂]
  · simp [hnode, h₁]

end TokenRevocation

namespace TokenRevocationManager

variable {H : Bytes → Hash256} {m : TokenRevocationManager} {clock : Clock}

/-! ## Spec lemmas -/

theorem isTokenRevoked_iff {token : CapabilityToken} :
    m.isTokenRevoked token = true ↔
      ∃ id ∈ m.revocationsByNode.members token.nodeId, ∃ entry,
        m.revocations.find? id = some entry ∧ entry.revocation.matchesToken token = true := by
  unfold isTokenRevoked Index.members
  cases m.revocationsByNode.find? token.nodeId with
  | none => simp
  | some ids => simp [Option.any_eq_true]

/-- A node that is not full has room for one more, if it may have any. -/
theorem card_lt_of_isFull {nodeId : NodeID} (hmax : m.maxRevocationsPerNode ≠ 0)
    (h : m.isFull nodeId = false) :
    (m.revocationsByNode.members nodeId).card < m.maxRevocationsPerNode.toNat := by
  unfold isFull at h
  unfold Index.members
  cases hfind : m.revocationsByNode.find? nodeId with
  | none =>
    have hpos := UInt32.lt_iff_toNat_lt.mp (UInt32.pos_iff_ne_zero.mpr hmax)
    simpa using hpos
  | some ids =>
    rw [hfind] at h
    simpa using h

theorem expirySeconds_lt (m : TokenRevocationManager) : m.expirySeconds.toNat < 2 ^ 32 := by
  unfold expirySeconds
  rw [UInt32.toNat_toUInt64]
  exact UInt32.toNat_lt _

/-- The entry under which a revocation made here is stored. -/
def madeEntry (clock : Clock) (r : TokenRevocation) : RevocationListEntry :=
  { revocation := r, addedAt := (clock.read 1).secs, witnesses := ∅ }

/-- Revoking stores a new revocation unless the node has too many. -/
theorem revokeToken_cases (H : Bytes → Hash256) (m : TokenRevocationManager) (clock : Clock)
    (unset : Signature) (nodeId : NodeID) (capability : Wire Capability)
    (reason : Wire RevocationReason) (revoker : NodeID) (context : Bytes) :
    let r := newRevocation (clock.read 0) unset nodeId capability reason revoker context
    (m.isFull r.nodeId = false ∧
      m.revokeToken H clock unset nodeId capability reason revoker context =
        (m.store H (madeEntry clock r), some r)) ∨
    (m.isFull r.nodeId = true ∧
      m.revokeToken H clock unset nodeId capability reason revoker context = (m, none)) := by
  intro r
  unfold revokeToken
  cases hfull : m.isFull nodeId with
  | false => exact .inl ⟨hfull, rfl⟩
  | true => exact .inr ⟨hfull, rfl⟩

/-- What a received revocation has to pass to be stored. -/
structure Accepts (H : Bytes → Hash256) (m : TokenRevocationManager) (clock : Clock)
    (r : TokenRevocation) : Prop where
  unseen : r.getId H ∉ m.seenRevocations
  unexpired : m.isRevocationExpired (clock.read 0) r = false
  notFuture : ¬ (clock.read 1).secs + 300 < r.revokedAt
  room : m.isFull r.nodeId = false

/-- The entry under which it is stored then. -/
def receivedEntry (clock : Clock) (r : TokenRevocation) (sourceNode : NodeID) :
    RevocationListEntry :=
  { revocation := r, addedAt := (clock.read 2).secs, witnesses := {sourceNode} }

theorem shouldAcceptRevocation_iff {r : TokenRevocation} :
    m.shouldAcceptRevocation clock r = true ↔
      m.isRevocationExpired (clock.read 0) r = false ∧
        ¬ (clock.read 1).secs + 300 < r.revokedAt ∧ m.isFull r.nodeId = false := by
  unfold shouldAcceptRevocation
  cases m.isRevocationExpired (clock.read 0) r <;> cases m.isFull r.nodeId <;> simp

/-- Processing stores an accepted revocation and otherwise changes nothing. -/
theorem processRevocation_cases (H : Bytes → Hash256) (m : TokenRevocationManager)
    (clock : Clock) (r : TokenRevocation) (sourceNode : NodeID) :
    (m.Accepts H clock r ∧ m.processRevocation H clock r sourceNode =
      ({ m.store H (receivedEntry clock r sourceNode) with
          seenRevocations := insert (r.getId H) m.seenRevocations }, true)) ∨
    (¬ m.Accepts H clock r ∧ m.processRevocation H clock r sourceNode = (m, false)) := by
  unfold processRevocation
  split
  · rename_i hseen
    exact .inr ⟨fun h => h.unseen hseen, rfl⟩
  · rename_i hseen
    cases haccept : m.shouldAcceptRevocation clock r with
    | false =>
      refine .inr ⟨fun h => ?_, by simp⟩
      have htrue := shouldAcceptRevocation_iff.mpr ⟨h.unexpired, h.notFuture, h.room⟩
      exact absurd (haccept.symm.trans htrue) Bool.false_ne_true
    | true =>
      obtain ⟨hunexpired, hfuture, hroom⟩ := shouldAcceptRevocation_iff.mp haccept
      exact .inl ⟨⟨hseen, hunexpired, hfuture, hroom⟩, by simp [receivedEntry]⟩

/-- What processing one revocation preserves, processing a list preserves. -/
theorem processRevocationList_induct {P : TokenRevocationManager → Prop}
    {list : List TokenRevocation} (sourceNode : NodeID)
    (hstep : ∀ m clock, ∀ r ∈ list, P m → P (m.processRevocation H clock r sourceNode).1)
    (h : P m) : P (processRevocationList H sourceNode m clock list).1 := by
  induction list generalizing m clock with
  | nil => exact h
  | cons r rest ih =>
    refine ih (fun m clock r' hr' => hstep m clock r' (List.mem_cons_of_mem r hr')) ?_
    exact hstep m clock r List.mem_cons_self h

theorem mem_expiredIds {id : Hash256} :
    id ∈ m.expiredIds clock → ∃ entry i, m.revocations.find? id = some entry ∧
      m.isRevocationExpired (clock.read i) entry.revocation = true := by
  intro h
  obtain ⟨⟨⟨id', entry⟩, i⟩, hmem, rfl⟩ := List.mem_map.mp h
  obtain ⟨hentry, hexpired⟩ := List.mem_filter.mp hmem
  have hplace := List.mem_zipIdx_iff_getElem?.mp hentry
  exact ⟨entry, i, OrdMap.mem_entries.mp (List.mem_of_getElem? hplace), hexpired⟩

/-- What dropping one entry preserves, a cleanup preserves. -/
theorem cleanupExpiredRevocations_induct {P : TokenRevocationManager → Prop}
    (hstep : ∀ m, ∀ id, P m → P (m.dropRevocation id)) (h : P m) :
    P (m.cleanupExpiredRevocations clock) :=
  List.foldlRecOn (motive := P) _ _ h fun next hnext id _ => hstep next id hnext

theorem find?_dropRevocation (id j : Hash256) :
    (m.dropRevocation id).revocations.find? j =
      if id = j then none else m.revocations.find? j := by
  unfold dropRevocation
  cases hfind : m.revocations.find? id with
  | none =>
    by_cases hj : id = j
    · subst hj
      rw [if_pos rfl]
      exact hfind
    · rw [if_neg hj]
  | some entry => exact OrdMap.find?_erase _ _ _

/-- A cleanup drops what it finds expired. -/
theorem find?_cleanupExpiredRevocations (j : Hash256) :
    (m.cleanupExpiredRevocations clock).revocations.find? j =
      if j ∈ m.expiredIds clock then none else m.revocations.find? j := by
  have hfold : ∀ (ids : List Hash256) (m : TokenRevocationManager),
      (ids.foldl dropRevocation m).revocations.find? j =
        if j ∈ ids then none else m.revocations.find? j := by
    intro ids
    induction ids with
    | nil => exact fun m => rfl
    | cons id rest ih =>
      intro m
      rw [List.foldl_cons, ih, find?_dropRevocation]
      by_cases hj : id = j
      · simp [hj]
      · simp [hj, Ne.symm hj]
  exact hfold _ m

/-! ## Indexes -/

/-- Every revocation is stored under its id, with a hashed string from `S`, and the
indexes list what is stored. -/
structure Indexed (H : Bytes → Hash256) (S : Set Bytes) (m : TokenRevocationManager) : Prop where
  stored : ∀ id entry, m.revocations.find? id = some entry →
    entry.revocation.getId H = id ∧ entry.revocation.idBytes ∈ S
  byNode : m.revocationsByNode.Exact m.revocations (·.revocation.nodeId)
  byCapability : m.revocationsByCapability.Exact m.revocations (·.revocation.capability)

namespace Indexed

variable {S : Set Bytes}

theorem initial (H : Bytes → Hash256) (S : Set Bytes) (days maximum : UInt32) :
    Indexed H S (.initial days maximum) where
  stored id entry h := by cases h
  byNode := .empty _
  byCapability := .empty _

/-- Only a revocation with the same contents has the same id. -/
theorem same (h : Indexed H S m) (hS : Set.InjOn H S) {r : TokenRevocation} (hr : r.idBytes ∈ S)
    {entry : RevocationListEntry} (hentry : m.revocations.find? (r.getId H) = some entry) :
    entry.revocation.Same r := by
  obtain ⟨hid, hmem⟩ := h.stored _ entry hentry
  exact TokenRevocation.same_of_idBytes (hS hmem hr hid)

theorem store (h : Indexed H S m) (hS : Set.InjOn H S) {entry : RevocationListEntry}
    (hentry : entry.revocation.idBytes ∈ S) : Indexed H S (m.store H entry) where
  stored id found hfound := by
    rw [TokenRevocationManager.store, OrdMap.find?_insert] at hfound
    split at hfound
    · rename_i hid
      cases hfound
      exact ⟨hid, hentry⟩
    · exact h.stored id found hfound
  byNode := h.byNode.insert fun _ hold => (h.same hS hentry hold).nodeId
  byCapability := h.byCapability.insert fun _ hold => (h.same hS hentry hold).capability

theorem dropRevocation (h : Indexed H S m) (id : Hash256) : Indexed H S (m.dropRevocation id) := by
  have hstored : ∀ j found, (m.dropRevocation id).revocations.find? j = some found →
      m.revocations.find? j = some found := by
    intro j found hfound
    rw [find?_dropRevocation] at hfound
    split at hfound
    · cases hfound
    · exact hfound
  refine ⟨fun j found hfound => h.stored j found (hstored j found hfound), ?_, ?_⟩
  · unfold TokenRevocationManager.dropRevocation
    cases hfind : m.revocations.find? id with
    | none => exact h.byNode
    | some entry => exact h.byNode.erase hfind
  · unfold TokenRevocationManager.dropRevocation
    cases hfind : m.revocations.find? id with
    | none => exact h.byCapability
    | some entry => exact h.byCapability.erase hfind

theorem processRevocation (h : Indexed H S m) (hS : Set.InjOn H S) {r : TokenRevocation}
    (hr : r.idBytes ∈ S) (clock : Clock) (sourceNode : NodeID) :
    Indexed H S (m.processRevocation H clock r sourceNode).1 := by
  rcases m.processRevocation_cases H clock r sourceNode with ⟨_, heq⟩ | ⟨_, heq⟩
  · rw [heq]
    have hnext : Indexed H S (m.store H (receivedEntry clock r sourceNode)) := h.store hS hr
    exact ⟨hnext.stored, hnext.byNode, hnext.byCapability⟩
  · rw [heq]
    exact h

end Indexed

/-- The strings a call hashes. -/
def hashedBy (clock : Clock) : TokenInput → List Bytes
  | .revokeToken unset nodeId capability reason revoker context =>
    [(newRevocation (clock.read 0) unset nodeId capability reason revoker context).idBytes]
  | .processRevocation r _ => [r.idBytes]
  | .processRevocationList update => update.revocations.map (·.idBytes)
  | _ => []

/-- The strings the calls of a run hash for ids. -/
def hashed (inputs : List (Clock × TokenInput)) : Set Bytes :=
  {b | ∃ input ∈ inputs, b ∈ hashedBy input.1 input.2}

theorem Indexed.call {S : Set Bytes} (h : Indexed H S m) (hS : Set.InjOn H S) {input : TokenInput}
    (hinput : ∀ b ∈ hashedBy clock input, b ∈ S) : Indexed H S (m.call H clock input).1 := by
  cases input with
  | issueToken control nodeId capability context => exact h
  | revokeToken unset nodeId capability reason revoker context =>
    show Indexed H S (m.revokeToken H clock _ _ _ _ _ _).1
    rcases m.revokeToken_cases H clock unset nodeId capability reason revoker context with
      ⟨_, heq⟩ | ⟨_, heq⟩
    · rw [heq]
      exact h.store hS (hinput _ (List.mem_singleton.mpr rfl))
    · rw [heq]
      exact h
  | processRevocation r sourceNode =>
    exact h.processRevocation hS (hinput _ (List.mem_singleton.mpr rfl)) clock sourceNode
  | processRevocationList update =>
    refine processRevocationList_induct update.sourceNode ?_ h
    intro m clock r hr hm
    exact hm.processRevocation hS (hinput _ (List.mem_map_of_mem hr)) clock update.sourceNode
  | cleanupExpiredRevocations =>
    exact cleanupExpiredRevocations_induct (fun m id hm => hm.dropRevocation id) h

/-- Along a run without collisions the indexes stay exact. -/
theorem Indexed.run {S : Set Bytes} (h : Indexed H S m) (hS : Set.InjOn H S)
    {inputs : List (Clock × TokenInput)} (hinputs : hashed inputs ⊆ S) :
    Indexed H S ((tokenMachine H).run m inputs).1 := by
  refine (tokenMachine H).run_invariant_on
    (Q := fun input => ∀ b ∈ hashedBy input.1 input.2, b ∈ S) ?_ h inputs ?_
  · intro m input hinput hm
    exact hm.call hS hinput
  · intro input hmem b hb
    exact hinputs ⟨input, hmem, hb⟩

/-! ## Where entries come from -/

/-- What one state stores and lists beyond another comes from these revocations. -/
structure Brings (H : Bytes → Hash256) (m m' : TokenRevocationManager)
    (made : List TokenRevocation) : Prop where
  stored : ∀ id entry, m'.revocations.find? id = some entry →
    m.revocations.find? id = some entry ∨ entry.revocation ∈ made
  listed : ∀ n, ∀ id ∈ m'.revocationsByNode.members n,
    id ∈ m.revocationsByNode.members n ∨ ∃ r ∈ made, r.getId H = id ∧ r.nodeId = n

namespace Brings

variable {m' m'' : TokenRevocationManager} {made made' : List TokenRevocation}

theorem refl (m : TokenRevocationManager) : Brings H m m made :=
  ⟨fun _ _ h => .inl h, fun _ _ h => .inl h⟩

theorem trans (h : Brings H m m' made) (h' : Brings H m' m'' made') :
    Brings H m m'' (made ++ made') := by
  refine ⟨fun id entry hentry => ?_, fun n id hid => ?_⟩
  · rcases h'.stored id entry hentry with hmid | hmade
    · exact (h.stored id entry hmid).imp_right (List.mem_append_left _)
    · exact .inr (List.mem_append_right _ hmade)
  · rcases h'.listed n id hid with hmid | ⟨r, hr, hof⟩
    · exact (h.listed n id hmid).imp_right fun ⟨r, hr, hof⟩ => ⟨r, List.mem_append_left _ hr, hof⟩
    · exact .inr ⟨r, List.mem_append_right _ hr, hof⟩

theorem store (entry : RevocationListEntry) :
    Brings H m (m.store H entry) [entry.revocation] := by
  refine ⟨fun id found hfound => ?_, fun n id hid => ?_⟩
  · rw [TokenRevocationManager.store, OrdMap.find?_insert] at hfound
    split at hfound
    · cases hfound
      exact .inr (List.mem_singleton.mpr rfl)
    · exact .inl hfound
  · replace hid : id ∈ (m.revocationsByNode.add entry.revocation.nodeId
      (entry.revocation.getId H)).members n := hid
    rw [Index.members_add] at hid
    split at hid
    · rename_i hn
      rcases Finset.mem_insert.mp hid with hnew | hold
      · exact .inr ⟨_, List.mem_singleton.mpr rfl, hnew.symm, hn⟩
      · exact .inl hold
    · exact .inl hid

theorem dropRevocation (id : Hash256) : Brings H m (m.dropRevocation id) [] := by
  refine ⟨fun j found hfound => .inl ?_, fun n j hj => .inl ?_⟩
  · rw [find?_dropRevocation] at hfound
    split at hfound
    · cases hfound
    · exact hfound
  · unfold TokenRevocationManager.dropRevocation at hj
    split at hj
    · exact hj
    · replace hj : j ∈ (m.revocationsByNode.remove _ id).members n := hj
      rw [Index.members_remove] at hj
      split at hj
      · exact Finset.mem_of_mem_erase hj
      · exact hj

theorem processRevocationList (sourceNode : NodeID) (m : TokenRevocationManager) (clock : Clock)
    (list : List TokenRevocation) :
    Brings H m (TokenRevocationManager.processRevocationList H sourceNode m clock list).1
      (acceptedOf H sourceNode m clock list) := by
  induction list generalizing m clock with
  | nil => exact refl m
  | cons r rest ih =>
    refine trans ?_ (ih (m.processRevocation H clock r sourceNode).1 (clock.after 3))
    rcases m.processRevocation_cases H clock r sourceNode with ⟨_, heq⟩ | ⟨_, heq⟩
    · rw [heq]
      have hstore := store (H := H) (m := m) (receivedEntry clock r sourceNode)
      exact ⟨hstore.stored, hstore.listed⟩
    · rw [heq]
      exact refl m

end Brings

end TokenRevocationManager

/-- The revocation a call has stored. -/
def TokenOutput.stored? : TokenOutput → Option TokenRevocation
  | .issued _ => none
  | .revoked r => some r
  | .accepted r => some r

namespace TokenRevocationManager

variable {H : Bytes → Hash256} {m : TokenRevocationManager} {clock : Clock}

/-- What a call stores is among its outputs. -/
theorem call_brings (H : Bytes → Hash256) (m : TokenRevocationManager) (clock : Clock)
    (input : TokenInput) :
    Brings H m (m.call H clock input).1
      ((m.call H clock input).2.filterMap TokenOutput.stored?) := by
  have haccepted : ∀ list : List TokenRevocation,
      (list.map TokenOutput.accepted).filterMap TokenOutput.stored? = list := by
    intro list
    rw [List.filterMap_map]
    exact List.filterMap_some
  cases input with
  | issueToken control nodeId capability context => exact .refl m
  | revokeToken unset nodeId capability reason revoker context =>
    dsimp only [call]
    rcases m.revokeToken_cases H clock unset nodeId capability reason revoker context with
      ⟨_, heq⟩ | ⟨_, heq⟩
    · rw [heq]
      exact .store _
    · rw [heq]
      exact .refl m
  | processRevocation r sourceNode =>
    dsimp only [call]
    rw [haccepted]
    exact .processRevocationList sourceNode m clock [r]
  | processRevocationList update =>
    dsimp only [call]
    rw [haccepted]
    exact .processRevocationList update.sourceNode m clock update.revocations
  | cleanupExpiredRevocations =>
    exact cleanupExpiredRevocations_induct (P := fun m' => Brings H m m' [])
      (fun m' id hm' => hm'.trans (Brings.dropRevocation id)) (.refl m)

/-- What is stored at the end of a run was stored before or is among its outputs. -/
theorem stored_of_run {inputs : List (Clock × TokenInput)} {id : Hash256}
    {entry : RevocationListEntry}
    (h : ((tokenMachine H).run m inputs).1.revocations.find? id = some entry) :
    m.revocations.find? id = some entry ∨
      ∃ o ∈ ((tokenMachine H).run m inputs).2, o.stored? = some entry.revocation := by
  refine (tokenMachine H).run_shown
    (L := fun m (e : Hash256 × RevocationListEntry) => m.revocations.find? e.1 = some e.2)
    (S := fun e o => o.stored? = some e.2.revocation) ?_ (a := (id, entry)) h
  intro m input e he
  exact ((call_brings H m input.1 input.2).stored e.1 e.2 he).imp_right List.mem_filterMap.mp

/-- So is what the index by node lists. -/
theorem listed_of_run {inputs : List (Clock × TokenInput)} {n : NodeID} {id : Hash256}
    (h : id ∈ ((tokenMachine H).run m inputs).1.revocationsByNode.members n) :
    id ∈ m.revocationsByNode.members n ∨ ∃ o ∈ ((tokenMachine H).run m inputs).2,
      ∃ r, o.stored? = some r ∧ r.getId H = id ∧ r.nodeId = n := by
  refine (tokenMachine H).run_shown
    (L := fun m (e : NodeID × Hash256) => e.2 ∈ m.revocationsByNode.members e.1)
    (S := fun e o => ∃ r, o.stored? = some r ∧ r.getId H = e.2 ∧ r.nodeId = e.1) ?_
    (a := (n, id)) h
  intro m input e he
  refine ((call_brings H m input.1 input.2).listed e.1 e.2 he).imp_right ?_
  rintro ⟨r, hr, hof⟩
  obtain ⟨o, ho, hshows⟩ := List.mem_filterMap.mp hr
  exact ⟨o, ho, r, hshows, hof⟩

end TokenRevocationManager

end Cashew
