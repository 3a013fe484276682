import Cashew.Logic.KeyManager

/-!
# Transfers of keys

`execute_transfer` removes the key a record names and creates one of the type,
for the recipient and with the time the record says. It compares neither the
record's type with the key's (`transfer_moves_iff`) nor the new key's id with ids
there have been: the nonce that tells keys apart comes from a counter that starts
again with the process, while keys of an earlier process can be loaded
(`transfers_spend_once`).
-/

namespace Cashew.Theorems.KeyTransfers

open Cashew Cashew.Lib KeyManager

variable {H : Bytes → Hash256}

/-! ## What a transfer moves -/

/-- The transfer replaced one key of the sender by one key of the recipient of
the same type, the number of keys of each type is what it was, and so are the
counts of everybody else. -/
def MovesOne (o : Transferred H) : Prop :=
  (∃ old new rest, o.before.manager.getKey o.transfer.keyId = some old ∧
    old.owner = o.transfer.fromNode ∧ new.owner = o.transfer.toNode ∧ new.type = old.type ∧
    o.before.manager.stored.Perm (old :: rest) ∧ o.after.manager.stored.Perm (new :: rest)) ∧
  (∀ type, o.after.manager.total type = o.before.manager.total type) ∧
  ∀ owner, owner ≠ o.transfer.fromNode → owner ≠ o.transfer.toNode →
    ∀ type, o.after.manager.keyCount owner type = o.before.manager.keyCount owner type

/-- If the sender owns the key, the record has the key's type, and the new key's
id is not the id of another stored key. -/
def RecordMatches (s : KeySystem H) (t : KeyTransfer) : Prop :=
  ∀ key, s.manager.getKey t.keyId = some key → key.owner = t.fromNode →
    t.keyType = key.type ∧
      ((s.transferredKey t).getKeyId H ≠ t.keyId →
        s.manager.getKey ((s.transferredKey t).getKeyId H) = none)

theorem find?_dropKey_eq_none {m : KeyManager H} {id id' : Text} {owner : NodeID} :
    (m.dropKey id owner).keys.find? id' = none ↔ (id' ≠ id → m.getKey id' = none) := by
  show (m.keys.erase id).find? id' = none ↔ _
  rw [OrdMap.find?_erase]
  by_cases hid : id = id'
  · simp [hid]
  · simp [hid, Ne.symm hid, getKey]

theorem total_dropKey {m : KeyManager H} {id : Text} {key : Key} (owner : NodeID)
    (h : m.keys.find? id = some key) (type : Wire KeyType) :
    m.total type = (m.dropKey id owner).total type + if key.type = type then 1 else 0 := by
  unfold KeyManager.total
  rw [(stored_dropKey owner h).countP_eq, List.countP_cons]
  simp

theorem total_addKey (m : KeyManager H) (key : Key) (type : Wire KeyType) :
    (m.addKey key).total type =
      m.total type + if m.keys.find? (key.getKeyId H) = none ∧ key.type = type then 1 else 0 := by
  unfold KeyManager.total
  by_cases hnew : m.keys.find? (key.getKeyId H) = none
  · rw [(stored_addKey hnew).countP_eq, List.countP_cons]
    simp [hnew]
  · rw [stored_addKey_of_known hnew]
    simp [hnew]

/-- A transfer of an owned key moves it exactly when the record matches. -/
theorem movesOne_iff {s : KeySystem H} {t : KeyTransfer} {key : Key}
    (hkey : s.manager.keys.find? t.keyId = some key) (howner : key.owner = t.fromNode)
    (counter : UInt64) :
    MovesOne ⟨s, t, ⟨((s.manager.dropKey t.keyId t.fromNode).addKey
        (s.transferredKey t)).recordTransfer t, counter⟩⟩ ↔
      t.keyType = key.type ∧ (s.manager.dropKey t.keyId t.fromNode).keys.find?
        ((s.transferredKey t).getKeyId H) = none := by
  constructor
  · -- the type of the removed key loses a key unless the new key makes up for it
    rintro ⟨_, htotal, _⟩
    have hsame : ((s.manager.dropKey t.keyId t.fromNode).addKey (s.transferredKey t)).total
        key.type = s.manager.total key.type := htotal key.type
    rw [total_addKey, total_dropKey t.fromNode hkey key.type, if_pos rfl] at hsame
    by_contra hother
    rw [if_neg fun h => hother ⟨h.2, h.1⟩] at hsame
    omega
  · rintro ⟨htype, hnew⟩
    -- one key out and one in, of the same type and of the two owners
    have hbefore := stored_dropKey t.fromNode hkey
    have hafter := stored_addKey hnew
    refine ⟨⟨key, s.transferredKey t, _, hkey, howner, rfl, htype, hbefore, hafter⟩, ?_, ?_⟩
    · intro type
      show ((s.manager.dropKey t.keyId t.fromNode).addKey (s.transferredKey t)).total type = _
      have hnewType : (s.transferredKey t).type = key.type := htype
      rw [total_addKey, total_dropKey t.fromNode hkey type, hnewType]
      simp [hnew]
    · intro owner hfrom hto type
      show ((s.manager.dropKey t.keyId t.fromNode).addKey (s.transferredKey t)).stored.countP _ =
        s.manager.stored.countP _
      rw [hafter.countP_eq, hbefore.countP_eq, List.countP_cons_of_neg, List.countP_cons_of_neg]
      · have hne : key.owner ≠ owner := fun h => hfrom (h.symm.trans howner)
        simp [hne]
      · have hne : (s.transferredKey t).owner ≠ owner := fun h => hto h.symm
        simp [hne]

/-- What a step of the machine shows. -/
theorem step_snd (s : KeySystem H) (t : KeyTransfer) :
    (transferMachine.step s t).2 =
      if s.ownsKey t then [⟨s, t, (s.executeTransfer t).1⟩] else [] := by
  have hresult : (s.executeTransfer t).2 = s.ownsKey t := by
    rw [s.executeTransfer_eq t]
    cases s.ownsKey t
    · rfl
    · rfl
  show (if (s.executeTransfer t).2 then _ else _) = _
  rw [hresult]

theorem mem_step_iff {s : KeySystem H} {t : KeyTransfer} {o : Transferred H} :
    o ∈ (transferMachine.step s t).2 ↔
      s.ownsKey t = true ∧ o = ⟨s, t, (s.executeTransfer t).1⟩ := by
  rw [step_snd]
  by_cases howns : s.ownsKey t = true
  · simp [howns]
  · simp [howns]

theorem step_moves_iff (s : KeySystem H) (t : KeyTransfer) :
    (∀ o ∈ (transferMachine.step s t).2, MovesOne o) ↔ RecordMatches s t := by
  unfold RecordMatches
  by_cases howns : s.ownsKey t = true
  · obtain ⟨key, hkey, howner⟩ := KeySystem.ownsKey_iff.mp howns
    have hmoves := movesOne_iff hkey howner (s.keyNonceCounter + 1)
    rw [find?_dropKey_eq_none] at hmoves
    have hnext : (s.executeTransfer t).1 = ⟨((s.manager.dropKey t.keyId t.fromNode).addKey
        (s.transferredKey t)).recordTransfer t, s.keyNonceCounter + 1⟩ := by
      rw [s.executeTransfer_eq t, if_pos howns]
    rw [← hnext] at hmoves
    constructor
    · intro hall key' hkey' _
      cases hkey.symm.trans hkey'
      exact hmoves.mp (hall _ (mem_step_iff.mpr ⟨howns, rfl⟩))
    · intro hmatches o ho
      obtain ⟨_, rfl⟩ := mem_step_iff.mp ho
      exact hmoves.mpr (hmatches key hkey howner)
  · refine iff_of_true ?_ ?_
    · intro o ho
      exact absurd (mem_step_iff.mp ho).1 howns
    · intro key hkey howner
      exact absurd (KeySystem.ownsKey_iff.mpr ⟨key, hkey, howner⟩) howns

/-- **What a transfer moves.** In a sequence of `execute_transfer` calls every
success moves one key, of its type, from the sender to the recipient exactly when
every record whose key the sender owns has the type of that key and the key made
from it gets no id of another stored key. -/
theorem transfer_moves_iff (s : KeySystem H) (transfers : List KeyTransfer) :
    (∀ o ∈ (transferMachine.run s transfers).2, MovesOne o) ↔
      transferMachine.StepsMeet RecordMatches s transfers :=
  transferMachine.run_outputs_iff (P := fun _ => True) (fun _ _ _ => trivial)
    (fun s t _ => step_moves_iff s t) trivial transfers

/-- A record that `create_transfer` makes names a key of the sender and has its
type; the type is wrong only in records made otherwise. -/
theorem createTransfer_matches {ed : Ed25519} {m : KeyManager H} {now : Time} {unset : Signature}
    {keyId : Text} {fromNode toNode : NodeID} {reason : Text} {secretKey : SecretKey}
    {t : KeyTransfer}
    (h : m.createTransfer ed now unset keyId fromNode toNode reason secretKey = some t) :
    ∃ key, m.getKey t.keyId = some key ∧ key.owner = t.fromNode ∧ t.keyType = key.type := by
  unfold KeyManager.createTransfer at h
  cases hkey : m.keys.find? keyId with
  | none =>
    rw [hkey] at h
    cases h
  | some key =>
    rw [hkey] at h
    dsimp only at h
    split at h
    · cases h
    · rename_i howner
      split at h
      · cases h
      · cases h
        exact ⟨key, hkey, not_not.mp howner, rfl⟩

/-- A node key of node 1. -/
def nodeKey : Key :=
  Key.create (.listed .node) (sampleNode 1) 1200 (Text.ofString "pow") 1

/-- A manager with that key; the counter has moved on. -/
def nodeSystem : KeySystem sampleHash := ⟨KeyManager.initial.addKey nodeKey, 2⟩

/-- A record that names the node key and says it is a service key. -/
def mistyped : KeyTransfer where
  keyId := nodeKey.getKeyId sampleHash
  fromNode := sampleNode 1
  toNode := sampleNode 2
  keyType := .listed .service
  transferTimestamp := 1200
  reason := Text.ofString ""
  fromSignature := FixedBytes.zero

/-- It succeeds, and a service key is there in place of the node key. -/
theorem mistyped_changes_type :
    ¬ ∀ o ∈ (transferMachine.run nodeSystem [mistyped]).2, MovesOne o := by
  intro h
  have hmoved := h ⟨nodeSystem, mistyped, (nodeSystem.executeTransfer mistyped).1⟩
    (List.mem_append_left _ (mem_step_iff.mpr ⟨by decide +kernel, rfl⟩))
  have htotal := hmoved.2.1 (.listed .node)
  exact absurd htotal (by decide +kernel)

/-! ## Spending a key once -/

/-- The key a transfer created. -/
def newKey (o : Transferred H) : Key := o.before.transferredKey o.transfer

/-- Key ids are derived injectively: among these keys, equal ids come from equal
texts. -/
def IdsInjective (H : Bytes → Hash256) (keys : List Key) : Prop :=
  ∀ k ∈ keys, ∀ k' ∈ keys, k.getKeyId H = k'.getKeyId H → k.material = k'.material

instance (keys : List Key) : Decidable (IdsInjective H keys) :=
  inferInstanceAs (Decidable (∀ k ∈ keys, ∀ k' ∈ keys,
    k.getKeyId H = k'.getKeyId H → k.material = k'.material))

/-- The ids of the stored keys and of those the calls create are injective, no
stored key has a nonce the counter has still to give out, and the counter does
not turn over. -/
structure Ready (s : KeySystem H) (transfers : List KeyTransfer) : Prop where
  ids : IdsInjective H (s.manager.stored ++ (transferMachine.run s transfers).2.map newKey)
  nonces : ∀ key ∈ s.manager.stored, key.nonce.toNat < s.keyNonceCounter.toNat
  room : s.keyNonceCounter.toNat + transfers.length < 2 ^ 64

theorem step_fst (s : KeySystem H) (t : KeyTransfer) :
    (transferMachine.step s t).1 =
      if s.ownsKey t then
        ⟨((s.manager.dropKey t.keyId t.fromNode).addKey (s.transferredKey t)).recordTransfer t,
          s.keyNonceCounter + 1⟩
      else s := by
  show (s.executeTransfer t).1 = _
  rw [s.executeTransfer_eq t]
  split
  · rfl
  · rfl

/-- The keys a run creates are the first step's and those of the rest. -/
theorem mem_created_iff {s : KeySystem H} {t : KeyTransfer} {rest : List KeyTransfer} {key : Key} :
    key ∈ (transferMachine.run s (t :: rest)).2.map newKey ↔
      (s.ownsKey t = true ∧ key = s.transferredKey t) ∨
        key ∈ (transferMachine.run (transferMachine.step s t).1 rest).2.map newKey := by
  simp only [Machine.run, List.map_append, List.mem_append, List.mem_map, mem_step_iff]
  refine or_congr_left ?_
  constructor
  · rintro ⟨o, ⟨howns, rfl⟩, rfl⟩
    exact ⟨howns, rfl⟩
  · rintro ⟨howns, rfl⟩
    exact ⟨_, ⟨howns, rfl⟩, rfl⟩

/-- A stored key was there before the step or is the one it created. -/
theorem mem_stored_step {s : KeySystem H} {t : KeyTransfer} {key : Key}
    (h : key ∈ (transferMachine.step s t).1.manager.stored) :
    key ∈ s.manager.stored ∨ (s.ownsKey t = true ∧ key = s.transferredKey t) := by
  rw [step_fst] at h
  split at h
  · rename_i howns
    obtain ⟨old, hold, _⟩ := KeySystem.ownsKey_iff.mp howns
    rcases mem_stored_addKey h with rfl | hkept
    · exact .inr ⟨howns, rfl⟩
    · exact .inl ((stored_dropKey t.fromNode hold).mem_iff.mpr (List.mem_cons_of_mem _ hkept))
  · exact .inl h

theorem counter_succ {s : KeySystem H} {t : KeyTransfer} {rest : List KeyTransfer}
    (h : Ready s (t :: rest)) : (s.keyNonceCounter + 1).toNat = s.keyNonceCounter.toNat + 1 := by
  have hroom := h.room
  have hone : (1 : UInt64).toNat = 1 := rfl
  rw [List.length_cons] at hroom
  rw [UInt64.toNat_add, hone, Nat.mod_eq_of_lt (by omega)]

theorem Ready.step {s : KeySystem H} {t : KeyTransfer} {rest : List KeyTransfer}
    (h : Ready s (t :: rest)) : Ready (transferMachine.step s t).1 rest := by
  have hroom := h.room
  rw [List.length_cons] at hroom
  refine ⟨?_, ?_, ?_⟩
  · have hkeys : ∀ k ∈ (transferMachine.step s t).1.manager.stored ++
        (transferMachine.run (transferMachine.step s t).1 rest).2.map newKey,
        k ∈ s.manager.stored ++ (transferMachine.run s (t :: rest)).2.map newKey := by
      intro k hk
      rw [List.mem_append, mem_created_iff]
      rcases List.mem_append.mp hk with hk | hk
      · exact (mem_stored_step hk).imp_right Or.inl
      · exact .inr (.inr hk)
    exact fun k hk k' hk' => h.ids k (hkeys k hk) k' (hkeys k' hk')
  · intro key hkey
    rcases mem_stored_step hkey with hold | ⟨howns, rfl⟩
    · have hlt := h.nonces key hold
      rw [step_fst]
      split
      · rw [counter_succ h]
        omega
      · exact hlt
    · rw [step_fst, if_pos howns, counter_succ h]
      exact Nat.lt_succ_self _
  · rw [step_fst]
    split
    · rw [counter_succ h]
      omega
    · omega

/-- Every key created from here on has a nonce the counter has still to give
out. -/
theorem Ready.le_nonce {s : KeySystem H} {transfers : List KeyTransfer}
    (h : Ready s transfers) :
    ∀ key ∈ (transferMachine.run s transfers).2.map newKey,
      s.keyNonceCounter.toNat ≤ key.nonce.toNat := by
  induction transfers generalizing s with
  | nil => exact fun key hkey => nomatch hkey
  | cons t rest ih =>
    intro key hkey
    rcases mem_created_iff.mp hkey with ⟨_, rfl⟩ | hlater
    · exact Nat.le_refl _
    · have hle := ih h.step key hlater
      rw [step_fst] at hle
      split at hle
      · rw [counter_succ h] at hle
        omega
      · exact hle

/-- A key whose nonce is spent differs in its id from every key still to come. -/
theorem Ready.id_ne {s : KeySystem H} {transfers : List KeyTransfer} (h : Ready s transfers)
    {old key : Key} (hold : old ∈ s.manager.stored)
    (hkey : key ∈ (transferMachine.run s transfers).2.map newKey) :
    old.getKeyId H ≠ key.getKeyId H := by
  intro hid
  have hmaterial := h.ids old (List.mem_append_left _ hold) key (List.mem_append_right _ hkey) hid
  have hnonce : old.nonce.toNat = key.nonce.toNat :=
    congrArg UInt64.toNat (Key.nonce_eq_of_material hmaterial)
  have hlt := h.nonces old hold
  have hle := h.le_nonce key hkey
  omega

/-- A transferred id belongs to a key stored before or created on the way. -/
theorem keyId_origin {s : KeySystem H} {transfers : List KeyTransfer} {o : Transferred H}
    (h : o ∈ (transferMachine.run s transfers).2) :
    ∃ key, key.getKeyId H = o.transfer.keyId ∧
      (key ∈ s.manager.stored ∨ key ∈ (transferMachine.run s transfers).2.map newKey) := by
  induction transfers generalizing s with
  | nil => cases h
  | cons t rest ih =>
    rcases List.mem_append.mp h with hnow | hlater
    · obtain ⟨howns, rfl⟩ := mem_step_iff.mp hnow
      obtain ⟨key, hkey, _⟩ := KeySystem.ownsKey_iff.mp howns
      exact ⟨key, s.manager.keyed _ _ hkey, .inl (mem_stored_of_find? hkey)⟩
    · obtain ⟨key, hid, hfrom⟩ := ih hlater
      refine ⟨key, hid, ?_⟩
      rw [mem_created_iff]
      rcases hfrom with hstored | hcreated
      · exact (mem_stored_step hstored).imp_right Or.inl
      · exact .inr (.inr hcreated)

/-- No id is transferred twice. -/
theorem Ready.keyIds_nodup {s : KeySystem H} {transfers : List KeyTransfer}
    (h : Ready s transfers) :
    ((transferMachine.run s transfers).2.map fun o => o.transfer.keyId).Nodup := by
  induction transfers generalizing s with
  | nil => exact List.nodup_nil
  | cons t rest ih =>
    have hrest := ih h.step
    by_cases howns : s.ownsKey t = true
    · obtain ⟨old, hold, _⟩ := KeySystem.ownsKey_iff.mp howns
      have hstored : old ∈ s.manager.stored := mem_stored_of_find? hold
      have holdId : old.getKeyId H = t.keyId := s.manager.keyed _ _ hold
      have houts := step_snd s t
      rw [if_pos howns] at houts
      rw [Machine.run, houts, List.map_append, List.map_singleton, List.singleton_append,
        List.nodup_cons]
      refine ⟨?_, hrest⟩
      intro hmem
      obtain ⟨o, ho, hkeyId⟩ := List.mem_map.mp hmem
      obtain ⟨key, hid, hfrom⟩ := keyId_origin ho
      have hsame : old.getKeyId H = key.getKeyId H := holdId.trans (hkeyId.symm.trans hid.symm)
      -- were the id of a key made later, that key would share it with the old one
      have hcreated : key ∉ (transferMachine.run s (t :: rest)).2.map newKey :=
        fun hkey => h.id_ne hstored hkey hsame
      rw [mem_created_iff] at hcreated
      rcases hfrom with hkept | hlater
      · -- the old key is gone, so it would have to be the new one
        rw [step_fst, if_pos howns] at hkept
        rcases mem_stored_addKey hkept with rfl | hleft
        · exact hcreated (.inl ⟨howns, rfl⟩)
        · exact id_ne_of_mem_dropKey hleft (hsame.symm.trans holdId)
      · exact hcreated (.inr hlater)
    · have houts := step_snd s t
      rw [if_neg howns] at houts
      rw [Machine.run, houts, List.nil_append]
      exact hrest

/-- The number of keys is the same in every state. -/
theorem Ready.length_constant {s : KeySystem H} {transfers : List KeyTransfer}
    (h : Ready s transfers) :
    transferMachine.Always (fun s' => s'.manager.stored.length = s.manager.stored.length) s
      transfers := by
  induction transfers generalizing s with
  | nil => rfl
  | cons t rest ih =>
    refine ⟨rfl, ?_⟩
    have hstep : (transferMachine.step s t).1.manager.stored.length = s.manager.stored.length := by
      rw [step_fst]
      split
      · rename_i howns
        obtain ⟨old, hold, _⟩ := KeySystem.ownsKey_iff.mp howns
        have hnew : (s.manager.dropKey t.keyId t.fromNode).keys.find?
            ((s.transferredKey t).getKeyId H) = none := by
          refine find?_dropKey_eq_none.mpr fun _ => ?_
          refine Option.eq_none_iff_forall_not_mem.mpr fun key hkey => ?_
          exact h.id_ne (mem_stored_of_find? hkey) (mem_created_iff.mpr (.inl ⟨howns, rfl⟩))
            (s.manager.keyed _ _ hkey)
        have hlength := (stored_dropKey t.fromNode hold).length_eq
        show ((s.manager.dropKey t.keyId t.fromNode).addKey (s.transferredKey t)).stored.length = _
        rw [(stored_addKey hnew).length_eq, hlength]
        rfl
      · rfl
    have hrest := ih h.step
    rwa [hstep] at hrest

/-- **Spending a key once.** If no stored key has a nonce the counter has still to
give out and the counter does not turn over, then in a sequence of
`execute_transfer` calls no record succeeds twice and the number of keys never
changes. A call that fails changes nothing, in any state. -/
theorem transfers_spend_once (s : KeySystem H) (transfers : List KeyTransfer)
    (hids : IdsInjective H
      (s.manager.stored ++ (transferMachine.run s transfers).2.map newKey))
    (hnonces : ∀ key ∈ s.manager.stored, key.nonce.toNat < s.keyNonceCounter.toNat)
    (hroom : s.keyNonceCounter.toNat + transfers.length < 2 ^ 64) :
    ((transferMachine.run s transfers).2.map Transferred.transfer).Nodup ∧
      transferMachine.Always (fun s' => s'.manager.stored.length = s.manager.stored.length) s
        transfers ∧
      ∀ (s' : KeySystem H) t, (s'.executeTransfer t).2 = false → (s'.executeTransfer t).1 = s' := by
  have hready : Ready s transfers := ⟨hids, hnonces, hroom⟩
  refine ⟨?_, hready.length_constant, ?_⟩
  · have hnodup := hready.keyIds_nodup
    rw [show (fun o : Transferred H => o.transfer.keyId) =
      KeyTransfer.keyId ∘ Transferred.transfer from rfl, ← List.map_map] at hnodup
    exact hnodup.of_map _
  · intro s' t hfailed
    rw [s'.executeTransfer_eq t] at hfailed ⊢
    split at hfailed
    · cases hfailed
    · rename_i howns
      rw [if_neg howns]

/-- A record for the key `keyId`, dated 1200. -/
def record (keyId : Text) (fromNode toNode : Nat) : KeyTransfer where
  keyId
  fromNode := sampleNode fromNode
  toNode := sampleNode toNode
  keyType := .listed .node
  transferTimestamp := 1200
  reason := Text.ofString ""
  fromSignature := FixedBytes.zero

/-- One record twice. -/
def replayed : List KeyTransfer :=
  [record (nodeKey.getKeyId sampleHash) 1 2, record (nodeKey.getKeyId sampleHash) 1 2]

theorem transfers_spend_once_sample :
    ((transferMachine.run nodeSystem replayed).2.map Transferred.transfer).Nodup :=
  (transfers_spend_once nodeSystem replayed (by decide +kernel) (by decide +kernel)
    (by decide)).1

/-- The node key with nonce 2, loaded into a process whose counter stands at 1. -/
def reloadedKey : Key :=
  Key.create (.listed .node) (sampleNode 1) 1200 (Text.ofString "pow") 2

def reloadedSystem : KeySystem sampleHash := ⟨KeyManager.initial.addKey reloadedKey, 1⟩

/-- The key goes to node 2 and back, and then the first record again. -/
def thereAndBack : List KeyTransfer :=
  let there := record (reloadedKey.getKeyId sampleHash) 1 2
  [there, record ((reloadedSystem.transferredKey there).getKeyId sampleHash) 2 1, there]

/-- On the way back the key is created with nonce 2 and has the id of the loaded
key again: the first record succeeds a second time. -/
theorem reloaded_key_spent_twice :
    ¬ ((transferMachine.run reloadedSystem thereAndBack).2.map Transferred.transfer).Nodup := by
  decide +kernel

end Cashew.Theorems.KeyTransfers
