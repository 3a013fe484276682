import Cashew.Keys.KeyManager

/-!
# What the key manager's calls do

Every call takes at most one key out of the manager and then adds a list of
keys (`KeyInput.base`, `KeyInput.adds`); everything about the stored keys and the
index follows from what removing one key and adding one key do:

* `stored_addKey`, `stored_dropKey` — the stored keys, up to order;
* `indexOf_addKey`, `indexOf_dropKey` — the index;
* `Indexed` — the index has the ids of the stored keys of each owner, each once;
  `indexed_addKeys_iff` says exactly when adding keys keeps it.
-/

namespace Cashew

open Cashew.Lib

variable {H : Bytes → Hash256}

namespace KeyManager

/-- The stored keys in the order of their ids. -/
def stored (m : KeyManager H) : List Key := m.keys.entries.map Prod.snd

/-- The stored keys of an owner. -/
def keysOf (m : KeyManager H) (owner : NodeID) : List Key := m.stored.filter (·.owner = owner)

/-- The number of stored keys of an owner and a type. -/
def keyCount (m : KeyManager H) (owner : NodeID) (type : Wire KeyType) : Nat :=
  m.stored.countP fun key => key.owner = owner ∧ key.type = type

/-- The number of stored keys of a type. -/
def total (m : KeyManager H) (type : Wire KeyType) : Nat :=
  m.stored.countP fun key => key.type = type

/-! ## Stored keys -/

theorem mem_stored {m : KeyManager H} {key : Key} :
    key ∈ m.stored ↔ m.keys.find? (key.getKeyId H) = some key := by
  unfold stored
  rw [List.mem_map]
  constructor
  · rintro ⟨⟨id, key'⟩, hmem, rfl⟩
    have hfind := OrdMap.mem_entries.mp hmem
    rwa [m.keyed id key' hfind]
  · exact fun hfind => ⟨(key.getKeyId H, key), OrdMap.mem_entries.mpr hfind, rfl⟩

theorem mem_stored_of_find? {m : KeyManager H} {id : Text} {key : Key}
    (h : m.keys.find? id = some key) : key ∈ m.stored :=
  List.mem_map.mpr ⟨(id, key), OrdMap.mem_entries.mpr h, rfl⟩

/-- A key with a new id is added to the stored keys. -/
theorem stored_addKey {m : KeyManager H} {key : Key} (h : m.keys.find? (key.getKeyId H) = none) :
    (m.addKey key).stored.Perm (key :: m.stored) := by
  have hkeys : (m.addKey key).keys = m.keys.insert (key.getKeyId H) key := by
    show m.keys.insertNew (key.getKeyId H) key = _
    rw [OrdMap.insertNew, OrdMap.contains_eq_false.mpr h]
    rfl
  unfold stored
  rw [hkeys]
  exact (OrdMap.entries_insert_perm h key).map Prod.snd

/-- A key with a known id is not. -/
theorem stored_addKey_of_known {m : KeyManager H} {key : Key}
    (h : m.keys.find? (key.getKeyId H) ≠ none) : (m.addKey key).stored = m.stored := by
  have hknown : m.keys.contains (key.getKeyId H) = true :=
    Option.isSome_iff_ne_none.mpr h
  have hkeys : (m.addKey key).keys = m.keys := by
    show m.keys.insertNew (key.getKeyId H) key = _
    rw [OrdMap.insertNew, if_pos hknown]
  unfold stored
  rw [hkeys]

theorem mem_stored_addKey {m : KeyManager H} {key k : Key} (h : k ∈ (m.addKey key).stored) :
    k = key ∨ k ∈ m.stored := by
  by_cases hnew : m.keys.find? (key.getKeyId H) = none
  · exact List.mem_cons.mp ((stored_addKey hnew).mem_iff.mp h)
  · rw [stored_addKey_of_known hnew] at h
    exact .inr h

/-- Removing a key takes it out of the stored keys. -/
theorem stored_dropKey {m : KeyManager H} {id : Text} {key : Key} (owner : NodeID)
    (h : m.keys.find? id = some key) : m.stored.Perm (key :: (m.dropKey id owner).stored) :=
  (OrdMap.entries_erase_perm h).map Prod.snd

theorem id_ne_of_mem_dropKey {m : KeyManager H} {id : Text} {owner : NodeID} {key : Key}
    (h : key ∈ (m.dropKey id owner).stored) : key.getKeyId H ≠ id := by
  intro hid
  have hfind := mem_stored.mp h
  rw [hid] at hfind
  have hgone : (m.keys.erase id).find? id = none := by rw [OrdMap.find?_erase, if_pos rfl]
  exact absurd (hgone.symm.trans hfind) (fun h => nomatch h)

/-! ## The index -/

theorem indexOf_addKey (m : KeyManager H) (key : Key) (owner : NodeID) :
    (m.addKey key).indexOf owner =
      m.indexOf owner ++ if key.owner = owner then [key.getKeyId H] else [] := by
  show ((m.keyIndex.upsert key.owner [] _).find? owner).getD [] = _
  rw [OrdMap.find?_upsert]
  by_cases howner : key.owner = owner
  · subst howner
    simp [indexOf]
  · simp [howner, indexOf]

theorem indexOf_dropKey (m : KeyManager H) (id : Text) (owner o : NodeID) :
    (m.dropKey id owner).indexOf o =
      if owner = o then (m.indexOf o).filter (· ≠ id) else m.indexOf o := by
  show ((m.keyIndex.upsert owner [] _).find? o).getD [] = _
  rw [OrdMap.find?_upsert]
  by_cases howner : owner = o
  · subst howner
    simp [indexOf]
  · simp [howner, indexOf]

/-- The index has the ids of the stored keys of each owner, each once. -/
def Indexed (m : KeyManager H) : Prop :=
  ∀ owner, (m.indexOf owner).Perm ((m.keysOf owner).map (Key.getKeyId H))

theorem indexed_initial : Indexed (initial : KeyManager H) := fun _ => List.Perm.refl []

theorem Indexed.dropKey {m : KeyManager H} (h : m.Indexed) {id : Text} {key : Key}
    (hkey : m.keys.find? id = some key) : (m.dropKey id key.owner).Indexed := by
  intro o
  have hstored := (stored_dropKey key.owner hkey).filter fun k => decide (k.owner = o)
  have ho := h o
  unfold keysOf at ho ⊢
  rw [indexOf_dropKey]
  by_cases howner : key.owner = o
  · rw [if_pos howner]
    rw [List.filter_cons_of_pos (by simpa using howner)] at hstored
    have hids := ho.trans (hstored.map (Key.getKeyId H))
    rw [List.map_cons, m.keyed id key hkey] at hids
    have hrest := hids.filter fun i => decide (i ≠ id)
    rw [List.filter_cons_of_neg (by simp)] at hrest
    -- the ids of the keys that are left are other ids
    have hleft : ∀ i ∈ ((m.dropKey id key.owner).stored.filter fun k => decide (k.owner = o)).map
        (Key.getKeyId H), decide (i ≠ id) = true := by
      intro i hi
      obtain ⟨k, hk, rfl⟩ := List.mem_map.mp hi
      simpa using id_ne_of_mem_dropKey (List.mem_filter.mp hk).1
    rwa [List.filter_eq_self.mpr hleft] at hrest
  · rw [if_neg howner]
    rw [List.filter_cons_of_neg (by simpa using howner)] at hstored
    exact ho.trans (hstored.map (Key.getKeyId H))

/-! ## Adding keys -/

/-- Keys added one after another. -/
def addKeys (m : KeyManager H) (added : List Key) : KeyManager H := added.foldl addKey m

/-- The ids of the keys are not stored and all different. -/
def Fresh (m : KeyManager H) (added : List Key) : Prop :=
  (∀ key ∈ added, m.keys.find? (key.getKeyId H) = none) ∧ (added.map (Key.getKeyId H)).Nodup

theorem find?_addKey_eq_none {m : KeyManager H} {key : Key} {id : Text} :
    (m.addKey key).keys.find? id = none ↔ key.getKeyId H ≠ id ∧ m.keys.find? id = none := by
  show (m.keys.insertNew (key.getKeyId H) key).find? id = none ↔ _
  rw [OrdMap.find?_insertNew]
  by_cases hid : key.getKeyId H = id
  · simp [hid]
  · simp [hid]

theorem fresh_cons {m : KeyManager H} {key : Key} {rest : List Key} :
    m.Fresh (key :: rest) ↔
      m.keys.find? (key.getKeyId H) = none ∧ (m.addKey key).Fresh rest := by
  unfold Fresh
  rw [List.forall_mem_cons, List.map_cons, List.nodup_cons]
  constructor
  · rintro ⟨⟨hkey, hrest⟩, hnew, hnodup⟩
    refine ⟨hkey, fun k hk => find?_addKey_eq_none.mpr ⟨?_, hrest k hk⟩, hnodup⟩
    exact fun hid => hnew (List.mem_map.mpr ⟨k, hk, hid.symm⟩)
  · rintro ⟨hkey, hrest, hnodup⟩
    have hapart := fun k hk => find?_addKey_eq_none.mp (hrest k hk)
    refine ⟨⟨hkey, fun k hk => (hapart k hk).2⟩, ?_, hnodup⟩
    intro hmem
    obtain ⟨k, hk, hid⟩ := List.mem_map.mp hmem
    exact (hapart k hk).1 hid.symm

theorem fresh_nil (m : KeyManager H) : m.Fresh [] := ⟨fun _ h => (nomatch h), List.nodup_nil⟩

theorem stored_addKeys {m : KeyManager H} {added : List Key} (h : m.Fresh added) :
    (m.addKeys added).stored.Perm (added ++ m.stored) := by
  induction added generalizing m with
  | nil => exact List.Perm.refl _
  | cons key rest ih =>
    obtain ⟨hkey, hrest⟩ := fresh_cons.mp h
    have hlast := (ih hrest).trans ((stored_addKey hkey).append_left rest)
    exact hlast.trans List.perm_middle

theorem indexOf_addKeys (m : KeyManager H) (added : List Key) (owner : NodeID) :
    (m.addKeys added).indexOf owner =
      m.indexOf owner ++ (added.filter (·.owner = owner)).map (Key.getKeyId H) := by
  induction added generalizing m with
  | nil => exact (List.append_nil _).symm
  | cons key rest ih =>
    show ((m.addKey key).addKeys rest).indexOf owner = _
    rw [ih, indexOf_addKey, List.append_assoc]
    by_cases howner : key.owner = owner
    · simp [howner]
    · simp [howner]

/-- An owner gets at most the keys added for it. -/
theorem keysOf_addKeys_length_le (m : KeyManager H) (added : List Key) (owner : NodeID) :
    ((m.addKeys added).keysOf owner).length ≤
      (m.keysOf owner).length + (added.filter (·.owner = owner)).length := by
  induction added generalizing m with
  | nil => exact Nat.le_refl _
  | cons key rest ih =>
    have hrest := ih (m.addKey key)
    show (((m.addKey key).addKeys rest).keysOf owner).length ≤ _
    refine hrest.trans ?_
    have hone : ((m.addKey key).keysOf owner).length ≤
        (m.keysOf owner).length + ([key].filter (·.owner = owner)).length := by
      unfold keysOf
      by_cases hnew : m.keys.find? (key.getKeyId H) = none
      · rw [((stored_addKey hnew).filter _).length_eq, Nat.add_comm, ← List.length_append,
          ← List.filter_append]
        exact Nat.le_refl _
      · rw [stored_addKey_of_known hnew]
        exact Nat.le_add_right _ _
    rw [← List.singleton_append, List.filter_append, List.length_append]
    omega

/-- Adding keys keeps the index exact if and only if their ids are new. -/
theorem indexed_addKeys_iff {m : KeyManager H} (h : m.Indexed) (added : List Key) :
    (m.addKeys added).Indexed ↔ m.Fresh added := by
  induction added generalizing m with
  | nil => exact iff_of_true h (fresh_nil m)
  | cons key rest ih =>
    rw [fresh_cons]
    -- a new id is stored once and indexed once
    by_cases hnew : m.keys.find? (key.getKeyId H) = none
    · have hnext : (m.addKey key).Indexed := by
        intro owner
        have hstored := (stored_addKey hnew).filter fun k => decide (k.owner = owner)
        unfold keysOf
        rw [indexOf_addKey]
        refine List.Perm.trans ?_ (hstored.map (Key.getKeyId H)).symm
        by_cases howner : key.owner = owner
        · rw [if_pos howner, List.filter_cons_of_pos (by simpa using howner), List.map_cons]
          exact (List.perm_append_singleton _ _).trans ((h owner).cons _)
        · rw [if_neg howner, List.filter_cons_of_neg (by simpa using howner), List.append_nil]
          exact h owner
      rw [and_iff_right hnew]
      exact ih hnext
    · -- a known id is indexed once more than it is stored
      refine iff_of_false (fun hindexed => ?_) (fun hfresh => hnew hfresh.1)
      have hlength := (hindexed key.owner).length_eq
      have hbefore := (h key.owner).length_eq
      have hstored := keysOf_addKeys_length_le (m.addKey key) rest key.owner
      have hsame : (m.addKey key).keysOf key.owner = m.keysOf key.owner := by
        unfold keysOf
        rw [stored_addKey_of_known hnew]
      have hcons : ((key :: rest).filter (·.owner = key.owner)).length =
          (rest.filter (·.owner = key.owner)).length + 1 := by
        rw [List.filter_cons_of_pos (by simp), List.length_cons]
      rw [indexOf_addKeys, List.length_append, List.length_map, List.length_map] at hlength
      rw [List.length_map] at hbefore
      rw [hsame] at hstored
      have hsplit : (m.addKeys (key :: rest)).keysOf key.owner =
          ((m.addKey key).addKeys rest).keysOf key.owner := rfl
      rw [hsplit] at hlength
      omega

theorem keyCount_addKeys {m : KeyManager H} {added : List Key} (h : m.Fresh added)
    (owner : NodeID) (type : Wire KeyType) :
    (m.addKeys added).keyCount owner type =
      m.keyCount owner type + added.countP fun key => key.owner = owner ∧ key.type = type := by
  unfold keyCount
  rw [(stored_addKeys h).countP_eq, List.countP_append, Nat.add_comm]

end KeyManager

/-! ## Calls -/

namespace KeySystem

/-- The transfer's key is stored and belongs to the sender. -/
def ownsKey (s : KeySystem H) (t : KeyTransfer) : Bool :=
  (s.manager.getKey t.keyId).any fun key => key.owner = t.fromNode

theorem ownsKey_iff {s : KeySystem H} {t : KeyTransfer} :
    s.ownsKey t = true ↔ ∃ key, s.manager.keys.find? t.keyId = some key ∧
      key.owner = t.fromNode := by
  unfold ownsKey KeyManager.getKey
  cases s.manager.keys.find? t.keyId with
  | none => simp
  | some key => simp

/-- A transfer of a key the sender owns replaces that key by a new one of the
recipient; any other transfer changes nothing. -/
theorem executeTransfer_eq (s : KeySystem H) (t : KeyTransfer) :
    s.executeTransfer t =
      if s.ownsKey t then
        ({ manager := ((s.manager.dropKey t.keyId t.fromNode).addKey
             (s.transferredKey t)).recordTransfer t
           keyNonceCounter := s.keyNonceCounter + 1 }, true)
      else (s, false) := by
  unfold executeTransfer ownsKey KeyManager.removeKey KeyManager.getKey
  cases hkey : s.manager.keys.find? t.keyId with
  | none => rfl
  | some key =>
    by_cases howner : key.owner = t.fromNode
    · simp [howner]
    · simp [howner]

/-- The keys the loop of `execute_vouch` creates in `count` rounds. -/
def issuedKeys (v : KeyVouch) (now : UInt64) : Nat → UInt64 → List Key
  | 0, _ => []
  | count + 1, nonce =>
    Key.create v.keyType v.vouchee now (Text.ofString "vouched") nonce ::
      issuedKeys v now count (nonce + 1)

theorem issueKeys_manager (v : KeyVouch) (now : UInt64) (count : Nat) (s : KeySystem H) :
    (issueKeys v now count s).manager =
      s.manager.addKeys (issuedKeys v now count s.keyNonceCounter) := by
  induction count generalizing s with
  | zero => rfl
  | succ count ih =>
    rw [issueKeys, ih]
    rfl

end KeySystem

namespace KeyInput

/-- The manager a call adds keys to: what is left after it removed a key. -/
def base (s : KeySystem H) : KeyInput → KeyManager H
  | .removeKey id => (s.manager.removeKey id).1
  | .executeTransfer t => if s.ownsKey t then s.manager.dropKey t.keyId t.fromNode else s.manager
  | _ => s.manager

/-- The keys a call adds. -/
def adds (s : KeySystem H) : KeyInput → List Key
  | .addKey key => [key]
  | .executeTransfer t => if s.ownsKey t then [s.transferredKey t] else []
  | .executeVouch v now => KeySystem.issuedKeys v now v.keyCount.toNat s.keyNonceCounter
  | _ => []

end KeyInput

/-- A call removes and adds keys, and records transfers and vouches beside them. -/
theorem KeySystem.call_inventory (s : KeySystem H) (input : KeyInput) :
    (s.call input).manager.keys = ((input.base s).addKeys (input.adds s)).keys ∧
      (s.call input).manager.keyIndex = ((input.base s).addKeys (input.adds s)).keyIndex := by
  cases input with
  | addKey key => exact ⟨rfl, rfl⟩
  | removeKey id => exact ⟨rfl, rfl⟩
  | executeTransfer t =>
    have hcall : s.call (.executeTransfer t) = (s.executeTransfer t).1 := rfl
    rw [hcall, s.executeTransfer_eq t]
    by_cases howns : s.ownsKey t = true
    · simp only [KeyInput.base, KeyInput.adds, howns, if_true]
      exact ⟨rfl, rfl⟩
    · simp only [KeyInput.base, KeyInput.adds, howns]
      exact ⟨rfl, rfl⟩
  | createVouch => exact ⟨rfl, rfl⟩
  | executeVouch v now =>
    have hissued := issueKeys_manager v now v.keyCount.toNat s
    refine ⟨?_, ?_⟩
    · show (issueKeys v now v.keyCount.toNat s).manager.keys = _
      rw [hissued]
      rfl
    · show (issueKeys v now v.keyCount.toNat s).manager.keyIndex = _
      rw [hissued]
      rfl

/-- What a call removes keeps the index exact. -/
theorem KeyInput.indexed_base {s : KeySystem H} (h : s.manager.Indexed) (input : KeyInput) :
    (input.base s).Indexed := by
  cases input with
  | addKey key => exact h
  | removeKey id =>
    show (s.manager.removeKey id).1.Indexed
    unfold KeyManager.removeKey
    split
    · exact h
    · rename_i key hkey
      exact h.dropKey hkey
  | executeTransfer t =>
    show (if s.ownsKey t then s.manager.dropKey t.keyId t.fromNode else s.manager).Indexed
    split
    · rename_i howns
      obtain ⟨key, hkey, howner⟩ := KeySystem.ownsKey_iff.mp howns
      rw [← howner]
      exact h.dropKey hkey
    · exact h
  | createVouch => exact h
  | executeVouch v now => exact h

end Cashew
