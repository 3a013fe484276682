import Cashew.Logic.KeyManager

/-!
# The index of the key manager

`keys_` and `key_index_` are maintained side by side. Adding a key whose id is
stored already leaves `keys_` alone and extends the index all the same; from then
on the owner's keys are listed and counted twice. `keyIndex_consistent_iff` has
the exact condition under which the two agree all along a run.
-/

namespace Cashew.Theorems.KeyIndex

open Cashew Cashew.Lib KeyManager

variable {H : Bytes → Hash256}

/-- `count_keys` counts and `get_keys_by_owner` lists what is stored, and every
id of the index is stored. -/
def Consistent (m : KeyManager H) : Prop :=
  (∀ owner type, (m.countKeys owner type).toNat = m.keyCount owner type) ∧
  (∀ owner, (m.getKeysByOwner owner).Perm (m.keysOf owner)) ∧
  ∀ owner, ∀ id ∈ m.indexOf owner, m.keys.find? id ≠ none

/-- The keys a call adds have new ids, and the count of their owner and type
stays below `2 ^ 32`. -/
def AddsNewIds (s : KeySystem H) (input : KeyInput) : Prop :=
  (input.base s).Fresh (input.adds s) ∧
    ∀ key ∈ input.adds s, (input.base s).keyCount key.owner key.type +
      (input.adds s).countP (fun k => k.owner = key.owner ∧ k.type = key.type) < 2 ^ 32

/-! ## Counting through the index -/

/-- `count_keys` counts, in 32 bits, the keys of a type that `get_keys_by_owner`
lists. -/
theorem countKeys_toNat (m : KeyManager H) (owner : NodeID) (type : Wire KeyType) :
    (m.countKeys owner type).toNat =
      (m.getKeysByOwner owner).countP (fun key => key.type = type) % 2 ^ 32 := by
  have hfold : ∀ (ids : List Text) (start : UInt32),
      (ids.foldl (fun count id =>
        if (m.keys.find? id).any (·.type = type) then count + 1 else count) start).toNat =
        (start.toNat + (ids.filterMap m.keys.find?).countP fun key => key.type = type) %
          2 ^ 32 := by
    intro ids
    induction ids with
    | nil => exact fun start => (Nat.mod_eq_of_lt start.toNat_lt).symm
    | cons id rest ih =>
      intro start
      rw [List.foldl_cons, ih]
      cases hkey : m.keys.find? id with
      | none => simp [hkey]
      | some key =>
        by_cases htype : key.type = type
        · have hone : (1 : UInt32).toNat = 1 := rfl
          rw [List.filterMap_cons_some hkey, List.countP_cons_of_pos (by simpa using htype)]
          simp only [Option.any_some, htype, decide_true, if_true, UInt32.toNat_add, hone]
          omega
        · simp [hkey, htype]
  have hcount := hfold (m.indexOf owner) 0
  rwa [UInt32.toNat_zero, Nat.zero_add] at hcount

theorem keyCount_eq (m : KeyManager H) (owner : NodeID) (type : Wire KeyType) :
    m.keyCount owner type = (m.keysOf owner).countP fun key => key.type = type := by
  unfold KeyManager.keyCount KeyManager.keysOf
  rw [List.countP_filter]
  refine List.countP_congr fun key _ => ?_
  simp [and_comm]

/-- Every stored key is found under its id. -/
theorem filterMap_ids (m : KeyManager H) (owner : NodeID) :
    ((m.keysOf owner).map (Key.getKeyId H)).filterMap m.keys.find? = m.keysOf owner := by
  rw [List.filterMap_map]
  refine (List.filterMap_congr fun key hkey => ?_).trans List.filterMap_some
  exact mem_stored.mp (List.mem_filter.mp hkey).1

/-- Ids that are all stored are the ids of what lookups find. -/
theorem map_filterMap {m : KeyManager H} {ids : List Text}
    (h : ∀ id ∈ ids, m.keys.find? id ≠ none) :
    (ids.filterMap m.keys.find?).map (Key.getKeyId H) = ids := by
  induction ids with
  | nil => rfl
  | cons id rest ih =>
    obtain ⟨hid, hrest⟩ := List.forall_mem_cons.mp h
    obtain ⟨key, hkey⟩ := Option.ne_none_iff_exists'.mp hid
    rw [List.filterMap_cons_some hkey, List.map_cons, m.keyed id key hkey, ih hrest]

/-- The two agree exactly when the index is exact and no count outgrows 32 bits. -/
theorem consistent_iff {m : KeyManager H} :
    Consistent m ↔ m.Indexed ∧ ∀ owner type, m.keyCount owner type < 2 ^ 32 := by
  constructor
  · rintro ⟨hcount, hlist, hfound⟩
    refine ⟨fun owner => ?_, fun owner type => ?_⟩
    · have hids := (hlist owner).map (Key.getKeyId H)
      unfold KeyManager.getKeysByOwner at hids
      rwa [map_filterMap (hfound owner)] at hids
    · rw [← hcount owner type]
      exact UInt32.toNat_lt _
  · rintro ⟨hindexed, hsmall⟩
    have hlist : ∀ owner, (m.getKeysByOwner owner).Perm (m.keysOf owner) := by
      intro owner
      have hfound := (hindexed owner).filterMap m.keys.find?
      rwa [filterMap_ids] at hfound
    refine ⟨fun owner type => ?_, hlist, fun owner id hid => ?_⟩
    · rw [countKeys_toNat, (hlist owner).countP_eq, ← keyCount_eq,
        Nat.mod_eq_of_lt (hsmall owner type)]
    · obtain ⟨key, hkey, rfl⟩ := List.mem_map.mp ((hindexed owner).mem_iff.mp hid)
      rw [mem_stored.mp (List.mem_filter.mp hkey).1]
      exact Option.some_ne_none key

/-! ## Runs -/

theorem consistent_congr {m m' : KeyManager H} (hkeys : m.keys = m'.keys)
    (hindex : m.keyIndex = m'.keyIndex) : Consistent m ↔ Consistent m' := by
  unfold Consistent KeyManager.countKeys KeyManager.getKeysByOwner KeyManager.keyCount
    KeyManager.keysOf KeyManager.stored KeyManager.indexOf
  rw [hkeys, hindex]

/-- Removing a key raises no count. -/
theorem keyCount_base_le (s : KeySystem H) (input : KeyInput) (owner : NodeID)
    (type : Wire KeyType) :
    (input.base s).keyCount owner type ≤ s.manager.keyCount owner type := by
  have hdrop : ∀ (id : Text) (key : Key) (o : NodeID), s.manager.keys.find? id = some key →
      (s.manager.dropKey id o).keyCount owner type ≤ s.manager.keyCount owner type := by
    intro id key o hkey
    unfold KeyManager.keyCount
    rw [(stored_dropKey o hkey).countP_eq, List.countP_cons]
    exact Nat.le_add_right _ _
  cases input with
  | addKey key => exact Nat.le_refl _
  | removeKey id =>
    show (s.manager.removeKey id).1.keyCount owner type ≤ _
    unfold KeyManager.removeKey
    split
    · exact Nat.le_refl _
    · rename_i key hkey
      exact hdrop id key key.owner hkey
  | executeTransfer t =>
    show (if s.ownsKey t then s.manager.dropKey t.keyId t.fromNode
      else s.manager).keyCount owner type ≤ _
    split
    · rename_i howns
      obtain ⟨key, hkey, _⟩ := KeySystem.ownsKey_iff.mp howns
      exact hdrop t.keyId key t.fromNode hkey
    · exact Nat.le_refl _
  | createVouch => exact Nat.le_refl _
  | executeVouch v now => exact Nat.le_refl _

/-- One call keeps the two in agreement exactly when it adds new ids. -/
theorem step_consistent_iff {s : KeySystem H} (h : Consistent s.manager) (input : KeyInput) :
    Consistent (s.call input).manager ↔ AddsNewIds s input := by
  obtain ⟨hindexed, hsmall⟩ := consistent_iff.mp h
  obtain ⟨hkeys, hindex⟩ := s.call_inventory input
  rw [consistent_congr hkeys hindex, consistent_iff,
    indexed_addKeys_iff (input.indexed_base hindexed)]
  refine and_congr_right fun hfresh => ?_
  simp only [keyCount_addKeys hfresh]
  constructor
  · exact fun hall key _ => hall key.owner key.type
  · intro hadded owner type
    by_cases hnone : (input.adds s).countP (fun k => k.owner = owner ∧ k.type = type) = 0
    · rw [hnone, Nat.add_zero]
      exact Nat.lt_of_le_of_lt (keyCount_base_le s input owner type) (hsmall owner type)
    · obtain ⟨key, hkey, hmatch⟩ := List.countP_pos_iff.mp (Nat.pos_of_ne_zero hnone)
      obtain ⟨rfl, rfl⟩ := of_decide_eq_true hmatch
      exact hadded key hkey

/-- **The index.** In a run from a new manager `count_keys`, `get_keys_by_owner`
and the index agree with the stored keys in every state exactly when every key
that is added, by `add_key`, a transfer or a vouch, has an id that is not stored
and no owner gets `2 ^ 32` keys of one type. -/
theorem keyIndex_consistent_iff (ed : Ed25519) (counter : UInt64) (inputs : List KeyInput) :
    (keyMachine ed).Always (fun s : KeySystem H => Consistent s.manager) ⟨.initial, counter⟩
        inputs ↔
      (keyMachine ed).StepsMeet AddsNewIds (⟨.initial, counter⟩ : KeySystem H) inputs := by
  have hstart : Consistent (KeyManager.initial : KeyManager H) :=
    consistent_iff.mpr ⟨indexed_initial, fun _ _ => Nat.two_pow_pos 32⟩
  exact (keyMachine ed).always_iff (P := fun _ => True) (Q := fun s => Consistent s.manager)
    (fun _ _ _ => trivial) (fun s input _ hs => step_consistent_iff hs input) trivial hstart inputs

/-- A node key of node 1. -/
def nodeKey : Key :=
  Key.create (.listed .node) (sampleNode 1) 1200 (Text.ofString "pow") 1

/-- Adding a key twice makes `count_keys` count it twice. -/
theorem added_twice_counted_twice :
    ¬ (keyMachine sampleEd25519).Always
      (fun s : KeySystem sampleHash => Consistent s.manager) ⟨.initial, 2⟩
      [.addKey nodeKey, .addKey nodeKey] := by
  intro h
  have hcount := h.2.2.1 (sampleNode 1) (.listed .node)
  exact absurd hcount (by decide +kernel)

end Cashew.Theorems.KeyIndex
