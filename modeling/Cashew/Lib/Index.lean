import Cashew.Lib.OrdMap

/-!
# Secondary indexes

A store `std::map<I, V>` beside a `std::map<K, std::set<I>>` that lists, for each
key, the ids stored under it. The program edits both by hand; `Index.Exact` says
that they agree, and the two rules below carry it through the edits a program
makes: an entry written together with its id (`Exact.insert`), and an entry erased
together with it (`Exact.erase`).
-/

namespace Cashew.Lib

/-- For each key, a set of ids. -/
abbrev Index (K I : Type) [LT K] := OrdMap K (Finset I)

namespace Index

variable {K I V : Type} [LinearOrder K] [LinearOrder I]

/-- The ids listed under a key. -/
def members (index : Index K I) (k : K) : Finset I := (index.find? k).getD ∅

/-- `index[k].insert(i)`. -/
def add (index : Index K I) (k : K) (i : I) : Index K I := index.upsert k ∅ (insert i)

/-- `auto it = index.find(k); if (it != index.end()) { it->second.erase(i);
if (it->second.empty()) index.erase(it); }`. -/
def remove (index : Index K I) (k : K) (i : I) : Index K I :=
  match index.find? k with
  | none => index
  | some ids => if ids.erase i = ∅ then index.erase k else index.insert k (ids.erase i)

theorem members_add (index : Index K I) (k : K) (i : I) (l : K) :
    (index.add k i).members l = if k = l then insert i (index.members l) else index.members l := by
  unfold members add
  rw [OrdMap.find?_upsert]
  by_cases hk : k = l
  · subst hk
    rw [if_pos rfl, if_pos rfl]
    rfl
  · rw [if_neg hk, if_neg hk]

theorem members_remove (index : Index K I) (k : K) (i : I) (l : K) :
    (index.remove k i).members l =
      if k = l then (index.members l).erase i else index.members l := by
  unfold members remove
  cases hfind : index.find? k with
  | none =>
    by_cases hk : k = l
    · subst hk
      simp [hfind]
    · rw [if_neg hk]
  | some ids =>
    by_cases hk : k = l
    · subst hk
      by_cases hempty : ids.erase i = ∅
      · simp [hempty, OrdMap.find?_erase, hfind]
      · simp [hempty, hfind]
    · by_cases hempty : ids.erase i = ∅
      · simp [hempty, OrdMap.find?_erase, hk]
      · simp [hempty, OrdMap.find?_insert, hk]

/-! ## Indexes that agree with a store -/

/-- The index lists under each key the ids whose stored value has that key, and it
keeps no empty set. -/
structure Exact (index : Index K I) (store : OrdMap I V) (key : V → K) : Prop where
  mem_iff : ∀ k i, i ∈ index.members k ↔ ∃ v, store.find? i = some v ∧ key v = k
  nonempty : ∀ k ids, index.find? k = some ids → ids.Nonempty

namespace Exact

variable {index : Index K I} {store : OrdMap I V} {key : V → K}

theorem empty (key : V → K) : Exact (OrdMap.empty : Index K I) OrdMap.empty key where
  mem_iff k i := iff_of_false (Finset.notMem_empty i) (by rintro ⟨v, hv, _⟩; cases hv)
  nonempty k ids h := by cases h

/-- Writing an entry and its id, where a value that is overwritten has the same key. -/
theorem insert (h : Exact index store key) {i : I} {v : V}
    (hsame : ∀ old, store.find? i = some old → key old = key v) :
    Exact (index.add (key v) i) (store.insert i v) key where
  mem_iff k j := by
    rw [members_add, OrdMap.find?_insert]
    by_cases hj : i = j
    · subst hj
      rw [if_pos rfl]
      by_cases hk : key v = k
      · simp [hk]
      · rw [if_neg hk]
        refine iff_of_false ?_ ?_
        · intro hmem
          obtain ⟨old, hold, hkey⟩ := (h.mem_iff k i).mp hmem
          exact hk ((hsame old hold).symm.trans hkey)
        · rintro ⟨w, hw, hkey⟩
          cases hw
          exact hk hkey
    · rw [if_neg hj, ← h.mem_iff k j]
      split
      · rw [Finset.mem_insert, or_iff_right (Ne.symm hj)]
      · exact Iff.rfl
  nonempty k ids hk := by
    rw [add, OrdMap.find?_upsert] at hk
    split at hk
    · cases hk
      exact Finset.insert_nonempty _ _
    · exact h.nonempty k ids hk

/-- Erasing an entry and its id. -/
theorem erase (h : Exact index store key) {i : I} {v : V} (hv : store.find? i = some v) :
    Exact (index.remove (key v) i) (store.erase i) key where
  mem_iff k j := by
    rw [members_remove, OrdMap.find?_erase]
    by_cases hj : i = j
    · subst hj
      rw [if_pos rfl]
      refine iff_of_false ?_ (by rintro ⟨w, hw, _⟩; cases hw)
      split
      · exact Finset.notMem_erase i _
      · rename_i hk
        intro hmem
        obtain ⟨w, hw, hkey⟩ := (h.mem_iff k i).mp hmem
        cases hv.symm.trans hw
        exact hk hkey
    · rw [if_neg hj, ← h.mem_iff k j]
      split
      · rw [Finset.mem_erase, and_iff_right (Ne.symm hj)]
      · exact Iff.rfl
  nonempty k ids hk := by
    unfold remove at hk
    split at hk
    · exact h.nonempty k ids hk
    · split at hk
      · rw [OrdMap.find?_erase] at hk
        split at hk
        · cases hk
        · exact h.nonempty k ids hk
      · rename_i hleft
        rw [OrdMap.find?_insert] at hk
        split at hk
        · cases hk
          exact Finset.nonempty_iff_ne_empty.mpr hleft
        · exact h.nonempty k ids hk

/-- As many entries have a key as the index lists ids under it. -/
theorem length_filter_eq (h : Exact index store key) (k : K) :
    (store.entries.filter fun e => key e.2 = k).length = (index.members k).card := by
  have hnodup : ((store.entries.filter fun e => key e.2 = k).map Prod.fst).Nodup :=
    store.keys_nodup.sublist (List.filter_sublist.map _)
  have hset : ((store.entries.filter fun e => key e.2 = k).map Prod.fst).toFinset =
      index.members k := by
    ext i
    rw [List.mem_toFinset, h.mem_iff, List.mem_map]
    constructor
    · rintro ⟨⟨j, v⟩, hmem, rfl⟩
      obtain ⟨hentry, hkey⟩ := List.mem_filter.mp hmem
      exact ⟨v, OrdMap.mem_entries.mp hentry, of_decide_eq_true hkey⟩
    · rintro ⟨v, hv, hkey⟩
      exact ⟨(i, v), List.mem_filter.mpr ⟨OrdMap.mem_entries.mpr hv, decide_eq_true hkey⟩, rfl⟩
  rw [← hset, List.toFinset_card_of_nodup hnodup, List.length_map]

end Exact

end Index

end Cashew.Lib
