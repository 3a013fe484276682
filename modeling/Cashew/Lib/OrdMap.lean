import Mathlib

/-!
# Ordered maps

`std::map<K, V>` as a strictly key-sorted association list. The order is part
of the structure, so two maps with the same lookups are equal (`OrdMap.ext`)
and iteration visits the keys in ascending order, as `std::map` does.

Lookups through updates are the whole interface: a proof about a program that
uses a map rewrites with `find?_insert`, `find?_erase` and `find?_upsert` and
never unfolds the representation.
-/

namespace Cashew.Lib

/-- The linear order of a type by an injective numeric key. It keeps the type's
own decidable equality, so keys of maps and members of sets compare alike. -/
abbrev orderBy {α : Type} [DecidableEq α] (key : α → Nat)
    (hkey : Function.Injective key) : LinearOrder α where
  le a b := key a ≤ key b
  lt a b := key a < key b
  le_refl a := le_refl (key a)
  le_trans a b c := le_trans (α := Nat)
  le_antisymm a b hab hba := hkey (le_antisymm hab hba)
  le_total a b := le_total (key a) (key b)
  lt_iff_le_not_ge a b := lt_iff_le_not_ge (a := key a) (b := key b)
  toDecidableLE a b := inferInstanceAs (Decidable (key a ≤ key b))
  toDecidableLT a b := inferInstanceAs (Decidable (key a < key b))
  toDecidableEq := inferInstance

/-- A finite map with its entries in ascending key order. -/
structure OrdMap (K V : Type) [LT K] where
  entries : List (K × V)
  sorted : entries.Pairwise fun a b => a.1 < b.1

namespace OrdMap

variable {K V : Type} [LinearOrder K]

instance [DecidableEq V] : DecidableEq (OrdMap K V) := fun a b =>
  decidable_of_iff (a.entries = b.entries) (by cases a; cases b; simp)

/-! ## Association lists -/

/-- First entry under `k`. -/
def lookup (k : K) : List (K × V) → Option V
  | [] => none
  | (k', v) :: rest => if k' = k then some v else lookup k rest

/-- Insert or overwrite in a sorted list. -/
def insertList (k : K) (v : V) : List (K × V) → List (K × V)
  | [] => [(k, v)]
  | (k', v') :: rest =>
    if k < k' then (k, v) :: (k', v') :: rest
    else if k' = k then (k, v) :: rest
    else (k', v') :: insertList k v rest

/-- A key behind all others is inserted at the end. -/
theorem insertList_of_forall_lt {k : K} {v : V} {l : List (K × V)} (h : ∀ a ∈ l, a.1 < k) :
    insertList k v l = l ++ [(k, v)] := by
  induction l with
  | nil => rfl
  | cons a rest ih =>
    have ha := h a List.mem_cons_self
    rw [insertList, if_neg (not_lt_of_gt ha), if_neg ha.ne,
      ih fun b hb => h b (List.mem_cons_of_mem a hb), List.cons_append]

private theorem mem_insertList {k : K} {v : V} {a : K × V} :
    ∀ {l : List (K × V)}, a ∈ insertList k v l → a = (k, v) ∨ a ∈ l
  | [], h => by simpa [insertList] using h
  | (k', v') :: rest, h => by
    unfold insertList at h
    split at h
    · exact List.mem_cons.mp h
    · split at h
      · rcases List.mem_cons.mp h with h | h
        · exact .inl h
        · exact .inr (List.mem_cons_of_mem _ h)
      · rcases List.mem_cons.mp h with h | h
        · exact .inr (h ▸ List.mem_cons_self)
        · rcases mem_insertList h with h | h
          · exact .inl h
          · exact .inr (List.mem_cons_of_mem _ h)

private theorem insertList_sorted {k : K} {v : V} :
    ∀ {l : List (K × V)}, (l.Pairwise fun a b => a.1 < b.1) →
      (insertList k v l).Pairwise fun a b => a.1 < b.1
  | [], _ => by simp [insertList]
  | (k', v') :: rest, h => by
    rw [List.pairwise_cons] at h
    obtain ⟨hhead, hrest⟩ := h
    unfold insertList
    split
    · rename_i hlt
      refine List.pairwise_cons.mpr ⟨?_, List.pairwise_cons.mpr ⟨hhead, hrest⟩⟩
      intro a ha
      rcases List.mem_cons.mp ha with ha | ha
      · exact ha ▸ hlt
      · exact lt_trans hlt (hhead a ha)
    · rename_i hnlt
      split
      · rename_i heq
        exact List.pairwise_cons.mpr ⟨heq ▸ hhead, hrest⟩
      · rename_i hne
        refine List.pairwise_cons.mpr ⟨?_, insertList_sorted hrest⟩
        intro a ha
        rcases mem_insertList ha with ha | ha
        · rw [ha]
          exact lt_of_le_of_ne (not_lt.mp hnlt) hne
        · exact hhead a ha

private theorem lookup_insertList (k : K) (v : V) (j : K) :
    ∀ l : List (K × V), lookup j (insertList k v l) = if k = j then some v else lookup j l
  | [] => rfl
  | (k', v') :: rest => by
    unfold insertList
    split
    · rfl
    · split
      · rename_i heq
        subst heq
        by_cases hj : k' = j <;> simp [lookup, hj]
      · rename_i hne
        have ih := lookup_insertList k v j rest
        by_cases hj : k' = j
        · have hk : k ≠ j := fun h => hne (hj.trans h.symm)
          simp [lookup, hj, hk]
        · simp [lookup, hj, ih]

private theorem lookup_none_of_lt {k : K} :
    ∀ {l : List (K × V)}, (∀ a ∈ l, k < a.1) → lookup k l = none
  | [], _ => rfl
  | (k', v') :: rest, h => by
    have hne : k' ≠ k := ne_of_gt (h (k', v') List.mem_cons_self)
    rw [lookup, if_neg hne]
    exact lookup_none_of_lt fun a ha => h a (List.mem_cons_of_mem _ ha)

/-- In a sorted list a key below the first one is missing. -/
private theorem lookup_none_of_lt_head {k k' : K} {v' : V} {rest : List (K × V)} (hlt : k < k')
    (hhead : ∀ a ∈ rest, k' < a.1) : lookup k ((k', v') :: rest) = none := by
  apply lookup_none_of_lt
  intro a ha
  rcases List.mem_cons.mp ha with ha | ha
  · rw [ha]
    exact hlt
  · exact lt_trans hlt (hhead a ha)

private theorem lookup_filter_ne (k j : K) :
    ∀ l : List (K × V),
      lookup j (l.filter fun e => e.1 ≠ k) = if k = j then none else lookup j l
  | [] => by simp [lookup]
  | (k', v') :: rest => by
    have ih := lookup_filter_ne k j rest
    by_cases hk : k' = k
    · subst hk
      by_cases hj : k' = j <;> simp_all [lookup]
    · by_cases hj : k' = j
      · have hkj : k ≠ j := fun h => hk (hj.trans h.symm)
        simp [lookup, hj, hkj, Ne.symm hkj]
      · simp_all [lookup]

private theorem eq_of_lookup_eq :
    ∀ {l₁ l₂ : List (K × V)}, (l₁.Pairwise fun a b => a.1 < b.1) →
      (l₂.Pairwise fun a b => a.1 < b.1) → (∀ k, lookup k l₁ = lookup k l₂) → l₁ = l₂
  | [], [], _, _, _ => rfl
  | [], (k, v) :: rest, _, _, h => by
    have := h k
    simp [lookup] at this
  | (k, v) :: rest, [], _, _, h => by
    have := h k
    simp [lookup] at this
  | (k₁, v₁) :: r₁, (k₂, v₂) :: r₂, h₁, h₂, h => by
    rw [List.pairwise_cons] at h₁ h₂
    -- the smaller head key would be missing on the other side
    have hkey : k₁ = k₂ := by
      rcases lt_trichotomy k₁ k₂ with hlt | heq | hgt
      · have hfound := h k₁
        rw [lookup_none_of_lt_head hlt h₂.1] at hfound
        simp [lookup] at hfound
      · exact heq
      · have hfound := h k₂
        rw [lookup_none_of_lt_head hgt h₁.1] at hfound
        simp [lookup] at hfound
    subst hkey
    have hval : v₁ = v₂ := by
      have := h k₁
      simpa [lookup] using this
    subst hval
    have hrest : r₁ = r₂ := eq_of_lookup_eq h₁.2 h₂.2 fun k => by
      by_cases hk : k₁ = k
      · subst hk
        rw [lookup_none_of_lt h₁.1, lookup_none_of_lt h₂.1]
      · have := h k
        simpa [lookup, hk] using this
    rw [hrest]

/-! ## The map interface -/

/-- The empty map. -/
def empty : OrdMap K V := ⟨[], List.Pairwise.nil⟩

/-- `m.find(k)`. -/
def find? (m : OrdMap K V) (k : K) : Option V := lookup k m.entries

/-- `m.find(k) != m.end()`. -/
def contains (m : OrdMap K V) (k : K) : Bool := (m.find? k).isSome

/-- `m[k] = v`. -/
def insert (m : OrdMap K V) (k : K) (v : V) : OrdMap K V :=
  ⟨insertList k v m.entries, insertList_sorted m.sorted⟩

/-- `m.insert({k, v})`: an entry that is there stays. -/
def insertNew (m : OrdMap K V) (k : K) (v : V) : OrdMap K V :=
  if m.contains k then m else m.insert k v

/-- `m.erase(k)`. -/
def erase (m : OrdMap K V) (k : K) : OrdMap K V :=
  ⟨m.entries.filter fun e => e.1 ≠ k, m.sorted.filter _⟩

/-- `auto& x = m[k]; x = f(x)`: `operator[]` default-constructs a missing
value. -/
def upsert (m : OrdMap K V) (k : K) (init : V) (f : V → V) : OrdMap K V :=
  m.insert k (f ((m.find? k).getD init))

/-- `auto it = m.find(k); if (it != m.end()) it->second = f(it->second)`. -/
def modify (m : OrdMap K V) (k : K) (f : V → V) : OrdMap K V :=
  match m.find? k with
  | some v => m.insert k (f v)
  | none => m

/-- Erase the entries that fail a test, as a loop that collects their keys does. -/
def filter (m : OrdMap K V) (keep : K → V → Bool) : OrdMap K V :=
  ⟨m.entries.filter fun e => keep e.1 e.2, m.sorted.filter _⟩

/-- `for (auto& [k, v] : m) v = f(k, v)`. -/
def mapValues (m : OrdMap K V) (f : K → V → V) : OrdMap K V :=
  ⟨m.entries.map fun e => (e.1, f e.1 e.2), List.pairwise_map.mpr m.sorted⟩

/-- Maps are determined by their lookups. -/
theorem ext {m₁ m₂ : OrdMap K V} (h : ∀ k, m₁.find? k = m₂.find? k) : m₁ = m₂ := by
  cases m₁ with
  | mk l₁ h₁ =>
    cases m₂ with
    | mk l₂ h₂ =>
      have : l₁ = l₂ := eq_of_lookup_eq h₁ h₂ h
      subst this
      rfl

@[simp] theorem find?_empty (k : K) : (empty : OrdMap K V).find? k = none := rfl

theorem find?_insert (m : OrdMap K V) (k : K) (v : V) (j : K) :
    (m.insert k v).find? j = if k = j then some v else m.find? j :=
  lookup_insertList k v j m.entries

@[simp] theorem find?_insert_self (m : OrdMap K V) (k : K) (v : V) :
    (m.insert k v).find? k = some v := by rw [find?_insert, if_pos rfl]

theorem find?_upsert (m : OrdMap K V) (k : K) (init : V) (f : V → V) (j : K) :
    (m.upsert k init f).find? j =
      if k = j then some (f ((m.find? k).getD init)) else m.find? j :=
  find?_insert m k _ j

theorem find?_modify (m : OrdMap K V) (k : K) (f : V → V) (j : K) :
    (m.modify k f).find? j = if k = j then (m.find? k).map f else m.find? j := by
  unfold modify
  cases hk : m.find? k with
  | none =>
    by_cases hkj : k = j
    · subst hkj
      simp [hk]
    · simp [hkj]
  | some v => simp [find?_insert]

theorem find?_mapValues (m : OrdMap K V) (f : K → V → V) (j : K) :
    (m.mapValues f).find? j = (m.find? j).map (f j) := by
  have hlists : ∀ l : List (K × V),
      lookup j (l.map fun e => (e.1, f e.1 e.2)) = (lookup j l).map (f j) := by
    intro l
    induction l with
    | nil => rfl
    | cons e rest ih =>
      by_cases hj : e.1 = j
      · subst hj
        simp [lookup]
      · simp [lookup, hj, ih]
  exact hlists m.entries

/-- One field of the values of a map, as a function of the key. -/
def view {W : Type} (g : V → W) (m : OrdMap K V) (k : K) : Option W := (m.find? k).map g

section View

variable {W : Type} (g : V → W) (m : OrdMap K V) (k : K)

theorem view_insert (v : V) :
    (m.insert k v).view g = Function.update (m.view g) k (some (g v)) := by
  funext j
  by_cases hj : j = k
  · subst hj
    simp [view]
  · simp [view, find?_insert, Ne.symm hj, hj]

variable {g} {f : V → V} {h : W → W} (hfield : ∀ v, g (f v) = h (g v))
include hfield

theorem view_upsert (init : V) :
    (m.upsert k init f).view g =
      Function.update (m.view g) k (some (h ((m.view g k).getD (g init)))) := by
  unfold upsert
  rw [view_insert, hfield]
  cases hk : m.find? k <;> simp [view, hk]

theorem view_modify :
    (m.modify k f).view g = Function.update (m.view g) k ((m.view g k).map h) := by
  funext j
  by_cases hj : j = k
  · subst hj
    simp [view, find?_modify, Function.comp_def, hfield]
  · simp [view, find?_modify, Ne.symm hj, hj]

end View

/-- A change that leaves a field alone does not show there. -/
theorem view_modify_of_same {W : Type} {g : V → W} (m : OrdMap K V) (k : K) {f : V → V}
    (hfield : ∀ v, g (f v) = g v) : (m.modify k f).view g = m.view g := by
  rw [view_modify m k (h := id) hfield, Option.map_id]
  exact Function.update_eq_self k _

theorem view_mapValues_of_same {W : Type} {g : V → W} (m : OrdMap K V) {f : K → V → V}
    (hfield : ∀ k v, g (f k v) = g v) : (m.mapValues f).view g = m.view g := by
  funext k
  simp [view, find?_mapValues, Function.comp_def, hfield]

theorem contains_eq_false {m : OrdMap K V} {k : K} :
    m.contains k = false ↔ m.find? k = none := by
  unfold contains
  cases m.find? k <;> simp

private theorem mem_iff_lookup (k : K) (v : V) :
    ∀ {l : List (K × V)}, (l.Pairwise fun a b => a.1 < b.1) →
      ((k, v) ∈ l ↔ lookup k l = some v)
  | [], _ => by simp [lookup]
  | (k', v') :: rest, h => by
    rw [List.pairwise_cons] at h
    have ih := mem_iff_lookup k v h.2
    by_cases hk : k' = k
    · subst hk
      -- a second entry under the head key would have to be larger than it
      have hrest : (k', v) ∉ rest := fun hmem => lt_irrefl k' (h.1 (k', v) hmem)
      simp [lookup, hrest, eq_comm]
    · simp [lookup, hk, ih, Ne.symm hk]

/-- Iteration visits exactly the pairs lookups find. -/
theorem mem_entries {m : OrdMap K V} {k : K} {v : V} :
    (k, v) ∈ m.entries ↔ m.find? k = some v :=
  mem_iff_lookup k v m.sorted

private theorem flatMap_eq_lookup {β : Type} {k : K} {f : K × V → List β} :
    ∀ {l : List (K × V)}, (l.Pairwise fun a b => a.1 < b.1) → (∀ a ∈ l, a.1 ≠ k → f a = []) →
      l.flatMap f = (lookup k l).elim [] fun v => f (k, v)
  | [], _, _ => rfl
  | (k', v') :: rest, hsorted, h => by
    rw [List.pairwise_cons] at hsorted
    by_cases hk : k' = k
    · subst hk
      have hrest : rest.flatMap f = [] := List.flatMap_eq_nil_iff.mpr fun a ha =>
        h a (List.mem_cons_of_mem _ ha) (hsorted.1 a ha).ne'
      simp [lookup, hrest]
    · have ih := flatMap_eq_lookup hsorted.2 fun a ha => h a (List.mem_cons_of_mem _ ha)
      simp [lookup, hk, ih, h (k', v') List.mem_cons_self hk]

/-- What a loop over all entries finds, if it finds something under one key only. -/
theorem flatMap_entries {β : Type} {m : OrdMap K V} {k : K} {f : K × V → List β}
    (h : ∀ j v, m.find? j = some v → j ≠ k → f (j, v) = []) :
    m.entries.flatMap f = (m.find? k).elim [] fun v => f (k, v) :=
  flatMap_eq_lookup m.sorted fun a ha => h a.1 a.2 (mem_entries.mp ha)

theorem find?_erase (m : OrdMap K V) (k j : K) :
    (m.erase k).find? j = if k = j then none else m.find? j :=
  lookup_filter_ne k j m.entries

/-- Erasing a list of keys leaves the others. -/
theorem find?_foldl_erase (keys : List K) (m : OrdMap K V) (j : K) :
    (keys.foldl erase m).find? j = if j ∈ keys then none else m.find? j := by
  induction keys generalizing m with
  | nil => rfl
  | cons k rest ih =>
    rw [List.foldl_cons, ih, find?_erase]
    by_cases hk : k = j
    · simp [hk]
    · simp [hk, Ne.symm hk]

/-- Writing a list of entries leaves the other keys alone. -/
theorem find?_foldl_insert_of_not_mem {α : Type} (key : α → K) (value : α → V) {j : K}
    (items : List α) (m : OrdMap K V) (h : ∀ a ∈ items, key a ≠ j) :
    (items.foldl (fun m a => m.insert (key a) (value a)) m).find? j = m.find? j := by
  induction items generalizing m with
  | nil => rfl
  | cons a rest ih =>
    obtain ⟨ha, hrest⟩ := List.forall_mem_cons.mp h
    rw [List.foldl_cons, ih _ hrest, find?_insert, if_neg ha]

/-- Under different keys every written entry is there. -/
theorem find?_foldl_insert_of_mem {α : Type} (key : α → K) (value : α → V) {a : α}
    {items : List α} (hnodup : (items.map key).Nodup) (ha : a ∈ items) (m : OrdMap K V) :
    (items.foldl (fun m a => m.insert (key a) (value a)) m).find? (key a) = some (value a) := by
  induction items generalizing m with
  | nil => cases ha
  | cons b rest ih =>
    obtain ⟨hb, hrest⟩ := List.nodup_cons.mp hnodup
    rw [List.foldl_cons]
    rcases List.mem_cons.mp ha with rfl | ha
    · rw [find?_foldl_insert_of_not_mem]
      · exact find?_insert_self _ _ _
      · exact fun c hc heq => hb (List.mem_map.mpr ⟨c, hc, heq⟩)
    · exact ih hrest ha _

/-- What is found after writing entries was written or was there. -/
theorem find?_foldl_insert_cases {α : Type} {key : α → K} {value : α → V} {items : List α}
    {m : OrdMap K V} {j : K} {v : V}
    (h : (items.foldl (fun m a => m.insert (key a) (value a)) m).find? j = some v) :
    (∃ a ∈ items, key a = j ∧ value a = v) ∨ m.find? j = some v := by
  induction items generalizing m with
  | nil => exact .inr h
  | cons a rest ih =>
    rcases ih h with ⟨b, hb, hwritten⟩ | hfound
    · exact .inl ⟨b, List.mem_cons_of_mem a hb, hwritten⟩
    · rw [find?_insert] at hfound
      split at hfound
      · rename_i hkey
        exact .inl ⟨a, List.mem_cons_self, hkey, Option.some.inj hfound⟩
      · exact .inr hfound

/-- Writing entries leaves an entry under each of their keys. -/
theorem contains_foldl_insert {α : Type} (key : α → K) (value : α → V) (items : List α)
    (m : OrdMap K V) (j : K) :
    (items.foldl (fun m a => m.insert (key a) (value a)) m).contains j = true ↔
      (∃ a ∈ items, key a = j) ∨ m.contains j = true := by
  induction items generalizing m with
  | nil => simp
  | cons a rest ih =>
    rw [List.foldl_cons, ih]
    simp only [contains, find?_insert, List.exists_mem_cons_iff]
    by_cases hkey : key a = j
    · simp [hkey]
    · simp [hkey]

/-- No key occurs twice. -/
theorem keys_nodup (m : OrdMap K V) : (m.entries.map Prod.fst).Nodup :=
  List.pairwise_map.mpr (m.sorted.imp ne_of_lt)

theorem entries_nodup (m : OrdMap K V) : m.entries.Nodup := m.keys_nodup.of_map _

/-- A new key adds one entry to what iteration visits. -/
theorem entries_insert_perm {m : OrdMap K V} {k : K} (h : m.find? k = none) (v : V) :
    (m.insert k v).entries.Perm ((k, v) :: m.entries) := by
  have hnew : (k, v) ∉ m.entries := by
    intro hmem
    rw [mem_entries, h] at hmem
    cases hmem
  rw [List.perm_ext_iff_of_nodup (entries_nodup _) (List.nodup_cons.mpr ⟨hnew, m.entries_nodup⟩)]
  rintro ⟨j, w⟩
  rw [mem_entries, find?_insert, List.mem_cons, mem_entries]
  by_cases hj : k = j
  · subst hj
    simp [h, eq_comm]
  · simp [hj, Ne.symm hj]

/-- Erasing a key takes its entry out of what iteration visits. -/
theorem entries_erase_perm {m : OrdMap K V} {k : K} {v : V} (h : m.find? k = some v) :
    m.entries.Perm ((k, v) :: (m.erase k).entries) := by
  have hgone : (k, v) ∉ (m.erase k).entries := by
    rw [mem_entries, find?_erase, if_pos rfl]
    exact fun hmem => nomatch hmem
  rw [List.perm_ext_iff_of_nodup m.entries_nodup
    (List.nodup_cons.mpr ⟨hgone, entries_nodup _⟩)]
  rintro ⟨j, w⟩
  rw [mem_entries, List.mem_cons, mem_entries, find?_erase]
  by_cases hj : k = j
  · subst hj
    simp [h, eq_comm]
  · simp [hj, Ne.symm hj]

theorem find?_insertNew (m : OrdMap K V) (k : K) (v : V) (j : K) :
    (m.insertNew k v).find? j = if k = j then some ((m.find? k).getD v) else m.find? j := by
  unfold insertNew contains
  cases hk : m.find? k with
  | none => simp [find?_insert]
  | some w =>
    by_cases hj : k = j
    · subst hj
      simp [hk]
    · simp [hj]

theorem find?_filter (m : OrdMap K V) (keep : K → V → Bool) (j : K) :
    (m.filter keep).find? j = (m.find? j).filter (keep j) := by
  refine Option.ext fun v => ?_
  rw [Option.filter_eq_some_iff, ← mem_entries, ← mem_entries]
  simp [OrdMap.filter]

theorem view_filter {W : Type} (g : V → W) (m : OrdMap K V) (keep : K → V → Bool) :
    (m.filter keep).view g =
      fun k => if (m.find? k).any (fun v => !keep k v) then none else m.view g k := by
  funext k
  unfold view
  rw [find?_filter]
  cases hfind : m.find? k with
  | none => simp
  | some v => cases hkeep : keep k v <;> simp [hkeep]

/-! ## Properties of all values -/

/-- Every value of the map satisfies `P`. -/
def AllValues (P : V → Prop) (m : OrdMap K V) : Prop := ∀ k v, m.find? k = some v → P v

instance {P : V → Prop} [DecidablePred P] (m : OrdMap K V) : Decidable (AllValues P m) :=
  decidable_of_iff (∀ e ∈ m.entries, P e.2)
    ⟨fun h k v hv => h (k, v) (mem_entries.mpr hv), fun h e he => h e.1 e.2 (mem_entries.mp he)⟩

namespace AllValues

variable {P : V → Prop} {m : OrdMap K V}

theorem insert (h : AllValues P m) (k : K) {v : V} (hv : P v) : AllValues P (m.insert k v) := by
  intro j w hw
  rw [find?_insert] at hw
  split at hw
  · cases hw
    exact hv
  · exact h j w hw

theorem upsert (h : AllValues P m) (k : K) {init : V} {f : V → V} (hinit : P init)
    (hf : ∀ v, P v → P (f v)) : AllValues P (m.upsert k init f) := by
  refine h.insert k (hf _ ?_)
  cases hk : m.find? k with
  | none => exact hinit
  | some v => exact h k v hk

theorem modify (h : AllValues P m) (k : K) {f : V → V} (hf : ∀ v, P v → P (f v)) :
    AllValues P (m.modify k f) := by
  unfold OrdMap.modify
  split
  · rename_i v hk
    exact h.insert k (hf v (h k v hk))
  · exact h

theorem erase (h : AllValues P m) (k : K) : AllValues P (m.erase k) := by
  intro j v hv
  rw [find?_erase] at hv
  split at hv
  · cases hv
  · exact h j v hv

theorem mapValues (h : AllValues P m) {f : K → V → V} (hf : ∀ k v, P v → P (f k v)) :
    AllValues P (m.mapValues f) := by
  intro k w hw
  rw [find?_mapValues] at hw
  obtain ⟨v, hv, rfl⟩ := Option.map_eq_some_iff.mp hw
  exact hf k v (h k v hv)

theorem filter (h : AllValues P m) (keep : K → V → Bool) : AllValues P (m.filter keep) := by
  intro k v hv
  rw [find?_filter] at hv
  exact h k v (Option.filter_eq_some_iff.mp hv).1

end AllValues

end OrdMap

end Cashew.Lib
