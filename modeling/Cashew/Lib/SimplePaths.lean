import Mathlib

/-!
# Searching simple paths

The ways from a node to the leaves of a graph that avoid the nodes visited before, found by
trying the neighbours in turn; the search does not go on behind a leaf. A graph may list a
neighbour several times; a way is then found as often as its steps are listed (`count_ways`),
and never when it is none. Where no neighbour is listed twice, the ways are found once each
(`nodup_ways`, `mem_ways`).
-/

namespace Cashew.Lib.SimplePaths

variable {α : Type} [DecidableEq α] {next : α → List α} {leaf : α → Bool}

/-- The ways on from a node, with fewer steps than there is room for. -/
def ways (next : α → List α) (leaf : α → Bool) : ℕ → α → Finset α → List (List α)
  | 0, _, _ => []
  | room + 1, node, visited =>
    if leaf node then [[]]
    else
      (next node).flatMap fun other =>
        if other ∈ insert node visited then []
        else (ways next leaf room other (insert node visited)).map (other :: ·)

/-- How often the steps of a path are listed, taken together. -/
def multiplicity (next : α → List α) : List α → ℕ
  | a :: b :: rest => (next a).count b * multiplicity next (b :: rest)
  | _ => 1

/-- What a way is, its steps apart. -/
structure IsWay (leaf : α → Bool) (room : ℕ) (node : α) (visited : Finset α) (way : List α) :
    Prop where
  ends : leaf ((node :: way).getLast (List.cons_ne_nil node way)) = true
  nodup : (node :: way).Nodup
  avoids : ∀ a ∈ way, a ∉ visited
  short : way.length < room

variable {room : ℕ} {node other : α} {visited : Finset α} {way : List α}

omit [DecidableEq α] in
theorem isWay_nil : IsWay leaf (room + 1) node visited [] ↔ leaf node = true := by
  constructor
  · exact fun h => h.ends
  · intro h
    exact ⟨h, List.nodup_singleton _, (fun _ hmem => nomatch hmem), Nat.succ_pos room⟩

/-- A way begins with a node that is not visited, and goes on from there. -/
theorem isWay_cons : IsWay leaf (room + 1) node visited (other :: way) ↔
    other ∉ insert node visited ∧ IsWay leaf room other (insert node visited) way := by
  have hlast : (node :: other :: way).getLast (List.cons_ne_nil node _) =
      (other :: way).getLast (List.cons_ne_nil other way) := List.getLast_cons_cons
  constructor
  · rintro ⟨hends, hnodup, havoids, hshort⟩
    obtain ⟨hnode, hnodup⟩ := List.nodup_cons.mp hnodup
    have hnew : ∀ a ∈ other :: way, a ∉ insert node visited := by
      intro a ha hmem
      rcases Finset.mem_insert.mp hmem with rfl | hvisited
      · exact hnode ha
      · exact havoids a ha hvisited
    rw [hlast] at hends
    exact ⟨hnew other List.mem_cons_self, hends, hnodup,
      fun a ha => hnew a (List.mem_cons_of_mem other ha), Nat.lt_of_succ_lt_succ hshort⟩
  · rintro ⟨hnew, hends, hnodup, havoids, hshort⟩
    have hnew' : ∀ a ∈ other :: way, a ∉ insert node visited :=
      List.forall_mem_cons.mpr ⟨hnew, havoids⟩
    refine ⟨?_, List.nodup_cons.mpr ⟨?_, hnodup⟩, ?_, Nat.succ_lt_succ hshort⟩
    · rw [hlast]
      exact hends
    · exact fun hmem => hnew' node hmem (Finset.mem_insert_self _ _)
    · exact fun a ha hvisited => hnew' a ha (Finset.mem_insert_of_mem hvisited)

/-- A sum over a list in which only one element counts. -/
theorem sum_map_ite_eq (items : List α) (a : α) (k : ℕ) :
    (items.map fun b => if b = a then k else 0).sum = items.count a * k := by
  induction items with
  | nil => simp
  | cons b rest ih =>
    rw [List.map_cons, List.sum_cons, ih, List.count_cons]
    by_cases hb : b = a
    · simp [hb, Nat.succ_mul, Nat.add_comm]
    · simp [hb]

/-- The ways over one neighbour that begin with another. -/
theorem count_cons_map (found : List (List α)) (a b : α) :
    (found.map (b :: ·)).count (a :: way) = if b = a then found.count way else 0 := by
  by_cases hb : b = a
  · rw [if_pos hb, hb]
    exact List.count_map_of_injective found _ List.cons_injective way
  · rw [if_neg hb, List.count_eq_zero]
    intro hmem
    obtain ⟨_, _, heq⟩ := List.mem_map.mp hmem
    exact hb (List.cons_eq_cons.mp heq).1

open Classical in
/-- **Every way, as often as it can be gone**, when nothing leads on from one leaf to another. -/
theorem count_ways (hleaf : ∀ a b, leaf a = true → leaf b = true → a ≠ b → next a = []) :
    (ways next leaf room node visited).count way =
      if IsWay leaf room node visited way then multiplicity next (node :: way) else 0 := by
  induction room generalizing node visited way with
  | zero =>
    rw [if_neg fun h => Nat.not_lt_zero _ h.short]
    rfl
  | succ room ih =>
    unfold ways
    by_cases hnode : leaf node = true
    · rw [if_pos hnode]
      cases way with
      | nil =>
        rw [if_pos (isWay_nil.mpr hnode)]
        rfl
      | cons other rest =>
        symm
        show ite _ _ _ = 0
        rw [ite_eq_right_iff]
        intro hway
        -- the way would end at another leaf, and nothing leads on to one
        have hnext : next node = [] := by
          refine hleaf node _ hnode hway.ends fun hsame => ?_
          have hlast : node ∈ other :: rest := by
            rw [hsame, List.getLast_cons_cons]
            exact List.getLast_mem (List.cons_ne_nil other rest)
          exact (List.nodup_cons.mp hway.nodup).1 hlast
        rw [multiplicity, hnext, List.count_nil, Nat.zero_mul]
    · rw [if_neg hnode, List.count_flatMap]
      cases way with
      | nil =>
        rw [if_neg fun h => hnode (isWay_nil.mp h)]
        refine List.sum_eq_zero fun c hc => ?_
        obtain ⟨other, -, rfl⟩ := List.mem_map.mp hc
        dsimp only [Function.comp]
        split
        · rfl
        · rw [List.count_eq_zero]
          intro hmem
          obtain ⟨_, _, heq⟩ := List.mem_map.mp hmem
          cases heq
      | cons other rest =>
        have hcount : ∀ b, List.count (other :: rest)
            (if b ∈ insert node visited then []
              else (ways next leaf room b (insert node visited)).map (b :: ·)) =
            if b = other then
              (if other ∉ insert node visited ∧ IsWay leaf room other (insert node visited) rest
                then multiplicity next (other :: rest) else 0)
            else 0 := by
          intro b
          by_cases hvisited : b ∈ insert node visited
          · rw [if_pos hvisited, List.count_nil]
            split
            · rename_i hb
              rw [if_neg fun h => h.1 (hb ▸ hvisited)]
            · rfl
          · rw [if_neg hvisited, count_cons_map, ih]
            split
            · rename_i hb
              subst hb
              simp only [hvisited, not_false_eq_true, true_and]
            · rfl
        have hsum := sum_map_ite_eq (next node) other
          (if other ∉ insert node visited ∧ IsWay leaf room other (insert node visited) rest
            then multiplicity next (other :: rest) else 0)
        simp only [Function.comp_def, hcount]
        rw [hsum, mul_ite, Nat.mul_zero]
        exact if_congr isWay_cons.symm rfl rfl

/-! ## Neighbours that are listed once -/

/-- A step between neighbours is then listed once, and any other never. -/
theorem multiplicity_eq (hnext : ∀ a, (next a).Nodup) (path : List α) :
    multiplicity next path = if path.IsChain fun a b => b ∈ next a then 1 else 0 := by
  induction path with
  | nil => simp [multiplicity]
  | cons a rest ih =>
    cases rest with
    | nil => simp [multiplicity]
    | cons b rest =>
      rw [multiplicity, ih, (hnext a).count]
      simp only [List.isChain_cons_cons]
      by_cases hstep : b ∈ next a
      · simp [hstep]
      · simp [hstep]

theorem nodup_ways (hleaf : ∀ a b, leaf a = true → leaf b = true → a ≠ b → next a = [])
    (hnext : ∀ a, (next a).Nodup) : (ways next leaf room node visited).Nodup := by
  classical
  rw [List.nodup_iff_count_le_one]
  intro way
  rw [count_ways hleaf, multiplicity_eq hnext]
  split_ifs <;> omega

theorem mem_ways (hleaf : ∀ a b, leaf a = true → leaf b = true → a ≠ b → next a = [])
    (hnext : ∀ a, (next a).Nodup) :
    way ∈ ways next leaf room node visited ↔
      IsWay leaf room node visited way ∧ (node :: way).IsChain fun a b => b ∈ next a := by
  classical
  rw [← List.count_pos_iff, count_ways hleaf, multiplicity_eq hnext]
  by_cases hway : IsWay leaf room node visited way
  · rw [if_pos hway, and_iff_right hway]
    split_ifs with hchain
    · exact iff_of_true Nat.one_pos hchain
    · exact iff_of_false (lt_irrefl 0) hchain
  · rw [if_neg hway]
    exact iff_of_false (lt_irrefl 0) fun h => hway h.1

end Cashew.Lib.SimplePaths
