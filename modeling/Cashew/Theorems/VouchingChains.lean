import Cashew.Lib.SimplePaths
import Cashew.Reputation.TrustQueries

/-!
# Which chains of vouches are listed

The search marks the nodes on its way and unmarks them, so it tries every way on along active
vouches that avoids the marked nodes (`dfs_eq`). It lists a way when it ends at a node that
has never vouched, and one that does not end so within the depth is not listed at all, not
even in part (`count_vouchingChains`).
-/

namespace Cashew.Theorems.VouchingChains

open Cashew Cashew.Lib SimplePaths VouchingWorkflow

variable {m : ReputationManager}

/-- The nodes that a node vouches for now, once for each active record. -/
def vouchees (m : ReputationManager) (node : NodeID) : List NodeID :=
  ((m.getVouchesBy node).filter (·.stillActive)).map (·.vouchee)

/-- A node that has never vouched. -/
def neverVouched (m : ReputationManager) (node : NodeID) : Bool := (m.getVouchesBy node).isEmpty

theorem vouchees_of_neverVouched {node : NodeID} (h : neverVouched m node = true) :
    vouchees m node = [] := by
  unfold vouchees
  rw [List.isEmpty_iff.mp h]
  rfl

/-- The ways on from a node along active vouches. -/
abbrev waysOn (m : ReputationManager) : ℕ → NodeID → Finset NodeID → List (List NodeID) :=
  ways (vouchees m) (neverVouched m)

/-! ## The recursion -/

/-- The loop over the records, when every call in it adds its ways. -/
theorem foldl_dfs {maxDepth : UInt32} {depth : ℕ} {chain : List NodeID} {marked : Finset NodeID}
    {found : NodeID → List (List NodeID)}
    (hcalls : ∀ node chains, dfs m maxDepth node depth chain ⟨marked, chains⟩ =
      ⟨marked, chains ++ if node ∈ marked then [] else (found node).map (chain ++ node :: ·)⟩)
    (vouches : List VouchRecord) (chains : List (List NodeID)) :
    vouches.foldl (fun search vouch =>
        if vouch.stillActive then dfs m maxDepth vouch.vouchee depth chain search else search)
        ⟨marked, chains⟩ =
      ⟨marked, chains ++
        (((vouches.filter (·.stillActive)).map (·.vouchee)).flatMap fun node =>
          if node ∈ marked then [] else (found node).map (node :: ·)).map (chain ++ ·)⟩ := by
  induction vouches generalizing chains with
  | nil => simp
  | cons vouch rest ih =>
    rw [List.foldl_cons]
    cases hactive : vouch.stillActive with
    | false =>
      rw [if_neg Bool.false_ne_true, ih, List.filter_cons_of_neg (by simp [hactive])]
    | true =>
      rw [if_pos rfl, hcalls, ih, List.filter_cons_of_pos hactive, List.map_cons,
        List.flatMap_cons, List.map_append, List.append_assoc]
      congr 3
      split
      · rfl
      · rw [List.map_map]
        rfl

/-- Below the first node, the recursion adds the ways on to the chain, and leaves the marks as
they were. -/
theorem dfs_eq {maxDepth : UInt32} {room depth : ℕ} {node : NodeID} {chain : List NodeID}
    {visited : Finset NodeID} (hroom : maxDepth.toNat - depth = room) (hchain : chain ≠ [])
    (chains : List (List NodeID)) :
    dfs m maxDepth node depth chain ⟨visited, chains⟩ =
      ⟨visited, chains ++ if node ∈ visited then []
        else (waysOn m room node visited).map (chain ++ node :: ·)⟩ := by
  induction room generalizing node depth chain visited chains with
  -- max_depth is reached: the recursion returns at once, and no way has room
  | zero =>
    rw [dfs, if_pos (by omega)]
    simp [ways]
  | succ room ih =>
    rw [dfs, if_neg (by omega)]
    -- a node on the chain already is not entered again
    by_cases hvisited : node ∈ visited
    · rw [if_pos hvisited, if_pos hvisited, List.append_nil]
    · rw [if_neg hvisited, if_neg hvisited]
      dsimp only
      have hlong : 1 < (chain ++ [node]).length := by
        rw [List.length_append, List.length_singleton]
        have hpos := List.length_pos_iff.mpr hchain
        omega
      have hsearched :
          (if (m.getVouchesBy node).isEmpty = true then
            if 1 < (chain ++ [node]).length then
              ⟨insert node visited, chains ++ [chain ++ [node]]⟩
            else ⟨insert node visited, chains⟩
          else
            (m.getVouchesBy node).foldl
              (fun search vouch =>
                if vouch.stillActive then
                  dfs m maxDepth vouch.vouchee (depth + 1) (chain ++ [node]) search
                else search)
              ⟨insert node visited, chains⟩) =
            (⟨insert node visited,
              chains ++ (waysOn m (room + 1) node visited).map (chain ++ node :: ·)⟩ :
                ChainSearch) := by
        unfold waysOn ways
        -- a leaf ends the chain; any other node goes on with each of its vouches
        by_cases hleaf : neverVouched m node = true
        · have hempty : (m.getVouchesBy node).isEmpty = true := hleaf
          rw [if_pos hempty, if_pos hlong, if_pos hleaf]
          rfl
        · have hcalls : ∀ other chains,
              dfs m maxDepth other (depth + 1) (chain ++ [node]) ⟨insert node visited, chains⟩ =
                ⟨insert node visited, chains ++ if other ∈ insert node visited then []
                  else (waysOn m room other (insert node visited)).map
                    (chain ++ [node] ++ other :: ·)⟩ :=
            fun _ chains => ih (by omega) (by simp) chains
          have hsome : ¬ (m.getVouchesBy node).isEmpty = true := hleaf
          rw [if_neg hsome, if_neg hleaf, foldl_dfs hcalls]
          simp only [List.append_assoc, List.singleton_append]
          rfl
      -- on the way back the node's mark is taken away
      rw [hsearched]
      dsimp only
      rw [Finset.erase_insert hvisited]

/-- The chains that are listed: the ways on from the node, except the one that goes nowhere. -/
theorem getVouchingChains_eq (m : ReputationManager) (node : NodeID) (maxDepth : UInt32) :
    getVouchingChains m node maxDepth =
      ((waysOn m maxDepth.toNat node ∅).filter (· ≠ [])).map (node :: ·) := by
  unfold getVouchingChains
  rw [dfs]
  by_cases hdepth : maxDepth.toNat ≤ 0
  · rw [if_pos hdepth, Nat.le_zero.mp hdepth]
    rfl
  · obtain ⟨room, hroom⟩ : ∃ room, maxDepth.toNat = room + 1 := ⟨maxDepth.toNat - 1, by omega⟩
    rw [if_neg hdepth, if_neg (Finset.notMem_empty node), hroom, waysOn, ways]
    -- a node that vouched for nobody has the one way that is left out
    by_cases hleaf : neverVouched m node = true
    · have hempty : (m.getVouchesBy node).isEmpty = true := hleaf
      have hshort : ¬ 1 < ([] ++ [node]).length := by simp
      dsimp only
      rw [if_pos hempty, if_neg hshort, if_pos hleaf]
      rfl
    · have hsome : ¬ (m.getVouchesBy node).isEmpty = true := hleaf
      have hcalls : ∀ other chains,
          dfs m maxDepth other (0 + 1) ([] ++ [node]) ⟨insert node ∅, chains⟩ =
            ⟨insert node ∅, chains ++ if other ∈ insert node (∅ : Finset NodeID) then []
              else (waysOn m room other (insert node ∅)).map ([] ++ [node] ++ other :: ·)⟩ :=
        fun _ chains => dfs_eq (by omega) (by simp) chains
      dsimp only
      rw [if_neg hsome, foldl_dfs hcalls, if_neg hleaf, List.nil_append]
      have hlong : ∀ way ∈ (vouchees m node).flatMap fun other =>
          if other ∈ insert node (∅ : Finset NodeID) then []
          else (waysOn m room other (insert node ∅)).map (other :: ·),
          decide (way ≠ []) = true := by
        intro way hway
        obtain ⟨other, -, hmem⟩ := List.mem_flatMap.mp hway
        split at hmem
        · cases hmem
        · obtain ⟨_, -, rfl⟩ := List.mem_map.mp hmem
          simp
      rw [List.filter_eq_self.mpr hlong]
      rfl

/-! ## The chains -/

/-- A chain that is to be listed, its vouches apart: no node comes twice, and the last one has
never vouched. -/
structure IsVouchingChain (m : ReputationManager) (node : NodeID) (maxDepth : UInt32)
    (chain : List NodeID) : Prop where
  first : chain.head? = some node
  longer : 2 ≤ chain.length
  within : chain.length ≤ maxDepth.toNat
  nodup : chain.Nodup
  ends : ∃ last, chain.getLast? = some last ∧ neverVouched m last = true

theorem isVouchingChain_cons {node : NodeID} {maxDepth : UInt32} {way : List NodeID} :
    IsVouchingChain m node maxDepth (node :: way) ↔
      way ≠ [] ∧ IsWay (neverVouched m) maxDepth.toNat node ∅ way := by
  constructor
  · rintro ⟨-, hlonger, hwithin, hnodup, last, hlast, hnever⟩
    rw [List.length_cons] at hlonger hwithin
    refine ⟨List.ne_nil_of_length_pos (by omega), ?_, hnodup, fun _ _ => Finset.notMem_empty _,
      hwithin⟩
    rw [List.getLast?_eq_some_getLast (List.cons_ne_nil node way)] at hlast
    rw [Option.some.inj hlast]
    exact hnever
  · rintro ⟨hway, hends, hnodup, -, hshort⟩
    refine ⟨rfl, ?_, hshort, hnodup, _, List.getLast?_eq_some_getLast (List.cons_ne_nil node way),
      hends⟩
    have hpos := List.length_pos_iff.mpr hway
    rw [List.length_cons]
    omega

open Classical in
/-- **Chains of vouches.** A chain of at most so many different nodes, the last of which has
never vouched, is listed once for each choice of active vouches along it; nothing else is
listed. -/
theorem count_vouchingChains (m : ReputationManager) (node : NodeID) (maxDepth : UInt32)
    (chain : List NodeID) :
    (getVouchingChains m node maxDepth).count chain =
      if IsVouchingChain m node maxDepth chain then multiplicity (vouchees m) chain else 0 := by
  rw [getVouchingChains_eq]
  cases chain with
  | nil =>
    have hnone : ¬ IsVouchingChain m node maxDepth [] := fun h => nomatch h.first
    rw [if_neg hnone]
    refine List.count_eq_zero.mpr fun hmem => ?_
    obtain ⟨_, -, heq⟩ := List.mem_map.mp hmem
    cases heq
  | cons other way =>
    rw [count_cons_map]
    by_cases hother : node = other
    · subst hother
      rw [if_pos rfl]
      by_cases hway : way = []
      · rw [if_neg fun h => (isVouchingChain_cons.mp h).1 hway, hway]
        refine List.count_eq_zero.mpr fun hmem => ?_
        simpa using (List.mem_filter.mp hmem).2
      · rw [List.count_filter (by simpa using hway),
          count_ways fun _ _ hnever _ _ => vouchees_of_neverVouched hnever]
        refine if_congr ?_ rfl rfl
        rw [isVouchingChain_cons]
        exact (and_iff_right hway).symm
    · rw [if_neg hother, if_neg]
      intro h
      exact hother (Option.some.inj h.first).symm

end Cashew.Theorems.VouchingChains
