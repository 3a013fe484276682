import Cashew.Security.OnionRouting

/-!
# The relays of a circuit

`select_path` draws one candidate after the other and takes every entry under the drawn id
out of the candidates. Whatever is drawn, it ends up with as many different relays as were
asked for, or with all there are.
-/

namespace Cashew.Theorems.PathSelection

open Cashew Cashew.Lib OnionCircuitManager

/-- The ids of some hops. -/
def ids (hops : List OnionHop) : Finset NodeID := (hops.map OnionHop.nodeId).toFinset

/-- The candidates that may be relays. -/
def eligible (m : OnionCircuitManager) (availableNodes : List OnionHop) (destination : NodeID) :
    List OnionHop :=
  availableNodes.filter fun node => node.nodeId ≠ m.localNodeId ∧ node.nodeId ≠ destination

/-- A path of different relays out of the eligible candidates, as long as was asked for or as
long as there are candidates with different ids. -/
structure GoodPath (m : OnionCircuitManager) (availableNodes : List OnionHop)
    (destination : NodeID) (pathLength : Nat) (path : List OnionHop) : Prop where
  distinct : (path.map OnionHop.nodeId).Nodup
  listed : ∀ hop ∈ path, hop ∈ availableNodes
  not_local : ∀ hop ∈ path, hop.nodeId ≠ m.localNodeId
  not_destination : ∀ hop ∈ path, hop.nodeId ≠ destination
  length : path.length = min pathLength (ids (eligible m availableNodes destination)).card

/-! ## Drawing -/

theorem selectRandomNode_mem {candidates : List OnionHop} (h : candidates ≠ []) (draw : Nat) :
    selectRandomNode candidates draw ∈ candidates := by
  have hlt : draw % candidates.length < candidates.length :=
    Nat.mod_lt _ (List.length_pos_iff.mpr h)
  unfold selectRandomNode
  rw [List.getElem?_eq_getElem hlt]
  exact List.getElem_mem hlt

theorem ids_filter_ne (hops : List OnionHop) (id : NodeID) :
    ids (hops.filter fun n => n.nodeId ≠ id) = (ids hops).erase id := by
  ext n
  simp only [ids, List.mem_toFinset, List.mem_map, List.mem_filter, decide_eq_true_eq,
    Finset.mem_erase]
  constructor
  · rintro ⟨hop, ⟨hmem, hne⟩, rfl⟩
    exact ⟨hne, hop, hmem, rfl⟩
  · rintro ⟨hne, hop, hmem, rfl⟩
    exact ⟨hop, ⟨hmem, hne⟩, rfl⟩

theorem ids_eq_empty_iff {hops : List OnionHop} : ids hops = ∅ ↔ hops = [] := by
  rw [ids, List.toFinset_eq_empty_iff, List.map_eq_nil_iff]

/-- The rounds add different relays out of the candidates, until the rounds or the ids have
run out. -/
theorem selectPathLoop_spec (rounds : Nat) (draws : Nat → Nat) {candidates : List OnionHop}
    (h : candidates ≠ []) (path : List OnionHop) :
    ∃ relays, selectPathLoop rounds draws candidates path = path ++ relays ∧
      (relays.map OnionHop.nodeId).Nodup ∧ (∀ hop ∈ relays, hop ∈ candidates) ∧
      relays.length = min rounds (ids candidates).card := by
  induction rounds generalizing draws candidates path with
  | zero => exact ⟨[], (List.append_nil path).symm, List.nodup_nil, by simp, by simp⟩
  | succ rounds ih =>
    have hnode := selectRandomNode_mem h (draws 0)
    rw [selectPathLoop]
    generalize selectRandomNode candidates (draws 0) = node at hnode ⊢
    have hid : node.nodeId ∈ ids candidates :=
      List.mem_toFinset.mpr (List.mem_map_of_mem hnode)
    -- with the chosen relay all that share its id leave the candidates
    have hcard : (ids (candidates.filter fun n => n.nodeId ≠ node.nodeId)).card + 1 =
        (ids candidates).card := by
      rw [ids_filter_ne]
      exact Finset.card_erase_add_one hid
    split
    · -- nobody is left
      rename_i hnil
      rw [hnil] at hcard
      refine ⟨[node], rfl, List.nodup_singleton _, ?_, ?_⟩
      · exact fun hop hhop => List.mem_singleton.mp hhop ▸ hnode
      · rw [← hcard]
        simp [ids]
    · rename_i hleft
      obtain ⟨relays, heq, hnodup, hmem, hlen⟩ :=
        ih (fun i => draws (i + 1)) hleft (path ++ [node])
      refine ⟨node :: relays, by rw [heq, List.append_assoc]; rfl, ?_, ?_, ?_⟩
      · rw [List.map_cons, List.nodup_cons]
        refine ⟨fun hagain => ?_, hnodup⟩
        obtain ⟨hop, hhop, heq⟩ := List.mem_map.mp hagain
        exact of_decide_eq_true (List.mem_filter.mp (hmem hop hhop)).2 heq
      · intro hop hhop
        rcases List.mem_cons.mp hhop with rfl | hhop
        · exact hnode
        · exact (List.mem_filter.mp (hmem hop hhop)).1
      · rw [List.length_cons, hlen, ← hcard, Nat.add_min_add_right]

/-! ## Results -/

theorem goodPath_nil {m : OnionCircuitManager} {availableNodes : List OnionHop}
    {destination : NodeID} {pathLength : Nat}
    (h : pathLength = 0 ∨ eligible m availableNodes destination = []) :
    GoodPath m availableNodes destination pathLength [] where
  distinct := List.nodup_nil
  listed _ hmem := nomatch hmem
  not_local _ hmem := nomatch hmem
  not_destination _ hmem := nomatch hmem
  length := by
    rcases h with rfl | hnone
    · exact (Nat.zero_min _).symm
    · rw [ids_eq_empty_iff.mpr hnone]
      exact (Nat.min_zero _).symm

/-- The ids are no more than the candidates, so the cut to the number of candidates cuts
nothing. -/
theorem card_ids_le (hops : List OnionHop) : (ids hops).card ≤ hops.length :=
  (List.toFinset_card_le _).trans (List.length_map _).le

theorem goodPath_selectPath (m : OnionCircuitManager) (availableNodes : List OnionHop)
    (destination : NodeID) (pathLength : Nat) (draws : Nat → Nat) :
    GoodPath m availableNodes destination pathLength
      (m.selectPath availableNodes destination pathLength draws) := by
  unfold selectPath
  split
  · rename_i hnone
    refine goodPath_nil (hnone.symm.imp_right fun hnil => ?_)
    rw [eligible, hnil]
    rfl
  · dsimp only
    split
    · rename_i hnone
      exact goodPath_nil (.inr hnone)
    · rename_i hsome
      have hsome' : eligible m availableNodes destination ≠ [] := hsome
      obtain ⟨relays, heq, hnodup, hmem, hlen⟩ := selectPathLoop_spec
        (min pathLength (eligible m availableNodes destination).length) draws hsome' []
      have hcandidate : ∀ hop ∈ relays, hop ∈ availableNodes ∧
          hop.nodeId ≠ m.localNodeId ∧ hop.nodeId ≠ destination := by
        intro hop hhop
        obtain ⟨hlisted, hends⟩ := List.mem_filter.mp (hmem hop hhop)
        exact ⟨hlisted, of_decide_eq_true hends⟩
      show GoodPath m availableNodes destination pathLength
        (selectPathLoop (min pathLength (eligible m availableNodes destination).length) draws
          (eligible m availableNodes destination) [])
      rw [heq, List.nil_append]
      refine ⟨hnodup, fun hop hhop => (hcandidate hop hhop).1,
        fun hop hhop => (hcandidate hop hhop).2.1, fun hop hhop => (hcandidate hop hhop).2.2, ?_⟩
      have hcard := card_ids_le (eligible m availableNodes destination)
      rw [hlen, Nat.min_assoc, Nat.min_eq_right hcard]

/-- **Relays.** Whatever the candidates and whatever is drawn, the relays that `select_path`
returns are different eligible candidates, as many as were asked for or as there are ids; and
`build_circuit` wraps the payload for such relays, three at most, and then the destination. -/
theorem relays_distinct (m : OnionCircuitManager) (availableNodes : List OnionHop)
    (draws : Nat → Nat) :
    (∀ destination pathLength, GoodPath m availableNodes destination pathLength
      (m.selectPath availableNodes destination pathLength draws)) ∧
    ∀ c destination payload secrets, ∃ relays,
      GoodPath m availableNodes destination.nodeId 3 relays ∧
        (m.buildCircuit c destination availableNodes payload draws secrets).2 =
          OnionRouteBuilder.buildLayersWithRouting c
            ((relays ++ [destination]).mapIdx fun i hop => (hop, secrets i)) payload := by
  constructor
  · intro destination pathLength
    exact goodPath_selectPath m availableNodes destination pathLength draws
  · intro c destination payload secrets
    exact ⟨_, goodPath_selectPath m availableNodes destination.nodeId 3 draws, rfl⟩

end Cashew.Theorems.PathSelection
