import Cashew.Lib.Worklist
import Cashew.Reputation.Reputation
import Cashew.Reputation.VouchingWorkflow
import Cashew.Utils.Floats

/-!
# Queries over trust and vouches

The searches of `TrustGraph` in `core/reputation/reputation.cpp`, and those of
`TrustPathFinder` and `VouchingWorkflow` in `core/reputation/attestation.cpp`. Three are loops
over a queue and take a number of rounds; the others are recursions as deep as the limit on
their path allows.

A node's neighbours come in the order of the map. A weight is the number that was given, and
0.3 is `3 / 10`; the strength of a path alone is a product of `float`s, and takes the weights
as `float`s.
-/

namespace Cashew

open Cashew.Lib

namespace TrustGraph

variable (g : TrustGraph)

/-- The edges that leave a node. -/
def edgesFrom (node : NodeID) : List (NodeID × TrustEdge) :=
  (g.edges.find? node).elim [] (·.entries)

/-- `TrustGraph::get_trusts`. -/
def getTrusts (node : NodeID) : List NodeID :=
  ((g.edgesFrom node).filter fun (_, edge) => 3 / 10 < edge.trustWeight).map (·.1)

/-- `TrustGraph::get_all_nodes`. -/
def getAllNodes : Finset NodeID :=
  (g.edges.entries.flatMap fun (source, targets) => source :: targets.entries.map (·.1)).toFinset

/-! ## Transitive trust -/

/-- The values found so far, and the items that the loop over a node's edges has pushed. -/
abbrev Relaxed := OrdMap NodeID ℚ × List (NodeID × Nat)

/-- One edge in the loop of `calculate_transitive_trust`. -/
def relax (current : NodeID) (hops : Nat) (found : Relaxed) (edge : NodeID × TrustEdge) : Relaxed :=
  let pathTrust := (found.1.find? current).getD 0 * edge.2.trustWeight
  if (found.1.find? edge.1).all (· < pathTrust) then
    (found.1.insert edge.1 pathTrust, found.2 ++ [(edge.1, hops + 1)])
  else found

/-- The loop of `calculate_transitive_trust`. -/
def transitiveSearch (target : NodeID) (maxHops : UInt32) :
    Worklist (OrdMap NodeID ℚ) (NodeID × Nat) ℚ where
  visit bestTrust item :=
    if maxHops.toNat ≤ item.2 then .inr (bestTrust, [])
    else .inr ((g.edgesFrom item.1).foldl (relax item.1 item.2) (bestTrust, []))
  finish bestTrust := (bestTrust.find? target).getD 0

/-- `TrustGraph::calculate_transitive_trust`, for so many rounds. -/
def calculateTransitiveTrust (rounds : Nat) (source target : NodeID) (maxHops : UInt32) :
    Option ℚ :=
  if source = target then some 1
  else
    match g.getDirectTrust source target with
    | some direct => some direct
    | none =>
      (g.transitiveSearch target maxHops).run rounds (OrdMap.empty.insert source 1) [(source, 0)]

/-! ## Communities -/

/-- The loop of `find_trust_community`. -/
def communitySearch (minTrust : ℚ) : Worklist (Finset NodeID) NodeID (Finset NodeID) where
  visit community current :=
    .inr ((g.edgesFrom current).foldl
      (fun found (neighbor, edge) =>
        if minTrust ≤ edge.trustWeight ∧ neighbor ∉ found.1 then
          (insert neighbor found.1, found.2 ++ [neighbor])
        else found)
      (community, []))
  finish community := community

/-- `TrustGraph::find_trust_community`, for so many rounds. -/
def findTrustCommunity (rounds : Nat) (node : NodeID) (minTrust : ℚ) : Option (Finset NodeID) :=
  (g.communitySearch minTrust).run rounds {node} [node]

/-! ## Distances -/

/-- The loop of `calculate_trust_distance`. -/
def distanceSearch (target : NodeID) :
    Worklist (Finset NodeID) (NodeID × UInt32) (Option UInt32) where
  visit visited item :=
    if item.1 = target then .inl (some item.2)
    else
      .inr ((g.getTrusts item.1).foldl
        (fun found next =>
          if next ∉ found.1 then (insert next found.1, found.2 ++ [(next, item.2 + 1)]) else found)
        (visited, []))
  finish _ := none

/-- `TrustPathFinder::calculate_trust_distance`, for so many rounds. -/
def calculateTrustDistance (rounds : Nat) (source target : NodeID) : Option (Option UInt32) :=
  if source = target then some (some 0)
  else (g.distanceSearch target).run rounds {source} [(source, 0)]

/-! ## Paths -/

/-- What `dfs_find_paths` changes: the nodes on the way, and the paths that it has found. -/
structure PathSearch where
  visited : Finset NodeID
  allPaths : List (List NodeID)

/-- `TrustPathFinder::dfs_find_paths`. -/
def dfsFindPaths (target : NodeID) (maxHops : UInt32) (current : NodeID)
    (currentPath : List NodeID) (search : PathSearch) : PathSearch :=
  if maxHops.toNat ≤ currentPath.length then search
  else if current = target then { search with allPaths := search.allPaths ++ [currentPath] }
  else
    let searched := (g.getTrusts current).foldl
      (fun search next =>
        if next ∉ search.visited then
          dfsFindPaths target maxHops next (currentPath ++ [next]) search
        else search)
      { search with visited := insert current search.visited }
    { searched with visited := searched.visited.erase current }
termination_by maxHops.toNat - currentPath.length
decreasing_by
  rw [List.length_append, List.length_singleton]
  omega

/-- `TrustPathFinder::find_all_paths`. -/
def findAllPaths (source target : NodeID) (maxHops : UInt32) : List (List NodeID) :=
  (g.dfsFindPaths target maxHops source [source] ⟨∅, []⟩).allPaths

/-! ## Strength -/

/-- The product of the weights along a path, from a number on; nothing where it is broken. -/
def strengthFrom : ℚ → List NodeID → ℚ
  | strength, a :: b :: rest =>
    (g.getDirectTrust a b).elim 0 fun trust =>
      strengthFrom (smallFloat (strength * float trust)) (b :: rest)
  | strength, _ => strength

/-- `TrustPathFinder::calculate_path_strength`. -/
def calculatePathStrength (path : List NodeID) : ℚ :=
  if path.length < 2 then 0 else g.strengthFrom 1 path

/-- One path compared with the best so far. -/
def compareStrength (best : ℚ × List NodeID) (path : List NodeID) : ℚ × List NodeID :=
  let strength := g.calculatePathStrength path
  if best.1 < strength then (strength, path) else best

/-- `TrustPathFinder::find_strongest_path`. -/
def findStrongestPath (source target : NodeID) (maxHops : UInt32) : Option (List NodeID) :=
  let allPaths := g.findAllPaths source target maxHops
  if allPaths.isEmpty then none else some (allPaths.foldl g.compareStrength (0, [])).2

/-! ## Edges -/

variable {g} {a b : NodeID}

theorem mem_edgesFrom {edge : TrustEdge} :
    (b, edge) ∈ g.edgesFrom a ↔
      ∃ targets, g.edges.find? a = some targets ∧ targets.find? b = some edge := by
  unfold edgesFrom
  cases g.edges.find? a with
  | none => simp
  | some targets => simp [OrdMap.mem_entries]

theorem getDirectTrust_eq_some_iff {weight : ℚ} :
    g.getDirectTrust a b = some weight ↔
      ∃ edge, (b, edge) ∈ g.edgesFrom a ∧ edge.trustWeight = weight := by
  unfold getDirectTrust
  simp only [mem_edgesFrom, Option.bind_eq_some_iff, Option.map_eq_some_iff]
  constructor
  · rintro ⟨targets, htargets, edge, hedge, rfl⟩
    exact ⟨edge, ⟨targets, htargets, hedge⟩, rfl⟩
  · rintro ⟨edge, ⟨targets, htargets, hedge⟩, rfl⟩
    exact ⟨targets, htargets, edge, hedge, rfl⟩

theorem mem_getTrusts : b ∈ g.getTrusts a ↔ ∃ weight ∈ g.getDirectTrust a b, 3 / 10 < weight := by
  unfold getTrusts
  simp only [List.mem_map, List.mem_filter, decide_eq_true_eq, Option.mem_def,
    getDirectTrust_eq_some_iff]
  constructor
  · rintro ⟨⟨target, edge⟩, ⟨hedge, hweight⟩, rfl⟩
    exact ⟨_, ⟨edge, hedge, rfl⟩, hweight⟩
  · rintro ⟨weight, ⟨edge, hedge, rfl⟩, hweight⟩
    exact ⟨(b, edge), ⟨hedge, hweight⟩, rfl⟩

theorem mem_getAllNodes_of_mem_edgesFrom {edge : TrustEdge} (h : (b, edge) ∈ g.edgesFrom a) :
    b ∈ g.getAllNodes := by
  obtain ⟨targets, htargets, hedge⟩ := mem_edgesFrom.mp h
  unfold getAllNodes
  rw [List.mem_toFinset, List.mem_flatMap]
  refine ⟨(a, targets), OrdMap.mem_entries.mpr htargets, List.mem_cons_of_mem _ ?_⟩
  exact List.mem_map.mpr ⟨(b, edge), OrdMap.mem_entries.mpr hedge, rfl⟩

end TrustGraph

/-! ## Chains of vouches -/

namespace VouchingWorkflow

/-- What the search changes: the nodes on the way, and the chains that it has found. -/
structure ChainSearch where
  visited : Finset NodeID
  chains : List (List NodeID)

/-- The `dfs` of `get_vouching_chains`. -/
def dfs (m : ReputationManager) (maxDepth : UInt32) (current : NodeID) (depth : ℕ)
    (currentChain : List NodeID) (search : ChainSearch) : ChainSearch :=
  if maxDepth.toNat ≤ depth then search
  else if current ∈ search.visited then search
  else
    let search := { search with visited := insert current search.visited }
    let currentChain := currentChain ++ [current]
    let vouches := m.getVouchesBy current
    let searched :=
      if vouches.isEmpty then
        if 1 < currentChain.length then
          { search with chains := search.chains ++ [currentChain] }
        else search
      else
        vouches.foldl
          (fun search vouch =>
            if vouch.stillActive then dfs m maxDepth vouch.vouchee (depth + 1) currentChain search
            else search)
          search
    { searched with visited := searched.visited.erase current }
termination_by maxDepth.toNat - depth

/-- `VouchingWorkflow::get_vouching_chains`. A chain ends at a node that has never vouched for
anybody: one whose vouches have all been revoked has vouched. -/
def getVouchingChains (m : ReputationManager) (node : NodeID) (maxDepth : UInt32) :
    List (List NodeID) :=
  (dfs m maxDepth node 0 [] ⟨∅, []⟩).chains

end VouchingWorkflow

end Cashew
