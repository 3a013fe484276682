import Cashew.Reputation.TrustQueries
import Cashew.Theorems.TrustGraph

/-!
# Communities and distances

Both searches are breadth-first searches of the library: one collects what can be reached
along the edges that are strong enough, the other counts the steps to its target along the
trusted ones. A distance is a `uint32_t`, so it is a number of steps modulo `2 ^ 32`
(`searches_correct`).
-/

namespace Cashew.Theorems.TrustSearches

open Cashew Cashew.Lib TrustGraph

variable {g : TrustGraph}

/-- The edge is there, with at least this weight. -/
def StrongEdge (g : TrustGraph) (minTrust : ℚ) (a b : NodeID) : Prop :=
  ∃ weight ∈ g.getDirectTrust a b, minTrust ≤ weight

/-- The edge is there, with a weight above 0.3. -/
def TrustedEdge (g : TrustGraph) (a b : NodeID) : Prop :=
  ∃ weight ∈ g.getDirectTrust a b, 3 / 10 < weight

/-- The lengths of the paths along trusted edges. -/
def trustedLengths (g : TrustGraph) (source target : NodeID) : Set Nat :=
  {n | Steps (TrustedEdge g) source n target}

/-- `find_trust_community` ends with these nodes. -/
def CommunityIs (g : TrustGraph) (node : NodeID) (minTrust : ℚ) (found : Finset NodeID) : Prop :=
  ∃ rounds, ∀ fuel ≥ rounds, g.findTrustCommunity fuel node minTrust = some found

/-- `calculate_trust_distance` ends with this answer. -/
def DistanceIs (g : TrustGraph) (source target : NodeID) (distance : Option UInt32) : Prop :=
  ∃ rounds, ∀ fuel ≥ rounds, g.calculateTrustDistance fuel source target = some distance

/-! ## The searches of the library -/

/-- The neighbours along strong edges. -/
def strongNeighbors (g : TrustGraph) (minTrust : ℚ) (node : NodeID) : List NodeID :=
  ((g.edgesFrom node).filter fun edge => minTrust ≤ edge.2.trustWeight).map (·.1)

theorem mem_strongNeighbors {minTrust : ℚ} {a b : NodeID} :
    b ∈ strongNeighbors g minTrust a ↔ StrongEdge g minTrust a b := by
  unfold strongNeighbors StrongEdge
  simp only [List.mem_map, List.mem_filter, decide_eq_true_eq, Option.mem_def,
    getDirectTrust_eq_some_iff]
  constructor
  · rintro ⟨⟨target, edge⟩, ⟨hedge, hweight⟩, rfl⟩
    exact ⟨_, ⟨edge, hedge, rfl⟩, hweight⟩
  · rintro ⟨weight, ⟨edge, hedge, rfl⟩, hweight⟩
    exact ⟨(b, edge), ⟨hedge, hweight⟩, rfl⟩

theorem mem_getAllNodes_of_direct {a b : NodeID} {weight : ℚ}
    (h : weight ∈ g.getDirectTrust a b) : b ∈ g.getAllNodes := by
  obtain ⟨edge, hedge, -⟩ := getDirectTrust_eq_some_iff.mp h
  exact mem_getAllNodes_of_mem_edgesFrom hedge

/-- The search for a community collects along the strong edges. -/
theorem communitySearch_eq (minTrust : ℚ) :
    g.communitySearch minTrust = collecting (strongNeighbors g minTrust) := by
  unfold communitySearch collecting
  congr 1
  funext community current
  refine congrArg Sum.inr ((foldl_eq_discover
    (fun edge : NodeID × TrustEdge => minTrust ≤ edge.2.trustWeight) (·.1) id (fun _ _ => rfl)
    _ _ _).trans ?_)
  rw [List.map_id, List.nil_append]
  rfl

/-- An item with its number of steps cut to 32 bits. -/
def cut (item : NodeID × Nat) : NodeID × UInt32 := (item.1, UInt32.ofNat item.2)

/-- A round of the search for a distance is one of the search that counts, with the numbers
cut to 32 bits. -/
theorem visit_distanceSearch (g : TrustGraph) (target : NodeID) (visited : Finset NodeID)
    (item : NodeID × Nat) :
    (g.distanceSearch target).visit visited (cut item) =
      ((measuring g.getTrusts target).visit visited item).map (Option.map UInt32.ofNat)
        fun next => (next.1, next.2.map cut) := by
  unfold distanceSearch measuring
  dsimp only
  by_cases hgoal : item.1 = target
  · rw [if_pos hgoal]
    exact if_pos hgoal
  · rw [if_neg hgoal]
    refine (if_neg hgoal).trans (congrArg Sum.inr ?_)
    rw [foldl_eq_discover (fun _ : NodeID => True) id (fun next => (next, (cut item).2 + 1))
      (by simp)]
    simp only [List.map_id, List.map_map, List.nil_append, decide_true, List.filter_true]
    refine Prod.ext rfl (List.map_congr_left fun next _ => ?_)
    exact congrArg (Prod.mk next) (UInt32.ofNat_add item.2 1).symm

/-! ## What the searches end with -/

theorem communityIs (g : TrustGraph) (node : NodeID) (minTrust : ℚ) :
    ∃ found, CommunityIs g node minTrust found ∧
      ∀ a, a ∈ found ↔ Relation.ReflTransGen (StrongEdge g minTrust) node a := by
  have hedges : Follows (strongNeighbors g minTrust) = StrongEdge g minTrust := by
    funext a b
    exact propext mem_strongNeighbors
  have hnodes : ∀ a, ∀ b ∈ strongNeighbors g minTrust a, b ∈ insert node g.getAllNodes := by
    intro a b hb
    obtain ⟨weight, hweight, -⟩ := mem_strongNeighbors.mp hb
    exact Finset.mem_insert_of_mem (mem_getAllNodes_of_direct hweight)
  obtain ⟨found, hyields, hfound⟩ := collecting_yields (Finset.mem_insert_self _ _) hnodes
  rw [hedges] at hfound
  rw [← communitySearch_eq] at hyields
  exact ⟨found, hyields, hfound⟩

/-- What a distance is to say: the least length cut to 32 bits, or that there is no path. -/
def DistanceModulo (g : TrustGraph) (source target : NodeID) : Option UInt32 → Prop
  | some distance =>
    ∃ n, IsLeast (trustedLengths g source target) n ∧ distance.toNat = n % 2 ^ 32
  | none => trustedLengths g source target = ∅

theorem distanceModulo_map {source target : NodeID} {distance : Option Nat}
    (h : Distance g.getTrusts source target distance) :
    DistanceModulo g source target (distance.map UInt32.ofNat) := by
  have hedges : Follows g.getTrusts = TrustedEdge g := by
    funext a b
    exact propext mem_getTrusts
  have hlengths : walkLengths g.getTrusts source target = trustedLengths g source target := by
    unfold walkLengths trustedLengths
    rw [hedges]
  cases distance with
  | none => exact hlengths.symm.trans h
  | some n => exact ⟨n, hlengths ▸ h, UInt32.toNat_ofNat'⟩

theorem distanceIs (g : TrustGraph) (source target : NodeID) :
    ∃ distance, DistanceIs g source target distance ∧ DistanceModulo g source target distance := by
  unfold DistanceIs calculateTrustDistance
  by_cases hsame : source = target
  · subst hsame
    refine ⟨some 0, ⟨0, fun _ _ => if_pos rfl⟩, 0, ⟨.start, fun _ _ => Nat.zero_le _⟩, rfl⟩
  · simp only [if_neg hsame]
    have hnodes : ∀ a, ∀ b ∈ g.getTrusts a, b ∈ insert source g.getAllNodes := by
      intro a b hb
      obtain ⟨weight, hweight, -⟩ := mem_getTrusts.mp hb
      exact Finset.mem_insert_of_mem (mem_getAllNodes_of_direct hweight)
    obtain ⟨distance, hyields, hdistance⟩ :
        ∃ distance, (measuring g.getTrusts target).Yields {source} [(source, 0)] distance ∧
          Distance g.getTrusts source target distance :=
      measuring_yields (Finset.mem_insert_self _ _) hnodes
    have hcut := hyields.map (v := g.distanceSearch target) cut (Option.map UInt32.ofNat)
      (visit_distanceSearch g target) fun _ => rfl
    exact ⟨_, hcut, distanceModulo_map hdistance⟩

/-- **Searches over trust.** For every graph, `find_trust_community` ends with the nodes
that can be reached along edges of at least the weight, and `calculate_trust_distance` ends
with the length of a shortest path along edges above 0.3, as a number of 32 bits, or with
none if there is no path. -/
theorem searches_correct (g : TrustGraph) :
    (∀ node minTrust, ∃ found, CommunityIs g node minTrust found ∧
      ∀ a, a ∈ found ↔ Relation.ReflTransGen (StrongEdge g minTrust) node a) ∧
    ∀ source target, ∃ distance, DistanceIs g source target distance ∧
      DistanceModulo g source target distance :=
  ⟨communityIs g, distanceIs g⟩

/-! ## A distance that is cut -/

/-- What a distance would have to say without the cut. -/
def DistanceExact (g : TrustGraph) (source target : NodeID) : Option UInt32 → Prop
  | some distance => IsLeast (trustedLengths g source target) distance.toNat
  | none => trustedLengths g source target = ∅

/-- A chain of so many edges. -/
def chain : Nat → TrustGraph
  | 0 => {}
  | n + 1 => (chain n).addEdge sampleTime (sampleNode n) (sampleNode (n + 1)) 1

theorem trustedEdge_chain {n : Nat} {a b : NodeID} :
    TrustedEdge (chain n) a b ↔ ∃ i < n, a = sampleNode i ∧ b = sampleNode (i + 1) := by
  induction n with
  | zero =>
    exact iff_of_false (fun ⟨_, hweight, _⟩ => nomatch hweight) fun ⟨_, hi, _⟩ => nomatch hi
  | succ n ih =>
    unfold TrustedEdge at ih ⊢
    rw [chain, Cashew.Theorems.TrustGraph.getDirectTrust_addEdge]
    by_cases hlast : sampleNode n = a ∧ sampleNode (n + 1) = b
    · rw [if_pos hlast]
      exact iff_of_true ⟨_, rfl, by decide +kernel⟩
        ⟨n, Nat.lt_succ_self n, hlast.1.symm, hlast.2.symm⟩
    · rw [if_neg hlast, ih]
      constructor
      · rintro ⟨i, hi, hedge⟩
        exact ⟨i, Nat.lt_succ_of_lt hi, hedge⟩
      · rintro ⟨i, hi, rfl, rfl⟩
        have hne : i ≠ n := by
          rintro rfl
          exact hlast ⟨rfl, rfl⟩
        exact ⟨i, by omega, rfl, rfl⟩

theorem sampleNode_inj {i j : Nat} (hi : i < 256 ^ 32) (hj : j < 256 ^ 32)
    (h : sampleNode i = sampleNode j) : i = j :=
  leBytes_inj hi hj (congrArg (fun node => node.id.bytes) h)

/-- A walk along the chain passes its nodes in their order. -/
theorem eq_of_steps_chain {n k : Nat} (hn : n < 256 ^ 32) {b : NodeID}
    (h : Steps (TrustedEdge (chain n)) (sampleNode 0) k b) : k ≤ n ∧ b = sampleNode k := by
  induction h with
  | start => exact ⟨Nat.zero_le n, rfl⟩
  | snoc _ hlast ih =>
    obtain ⟨hk, rfl⟩ := ih
    obtain ⟨i, hi, hnode, rfl⟩ := trustedEdge_chain.mp hlast
    obtain rfl := sampleNode_inj (by omega) (by omega) hnode
    exact ⟨hi, rfl⟩

theorem steps_chain {n k : Nat} (hk : k ≤ n) :
    Steps (TrustedEdge (chain n)) (sampleNode 0) k (sampleNode k) := by
  induction k with
  | zero => exact .start
  | succ k ih => exact (ih (Nat.le_of_succ_le hk)).snoc (trustedEdge_chain.mpr ⟨k, hk, rfl, rfl⟩)

/-- The chain has one path from end to end. -/
theorem trustedLengths_chain {n : Nat} (hn : n < 256 ^ 32) :
    trustedLengths (chain n) (sampleNode 0) (sampleNode n) = {n} := by
  ext k
  constructor
  · intro h
    obtain ⟨hk, hnode⟩ := eq_of_steps_chain hn h
    exact sampleNode_inj (by omega) hn hnode.symm
  · rintro rfl
    exact steps_chain le_rfl

/-- Where the cut changes its length, the distance is not the length. -/
theorem not_distanceExact_chain {n : Nat} (hn : n < 256 ^ 32) (hcut : n % 2 ^ 32 ≠ n) :
    ¬ ∃ distance, DistanceIs (chain n) (sampleNode 0) (sampleNode n) distance ∧
      DistanceExact (chain n) (sampleNode 0) (sampleNode n) distance := by
  rintro ⟨distance, hdistance, hexact⟩
  obtain ⟨answer, hanswer, hmodulo⟩ := distanceIs (chain n) (sampleNode 0) (sampleNode n)
  obtain rfl := Worklist.eq_of_rounds hanswer hdistance
  cases answer with
  | none =>
    unfold DistanceExact at hexact
    rw [trustedLengths_chain hn] at hexact
    exact Set.singleton_ne_empty n hexact
  | some cutLength =>
    unfold DistanceExact DistanceModulo at *
    rw [trustedLengths_chain hn] at hexact hmodulo
    obtain ⟨length, ⟨hlength, -⟩, hvalue⟩ := hmodulo
    have hsame : cutLength.toNat = n := hexact.1
    rw [hsame, Set.mem_singleton_iff.mp hlength] at hvalue
    exact hcut hvalue.symm

/-- At the end of a chain of `2 ^ 32` edges the distance is cut to zero. -/
theorem long_distance_cut :
    ¬ ∀ g : TrustGraph,
      (∀ node minTrust, ∃ found, CommunityIs g node minTrust found ∧
        ∀ a, a ∈ found ↔ Relation.ReflTransGen (StrongEdge g minTrust) node a) ∧
      ∀ source target, ∃ distance, DistanceIs g source target distance ∧
        DistanceExact g source target distance := by
  intro h
  exact not_distanceExact_chain (n := 2 ^ 32) (by norm_num) (by norm_num) ((h _).2 _ _)

end Cashew.Theorems.TrustSearches
