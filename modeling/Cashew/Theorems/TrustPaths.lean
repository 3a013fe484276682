import Cashew.Lib.SimplePaths
import Cashew.Reputation.TrustQueries

/-!
# Paths of trust

The recursion marks the nodes on its way and unmarks them, so it enumerates (`dfs_eq`) the
ways on from a node that avoid the marked ones. It follows only edges above 0.3, and it ends
when the path has as many nodes as hops are allowed, before it looks at the last of them: a
path is found when its edges are trusted, and they and two more fit the limit
(`paths_complete_iff`).

`find_strongest_path` compares the paths that are found, and none of them unless its strength
is more than zero: a path from a node to itself has none, and one of very many edges may have
lost it in rounding (`strongest_path_found`).
-/

namespace Cashew.Theorems.TrustPaths

open Cashew Cashew.Lib Rounding SimplePaths TrustGraph

variable {g : TrustGraph} {source target : NodeID} {maxHops : UInt32} {path : List NodeID}

/-- A path along the edges of the graph on which no node comes twice. -/
structure SimplePath (g : TrustGraph) (source target : NodeID) (path : List NodeID) : Prop where
  first : path.head? = some source
  last : path.getLast? = some target
  edges : path.IsChain fun a b => (g.getDirectTrust a b).isSome = true
  nodup : path.Nodup

/-- All its edges are above 0.3. -/
def Trusted (g : TrustGraph) (path : List NodeID) : Prop :=
  path.IsChain fun a b => b ∈ g.getTrusts a

/-- The number of its edges. -/
def edgeCount (path : List NodeID) : Nat := path.length - 1

theorem Trusted.edges (h : Trusted g path) :
    path.IsChain fun a b => (g.getDirectTrust a b).isSome = true := by
  refine List.IsChain.imp (fun a b hedge => ?_) h
  obtain ⟨weight, hweight, -⟩ := mem_getTrusts.mp hedge
  rw [Option.mem_def.mp hweight]
  rfl

/-! ## The ways on from a node -/

/-- The ways on from a node to the target that avoid the visited nodes, with fewer edges than
there is room for. -/
abbrev waysTo (g : TrustGraph) (target : NodeID) :
    ℕ → NodeID → Finset NodeID → List (List NodeID) :=
  ways g.getTrusts fun node => decide (node = target)

/-- There is only one node to end at. -/
theorem only_target (a b : NodeID) (ha : decide (a = target) = true)
    (hb : decide (b = target) = true) (hne : a ≠ b) : g.getTrusts a = [] :=
  absurd ((of_decide_eq_true ha).trans (of_decide_eq_true hb).symm) hne

/-- A node's neighbours are different. -/
theorem nodup_getTrusts (node : NodeID) : (g.getTrusts node).Nodup := by
  have hkeys : ((g.edgesFrom node).map (·.1)).Nodup := by
    unfold edgesFrom
    cases g.edges.find? node with
    | none => exact List.nodup_nil
    | some targets =>
      exact List.pairwise_map.mpr (targets.sorted.imp fun h => ne_of_lt h)
  exact hkeys.sublist (List.filter_sublist.map _)

/-- A way that is found, from the source on. -/
theorem mem_waysTo {way : List NodeID} :
    way ∈ waysTo g target (maxHops.toNat - 1) source ∅ ↔
      SimplePath g source target (source :: way) ∧ Trusted g (source :: way) ∧
        edgeCount (source :: way) + 2 ≤ maxHops.toNat := by
  have hlast : (source :: way).getLast? = some ((source :: way).getLast (List.cons_ne_nil _ _)) :=
    List.getLast?_eq_some_getLast _
  have hcount : edgeCount (source :: way) = way.length := Nat.add_sub_cancel ..
  rw [mem_ways only_target nodup_getTrusts, hcount]
  constructor
  · rintro ⟨⟨hends, hnodup, -, hshort⟩, htrusted⟩
    refine ⟨⟨rfl, ?_, Trusted.edges htrusted, hnodup⟩, htrusted, by omega⟩
    rw [hlast, of_decide_eq_true hends]
  · rintro ⟨⟨-, hends, -, hnodup⟩, htrusted, hshort⟩
    refine ⟨⟨?_, hnodup, (fun _ _ => Finset.notMem_empty _), by omega⟩, htrusted⟩
    rw [hlast] at hends
    exact decide_eq_true (Option.some.inj hends)

/-! ## The recursion -/

/-- The loop over the neighbours, when every call in it adds its ways. -/
theorem foldl_dfs {maxHops : UInt32} {currentPath : List NodeID} {marked : Finset NodeID}
    {ways : NodeID → List (List NodeID)}
    (hcalls : ∀ next ∉ marked, ∀ found,
      g.dfsFindPaths target maxHops next (currentPath ++ [next]) ⟨marked, found⟩ =
        ⟨marked, found ++ (ways next).map (currentPath ++ [next] ++ ·)⟩)
    (neighbours : List NodeID) (found : List (List NodeID)) :
    neighbours.foldl (fun search next =>
        if next ∉ search.visited then
          g.dfsFindPaths target maxHops next (currentPath ++ [next]) search
        else search) ⟨marked, found⟩ =
      ⟨marked, found ++ (neighbours.flatMap fun next =>
        if next ∈ marked then [] else (ways next).map (next :: ·)).map (currentPath ++ ·)⟩ := by
  induction neighbours generalizing found with
  | nil => simp
  | cons next rest ih =>
    rw [List.foldl_cons, List.flatMap_cons]
    by_cases hmarked : next ∈ marked
    · rw [if_neg (not_not.mpr hmarked), if_pos hmarked, ih]
      rfl
    · rw [if_pos hmarked, if_neg hmarked, hcalls next hmarked, ih, List.map_append, List.map_map,
        List.append_assoc]
      simp [Function.comp_def]

/-- The recursion adds the ways on to the path, and leaves the marks as they were. -/
theorem dfs_eq {maxHops : UInt32} {room : Nat} {current : NodeID} {currentPath : List NodeID}
    {visited : Finset NodeID} (hroom : maxHops.toNat - currentPath.length = room)
    (hcurrent : current ∉ visited) (found : List (List NodeID)) :
    g.dfsFindPaths target maxHops current currentPath ⟨visited, found⟩ =
      ⟨visited, found ++ (waysTo g target room current visited).map (currentPath ++ ·)⟩ := by
  induction room generalizing current currentPath visited found with
  | zero =>
    rw [dfsFindPaths, if_pos (by omega)]
    simp [ways]
  | succ room ih =>
    rw [dfsFindPaths, if_neg (by omega), waysTo, ways]
    by_cases htarget : current = target
    · rw [if_pos htarget, if_pos (decide_eq_true htarget)]
      simp
    · rw [if_neg htarget, if_neg (by simpa using htarget)]
      have hroom' : ∀ next : NodeID, maxHops.toNat - (currentPath ++ [next]).length = room := by
        intro next
        rw [List.length_append, List.length_singleton]
        omega
      dsimp only
      have hcalls : ∀ next ∉ insert current visited, ∀ found,
          g.dfsFindPaths target maxHops next (currentPath ++ [next])
              ⟨insert current visited, found⟩ =
            ⟨insert current visited,
              found ++ (waysTo g target room next (insert current visited)).map
                (currentPath ++ [next] ++ ·)⟩ :=
        fun next hnext found => ih (hroom' next) hnext found
      rw [foldl_dfs hcalls]
      dsimp only
      rw [Finset.erase_insert hcurrent]

/-! ## The paths that are found -/

theorem findAllPaths_eq (g : TrustGraph) (source target : NodeID) (maxHops : UInt32) :
    g.findAllPaths source target maxHops =
      (waysTo g target (maxHops.toNat - 1) source ∅).map (source :: ·) := by
  unfold findAllPaths
  rw [dfs_eq rfl (Finset.notMem_empty source), List.nil_append]
  rfl

/-- They are simple, trusted, and have two hops to spare. -/
theorem mem_findAllPaths :
    path ∈ g.findAllPaths source target maxHops ↔
      SimplePath g source target path ∧ Trusted g path ∧ edgeCount path + 2 ≤ maxHops.toNat := by
  rw [findAllPaths_eq, List.mem_map]
  constructor
  · rintro ⟨way, hway, rfl⟩
    exact mem_waysTo.mp hway
  · intro h
    cases path with
    | nil => exact nomatch h.1.first
    | cons node way =>
      obtain rfl : node = source := Option.some.inj h.1.first
      exact ⟨way, mem_waysTo.mpr h, rfl⟩

theorem nodup_findAllPaths (source : NodeID) (maxHops : UInt32) :
    (g.findAllPaths source target maxHops).Nodup := by
  rw [findAllPaths_eq]
  exact (nodup_ways only_target nodup_getTrusts).map List.cons_injective

/-- What is to be found: the simple paths whose edges are at most as many as the hops, each
once. -/
def FindsAll (g : TrustGraph) (source target : NodeID) (maxHops : UInt32) : Prop :=
  (g.findAllPaths source target maxHops).Nodup ∧
    ∀ path, path ∈ g.findAllPaths source target maxHops ↔
      SimplePath g source target path ∧ edgeCount path ≤ maxHops.toNat

/-- **All paths.** `find_all_paths` finds the simple paths within the hops, each once, just
when all of them run along edges above 0.3 and have at most two edges less than there are
hops. -/
theorem paths_complete_iff (g : TrustGraph) (source target : NodeID) (maxHops : UInt32) :
    FindsAll g source target maxHops ↔
      ∀ path, SimplePath g source target path → edgeCount path ≤ maxHops.toNat →
        Trusted g path ∧ edgeCount path + 2 ≤ maxHops.toNat := by
  unfold FindsAll
  simp only [nodup_findAllPaths, mem_findAllPaths, true_and, and_congr_right_iff]
  refine forall_congr' fun path => forall_congr' fun _ => ?_
  constructor
  · exact fun h hwithin => h.mpr hwithin
  · refine fun h => ⟨fun hfound => ?_, h⟩
    omega

/-- One edge. -/
def oneEdge (weight : ℚ) : TrustGraph :=
  ({} : TrustGraph).addEdge sampleTime (sampleNode 1) (sampleNode 2) weight

/-- With one hop allowed the path of one edge is not found, and with a weight of 0.1 it is not
found within six hops. -/
theorem short_and_weak_not_found :
    sampleNode 1 ≠ sampleNode 2 ∧ ¬ FindsAll (oneEdge 1) (sampleNode 1) (sampleNode 2) 1 ∧
      ¬ FindsAll (oneEdge (1 / 10)) (sampleNode 1) (sampleNode 2) 6 := by
  have hpath : ∀ weight, SimplePath (oneEdge weight) (sampleNode 1) (sampleNode 2)
      [sampleNode 1, sampleNode 2] := by
    intro weight
    exact ⟨rfl, rfl, .cons_cons rfl (.singleton _), by decide⟩
  refine ⟨by decide, fun h => ?_, fun h => ?_⟩
  · have hmem := (h.2 _).mpr ⟨hpath 1, le_rfl⟩
    have hspare : edgeCount [sampleNode 1, sampleNode 2] + 2 ≤ (1 : UInt32).toNat :=
      (mem_findAllPaths.mp hmem).2.2
    revert hspare
    decide
  · have hmem := (h.2 _).mpr ⟨hpath (1 / 10), by decide⟩
    have hfollowed : sampleNode 2 ∈ (oneEdge (1 / 10)).getTrusts (sampleNode 1) :=
      (List.isChain_cons_cons.mp (mem_findAllPaths.mp hmem).2.1).1
    revert hfollowed
    decide +kernel

/-! ## Strength -/

/-- The paths that are compared. -/
def Compared (g : TrustGraph) (source target : NodeID) (maxHops : UInt32) (path : List NodeID) :
    Prop :=
  SimplePath g source target path ∧ Trusted g path ∧ edgeCount path + 2 ≤ maxHops.toNat

/-- Each edge leaves at least a quarter, as long as that is a normal number. -/
theorem quarter_le_strengthFrom {strength : ℚ} {k : ℕ} (hstrength : 1 / 2 ^ (2 * k) ≤ strength)
    (htrusted : Trusted g path) (hshort : k + edgeCount path ≤ 63) :
    1 / 2 ^ (2 * (k + edgeCount path)) ≤ g.strengthFrom strength path := by
  induction path generalizing strength k with
  | nil => exact hstrength
  | cons a rest ih =>
    cases rest with
    | nil => exact hstrength
    | cons b rest =>
      obtain ⟨hedge, htrusted⟩ := List.isChain_cons_cons.mp htrusted
      obtain ⟨trust, htrust, hweight⟩ := mem_getTrusts.mp hedge
      have hcount : k + edgeCount (a :: b :: rest) = k + 1 + edgeCount (b :: rest) := by
        unfold edgeCount
        simp only [List.length_cons]
        omega
      rw [hcount] at hshort ⊢
      rw [strengthFrom, Option.mem_def.mp htrust]
      refine ih (k := k + 1) (le_smallFloat (by omega) ?_) htrusted hshort
      -- a quarter is a `float`, and less than 0.3
      have hquarter : 1 / 2 ^ 2 ≤ float trust := by
        have hkept := roundTo_natCast_div (p := 24) (n := 1) (by norm_num) 2
        rw [Nat.cast_one] at hkept
        rw [← hkept]
        exact float_mono (by norm_num at hweight ⊢; linarith)
      calc (1 : ℚ) / 2 ^ (2 * (k + 1)) = 1 / 2 ^ (2 * k) * (1 / 2 ^ 2) := by
            rw [Nat.mul_succ, pow_add, one_div_mul_one_div]
        _ ≤ strength * float trust := by
            have hpower : (0 : ℚ) ≤ 1 / 2 ^ (2 * k) := by positivity
            exact mul_le_mul hstrength hquarter (by norm_num) (hpower.trans hstrength)

/-- A path between two nodes has a strength, when it has no more than 63 edges. -/
theorem calculatePathStrength_pos (hne : source ≠ target) (h : SimplePath g source target path)
    (htrusted : Trusted g path) (hshort : edgeCount path ≤ 63) :
    0 < g.calculatePathStrength path := by
  have hpower : (0 : ℚ) < 1 / 2 ^ (2 * (0 + edgeCount path)) := by positivity
  have hone : (1 : ℚ) / 2 ^ (2 * 0) ≤ 1 := by norm_num
  have hquarter := quarter_le_strengthFrom hone htrusted (by omega)
  unfold calculatePathStrength
  rw [if_neg]
  · exact hpower.trans_le hquarter
  · intro hlength
    obtain ⟨node, rfl⟩ : ∃ node, path = [node] := by
      refine List.length_eq_one_iff.mp ?_
      have hpos : 0 < path.length := by
        refine List.length_pos_iff.mpr ?_
        rintro rfl
        exact nomatch h.first
      omega
    exact hne ((Option.some.inj h.first).symm.trans (Option.some.inj h.last))

/-! ## The comparison -/

/-- The best of a number of paths, and of one before them. -/
structure BestOf (g : TrustGraph) (start : ℚ × List NodeID) (paths : List (List NodeID))
    (best : ℚ × List NodeID) : Prop where
  least : start.1 ≤ best.1
  least_all : ∀ path ∈ paths, g.calculatePathStrength path ≤ best.1
  taken : best = start ∨
    start.1 < best.1 ∧ best.2 ∈ paths ∧ best.1 = g.calculatePathStrength best.2

theorem bestOf_foldl (start : ℚ × List NodeID) (paths : List (List NodeID)) :
    BestOf g start paths (paths.foldl g.compareStrength start) := by
  induction paths generalizing start with
  | nil => exact ⟨le_rfl, (fun _ hmem => nomatch hmem), .inl rfl⟩
  | cons path rest ih =>
    obtain ⟨hleast, hall, htaken⟩ := ih (g.compareStrength start path)
    have hstep : start.1 ≤ (g.compareStrength start path).1 ∧
        g.calculatePathStrength path ≤ (g.compareStrength start path).1 := by
      unfold compareStrength
      dsimp only
      split
      · rename_i hbetter
        exact ⟨hbetter.le, le_rfl⟩
      · rename_i hworse
        exact ⟨le_rfl, not_lt.mp hworse⟩
    refine ⟨hstep.1.trans hleast, ?_, ?_⟩
    · intro other hother
      rcases List.mem_cons.mp hother with rfl | hrest
      · exact hstep.2.trans hleast
      · exact hall other hrest
    · rcases htaken with hstart | ⟨hbetter, hmem, hstrength⟩
      · rw [List.foldl_cons, hstart]
        unfold compareStrength
        dsimp only
        split
        · exact .inr ⟨‹_›, List.mem_cons_self, rfl⟩
        · exact .inl rfl
      · exact .inr ⟨hstep.1.trans_lt hbetter, List.mem_cons_of_mem _ hmem, hstrength⟩

/-! ## The answer -/

/-- A compared path that none is stronger than; nothing of it, when none has a strength. -/
def IsStrongest (g : TrustGraph) (source target : NodeID) (maxHops : UInt32)
    (answer : List NodeID) : Prop :=
  (Compared g source target maxHops answer ∧ 0 < g.calculatePathStrength answer ∧
    ∀ other, Compared g source target maxHops other →
      g.calculatePathStrength other ≤ g.calculatePathStrength answer) ∨
  (answer = [] ∧ ∀ path, Compared g source target maxHops path →
    ¬ 0 < g.calculatePathStrength path)

theorem findStrongestPath_eq_none_iff :
    g.findStrongestPath source target maxHops = none ↔
      ∀ path, ¬ Compared g source target maxHops path := by
  have hmem : ∀ path, path ∈ g.findAllPaths source target maxHops ↔
      Compared g source target maxHops path := fun _ => mem_findAllPaths
  unfold findStrongestPath
  dsimp only
  rw [ite_eq_left_iff, imp_iff_not (by simp), not_not, List.isEmpty_iff,
    List.eq_nil_iff_forall_not_mem]
  exact forall_congr' fun path => not_congr (hmem path)

theorem isStrongest_of_findStrongestPath {answer : List NodeID}
    (h : g.findStrongestPath source target maxHops = some answer) :
    IsStrongest g source target maxHops answer := by
  have hbest := bestOf_foldl (g := g) (0, []) (g.findAllPaths source target maxHops)
  unfold findStrongestPath at h
  dsimp only at h
  split at h
  · cases h
  · obtain rfl := Option.some.inj h
    rcases hbest.taken with hstart | ⟨hbetter, htaken, hstrength⟩
    · -- nothing was better than the start
      rw [hstart]
      refine .inr ⟨rfl, fun path hpath => ?_⟩
      have hle := hbest.least_all path (mem_findAllPaths.mpr hpath)
      rw [hstart] at hle
      exact not_lt.mpr hle
    · refine .inl ⟨mem_findAllPaths.mp htaken, ?_, fun other hother => ?_⟩
      · rw [← hstrength]
        exact hbetter
      · rw [← hstrength]
        exact hbest.least_all other (mem_findAllPaths.mpr hother)

/-- **The strongest path.** There is no answer just when no path is compared; otherwise the
answer is a compared path that none is stronger than, or the empty one when none has a
strength. Between two nodes and within 65 hops all of them have one. -/
theorem strongest_path_found (g : TrustGraph) (source target : NodeID) (maxHops : UInt32) :
    (g.findStrongestPath source target maxHops = none ↔
      ∀ path, ¬ Compared g source target maxHops path) ∧
    (∀ answer, g.findStrongestPath source target maxHops = some answer →
      IsStrongest g source target maxHops answer) ∧
    (source ≠ target → maxHops.toNat ≤ 65 →
      ∀ path, Compared g source target maxHops path → 0 < g.calculatePathStrength path) := by
  refine ⟨findStrongestPath_eq_none_iff, fun _ => isStrongest_of_findStrongestPath, ?_⟩
  rintro hne hhops path ⟨hpath, htrusted, hspare⟩
  exact calculatePathStrength_pos hne hpath htrusted (by omega)

end Cashew.Theorems.TrustPaths
