import Cashew.Lib.Trails
import Cashew.Reputation.TrustQueries

/-!
# What the search for transitive trust finds

The items in the queue of `calculate_transitive_trust` stand for trails: a node is pushed at
the end of the trail of the item that has made it stronger. A trail that waits in the queue
finds at its node the most that any trail before it has offered the node, which may be the
strength of a path longer than the trail.

* `Finds` — what trails find, on the graph alone, from what the trails before them find;
* `exists_finds_of_along` — some trail finds no less than a path of as many edges;
* `Searched` — the invariant of the loop: its queue and its values are what trails find;
  `searched_visit` is the round that keeps it.
-/

namespace Cashew

open Cashew.Lib

namespace TrustGraph

variable {g : TrustGraph} {source : NodeID} {maxHops : Nat}

/-! ## Paths -/

/-- The node at the end of a trail from the source. -/
def endOf (source : NodeID) (trail : List NodeID) : NodeID := trail.getLastD source

@[simp] theorem endOf_nil : endOf source [] = source := rfl

@[simp] theorem endOf_concat {trail : List NodeID} {node : NodeID} :
    endOf source (trail ++ [node]) = node := List.getLastD_concat

/-- The trail is a path of the graph, and this is the product of its weights. -/
inductive Along (g : TrustGraph) (source : NodeID) : List NodeID → ℚ → Prop where
  | start : Along g source [] 1
  | snoc {trail : List NodeID} {node : NodeID} {strength weight : ℚ} :
      Along g source trail strength →
      g.getDirectTrust (endOf source trail) node = some weight →
      Along g source (trail ++ [node]) (strength * weight)

/-- All weights of the graph are in [0, 1]. -/
def UnitWeights (g : TrustGraph) : Prop :=
  ∀ a b weight, g.getDirectTrust a b = some weight → 0 ≤ weight ∧ weight ≤ 1

instance : Finite UInt8 := Finite.of_injective UInt8.toFin fun _ _ => UInt8.toFin_inj.mp

instance {n : ℕ} : Finite (FixedBytes n) :=
  have := (List.finite_length_eq UInt8 n).to_subtype
  Finite.of_injective
    (fun a : FixedBytes n => (⟨a.bytes, a.size⟩ : {bytes : List UInt8 | bytes.length = n}))
    fun _ _ h => FixedBytes.ext (congrArg Subtype.val h)

instance : Finite NodeID := Finite.of_injective NodeID.id NodeID.id_injective

theorem unit_mul {p q : ℚ} (hp : 0 ≤ p ∧ p ≤ 1) (hq : 0 ≤ q ∧ q ≤ 1) :
    0 ≤ p * q ∧ p * q ≤ 1 :=
  ⟨mul_nonneg hp.1 hq.1, mul_le_one₀ hp.2 hq.1 hq.2⟩

/-! ## What trails find -/

section Finds

variable (g source) (finds : List NodeID → ℚ → Prop)

/-- What the trails before this one offer a node: each the value it finds, times the weight of
the edge to the node. The source has its own value from the start. -/
def Offered (trail : List NodeID) (node : NodeID) (value : ℚ) : Prop :=
  node = source ∧ value = 1 ∨
    ∃ earlier strength weight, place earlier < place trail ∧ finds earlier strength ∧
      g.getDirectTrust (endOf source earlier) node = some weight ∧ value = strength * weight

/-- The trail is queued: its last edge offers more than the node was offered before. -/
def Pushed (trail : List NodeID) : Prop :=
  trail = [] ∨ ∃ before node strength weight, trail = before ++ [node] ∧ finds before strength ∧
    g.getDirectTrust (endOf source before) node = some weight ∧
    ∀ other, Offered g source finds before node other → other < strength * weight

/-- The trail is queued, and this is the most that the trails before it offer its node. -/
def FindsFrom (trail : List NodeID) (value : ℚ) : Prop :=
  Pushed g source finds trail ∧
    IsGreatest {other | Offered g source finds trail (endOf source trail) other} value

/-- What trails find at their nodes, from what the trails before them find. -/
def Finds : List NodeID → ℚ → Prop :=
  wellFounded_place.fix fun trail before =>
    FindsFrom g source (fun earlier strength =>
      ∃ hplace : place earlier < place trail, before earlier hplace strength) trail

end Finds

section

variable {trail : List NodeID} {node : NodeID} {value : ℚ}

/-- Only what comes before a trail matters to it. -/
theorem offered_congr {finds finds' : List NodeID → ℚ → Prop}
    (h : ∀ earlier, place earlier < place trail →
      ∀ value, finds earlier value ↔ finds' earlier value) :
    Offered g source finds trail node value ↔ Offered g source finds' trail node value := by
  refine or_congr_right (exists_congr fun earlier => exists_congr fun strength =>
    exists_congr fun weight => and_congr_right fun hplace => ?_)
  rw [h earlier hplace]

theorem findsFrom_congr {finds finds' : List NodeID → ℚ → Prop}
    (h : ∀ earlier, place earlier < place trail →
      ∀ value, finds earlier value ↔ finds' earlier value) :
    FindsFrom g source finds trail value ↔ FindsFrom g source finds' trail value := by
  have hoffered : ∀ other, Offered g source finds trail (endOf source trail) other ↔
      Offered g source finds' trail (endOf source trail) other := fun _ => offered_congr h
  have hpushed : Pushed g source finds trail ↔ Pushed g source finds' trail := by
    refine or_congr_right (exists_congr fun before => exists_congr fun node =>
      exists_congr fun strength => exists_congr fun weight => and_congr_right fun htrail => ?_)
    have hbefore : place before < place trail := htrail ▸ place_lt_concat before node
    rw [h before hbefore]
    refine and_congr_right fun _ => and_congr_right fun _ => forall_congr' fun other => ?_
    rw [offered_congr fun earlier hplace => h earlier (hplace.trans hbefore)]
  unfold FindsFrom
  simp only [hpushed, hoffered]

/-- What a trail finds is determined by what the trails before it find. -/
theorem finds_iff :
    Finds g source trail value ↔ FindsFrom g source (Finds g source) trail value := by
  have hunfold : Finds g source trail =
      FindsFrom g source (fun earlier strength =>
        ∃ _ : place earlier < place trail, Finds g source earlier strength) trail :=
    wellFounded_place.fix_eq _ _
  rw [hunfold]
  exact findsFrom_congr fun earlier hplace strength => exists_prop_of_true hplace

theorem Finds.pushed (h : Finds g source trail value) : Pushed g source (Finds g source) trail :=
  (finds_iff.mp h).1

theorem Finds.greatest (h : Finds g source trail value) :
    IsGreatest {other | Offered g source (Finds g source) trail (endOf source trail) other} value :=
  (finds_iff.mp h).2

theorem Finds.unique {value' : ℚ} (h : Finds g source trail value)
    (h' : Finds g source trail value') : value = value' :=
  h.greatest.unique h'.greatest

theorem Finds.unit (hunit : g.UnitWeights) (h : Finds g source trail value) :
    0 ≤ value ∧ value ≤ 1 := by
  let Within (trail : List NodeID) : Prop :=
    ∀ value, Finds g source trail value → 0 ≤ value ∧ value ≤ 1
  refine wellFounded_place.induction (C := Within) trail ?_ value h
  intro trail ih value h
  rcases h.greatest.1 with ⟨-, rfl⟩ | ⟨earlier, strength, weight, hplace, hfinds, hdirect, rfl⟩
  · exact ⟨zero_le_one, le_rfl⟩
  · exact unit_mul (ih earlier hplace strength hfinds) (hunit _ _ _ hdirect)

/-- What is offered is in [0, 1] as well. -/
theorem Offered.unit (hunit : g.UnitWeights)
    (h : Offered g source (Finds g source) trail node value) : 0 ≤ value ∧ value ≤ 1 := by
  rcases h with ⟨-, rfl⟩ | ⟨earlier, strength, weight, -, hfinds, hdirect, rfl⟩
  · exact ⟨zero_le_one, le_rfl⟩
  · exact unit_mul (hfinds.unit hunit) (hunit _ _ _ hdirect)

theorem pushed_concat_iff {before : List NodeID} {finds : List NodeID → ℚ → Prop} :
    Pushed g source finds (before ++ [node]) ↔
      ∃ strength weight, finds before strength ∧
        g.getDirectTrust (endOf source before) node = some weight ∧
        ∀ other, Offered g source finds before node other → other < strength * weight := by
  constructor
  · rintro (hnil | ⟨before', last, strength, weight, htrail, hedge⟩)
    · exact absurd hnil (List.concat_ne_nil node before)
    · obtain ⟨rfl, hlast⟩ := List.append_inj' htrail rfl
      obtain rfl := List.singleton_inj.mp hlast
      exact ⟨strength, weight, hedge⟩
  · rintro ⟨strength, weight, hedge⟩
    exact .inr ⟨before, node, strength, weight, rfl, hedge⟩

theorem finite_offered (g : TrustGraph) (source : NodeID) (trail : List NodeID) (node : NodeID) :
    {other | Offered g source (Finds g source) trail node other}.Finite := by
  -- each trail before this one makes at most one offer
  let offer : List NodeID → Set ℚ := fun earlier =>
    {other | ∃ strength weight, Finds g source earlier strength ∧
      g.getDirectTrust (endOf source earlier) node = some weight ∧ other = strength * weight}
  have hoffer : ∀ earlier, (offer earlier).Finite := by
    intro earlier
    refine Set.Subsingleton.finite ?_
    rintro _ ⟨strength, weight, hfinds, hdirect, rfl⟩ _ ⟨strength', weight', hfinds', hdirect', rfl⟩
    rw [hfinds.unique hfinds', Option.some.inj (hdirect.symm.trans hdirect')]
  refine (((finite_before trail).biUnion fun earlier _ => hoffer earlier).union
    (Set.finite_singleton 1)).subset ?_
  rintro other (⟨-, rfl⟩ | ⟨earlier, strength, weight, hplace, hfinds, hdirect, hother⟩)
  · exact .inr rfl
  · exact .inl (Set.mem_biUnion hplace ⟨strength, weight, hfinds, hdirect, hother⟩)

/-- A trail that is queued finds something, and no less than it was queued for. -/
theorem Pushed.finds (h : Pushed g source (Finds g source) trail) :
    ∃ value, Finds g source trail value := by
  have hsome : {other |
      Offered g source (Finds g source) trail (endOf source trail) other}.Nonempty := by
    rcases h with rfl | ⟨before, node, strength, weight, rfl, hfinds, hdirect, -⟩
    · exact ⟨1, .inl ⟨rfl, rfl⟩⟩
    · rw [endOf_concat]
      exact ⟨_, .inr ⟨before, strength, weight, place_lt_concat before node, hfinds, hdirect, rfl⟩⟩
  obtain ⟨value, hvalue, hgreatest⟩ :=
    Set.exists_max_image _ id (finite_offered g source trail _) hsome
  exact ⟨value, finds_iff.mpr ⟨h, hvalue, hgreatest⟩⟩

theorem finds_nil : Finds g source [] 1 := by
  refine finds_iff.mpr ⟨.inl rfl, .inl ⟨rfl, rfl⟩, ?_⟩
  rintro other (⟨-, rfl⟩ | ⟨earlier, _, _, hplace, -⟩)
  · exact le_rfl
  · exact absurd hplace (place_nil_le earlier).not_gt

/-- Where a trail makes an offer to a node, some trail with no more edges leads on to the node
and finds as much there: the first that offers as much is queued. -/
theorem exists_finds_of_offer (hunit : g.UnitWeights) {strength weight : ℚ}
    (hfinds : Finds g source trail strength)
    (hdirect : g.getDirectTrust (endOf source trail) node = some weight) :
    ∃ other found, other.length ≤ trail.length + 1 ∧ endOf source other = node ∧
      Finds g source other found ∧ strength * weight ≤ found := by
  -- the trails that offer as much, of which the first in place is queued
  let makes : Set (List NodeID) := {earlier | ∃ strength' weight',
    Finds g source earlier strength' ∧
    g.getDirectTrust (endOf source earlier) node = some weight' ∧
    strength * weight ≤ strength' * weight'}
  have htrail : trail ∈ makes := ⟨strength, weight, hfinds, hdirect, le_rfl⟩
  obtain ⟨first, ⟨strength', weight', hfinds', hdirect', hle⟩, hleast⟩ :=
    wellFounded_place.has_min makes ⟨trail, htrail⟩
  by_cases hsource : node = source
  · -- nothing is offered that is more than the source's own value
    refine ⟨[], 1, Nat.zero_le _, hsource.symm, finds_nil, ?_⟩
    exact (unit_mul (hfinds.unit hunit) (hunit _ _ _ hdirect)).2
  · have hpushed : Pushed g source (Finds g source) (first ++ [node]) := by
      refine pushed_concat_iff.mpr ⟨strength', weight', hfinds', hdirect', ?_⟩
      rintro other (⟨hnode, -⟩ | ⟨earlier, s, w, hplace, hearlier, hedge, rfl⟩)
      · exact absurd hnode hsource
      · refine lt_of_lt_of_le (not_le.mp fun hmore => ?_) hle
        exact hleast earlier ⟨s, w, hearlier, hedge, hmore⟩ hplace
    obtain ⟨found, hfound⟩ := hpushed.finds
    refine ⟨first ++ [node], found, ?_, endOf_concat, hfound, hle.trans (hfound.greatest.2 ?_)⟩
    · rw [List.length_append, List.length_singleton]
      exact Nat.succ_le_succ (length_le_of_place_le (not_lt.mp (hleast trail htrail)))
    · rw [endOf_concat]
      exact .inr ⟨first, strength', weight', place_lt_concat first node, hfinds', hdirect', rfl⟩

/-- Some trail with no more edges than a path leads to its node, and finds as much there. The
induction is on the path. -/
theorem exists_finds_of_along (hunit : g.UnitWeights) {path : List NodeID} {strength : ℚ}
    (h : Along g source path strength) :
    ∃ trail found, trail.length ≤ path.length ∧ endOf source trail = endOf source path ∧
      Finds g source trail found ∧ strength ≤ found := by
  induction h with
  | start => exact ⟨[], 1, le_rfl, rfl, finds_nil, le_rfl⟩
  | @snoc before node strength weight _ hdirect ih =>
    obtain ⟨trail, found, hlength, hend, hfinds, hle⟩ := ih
    rw [← hend] at hdirect
    obtain ⟨other, found', hlength', hend', hfinds', hle'⟩ :=
      exists_finds_of_offer hunit hfinds hdirect
    refine ⟨other, found', ?_, hend'.trans endOf_concat.symm, hfinds', le_trans ?_ hle'⟩
    · rw [List.length_append, List.length_singleton]
      exact hlength'.trans (Nat.succ_le_succ hlength)
    · exact mul_le_mul_of_nonneg_right hle (hunit _ _ _ hdirect).1

end

/-! ## One node's edges -/

/-- What the loop over the edges of a node makes of the values: it raises those of the nodes
it pushes, and the others are as high already. -/
structure Raises (edges : List (NodeID × TrustEdge)) (value : ℚ) (best best' : OrdMap NodeID ℚ)
    (pushed : List NodeID) : Prop where
  sorted : pushed.Pairwise (· < ·)
  raised : ∀ node ∈ pushed, ∃ edge, (node, edge) ∈ edges ∧
    (∀ old ∈ best.find? node, old < value * edge.trustWeight) ∧
    best'.find? node = some (value * edge.trustWeight)
  kept : ∀ node ∉ pushed, best'.find? node = best.find? node
  enough : ∀ node edge, (node, edge) ∈ edges →
    node ∈ pushed ∨ ∃ old ∈ best.find? node, value * edge.trustWeight ≤ old

theorem Raises.mem_keys {edges : List (NodeID × TrustEdge)} {value : ℚ}
    {best best' : OrdMap NodeID ℚ} {pushed : List NodeID}
    (h : Raises edges value best best' pushed) {node : NodeID} (hnode : node ∈ pushed) :
    ∃ edge, (node, edge) ∈ edges := by
  obtain ⟨edge, hedge, -⟩ := h.raised node hnode
  exact ⟨edge, hedge⟩

theorem sorted_edgesFrom (node : NodeID) :
    (g.edgesFrom node).Pairwise fun e f => e.1 < f.1 := by
  unfold edgesFrom
  cases g.edges.find? node with
  | none => exact .nil
  | some targets => exact targets.sorted

/-- An edge that makes its node stronger comes before edges to later nodes. -/
theorem Raises.cons_raised {e : NodeID × TrustEdge} {rest : List (NodeID × TrustEdge)} {value : ℚ}
    {best best' : OrdMap NodeID ℚ} {pushed : List NodeID} (hfirst : ∀ f ∈ rest, e.1 < f.1)
    (hraise : ∀ old ∈ best.find? e.1, old < value * e.2.trustWeight)
    (h : Raises rest value (best.insert e.1 (value * e.2.trustWeight)) best' pushed) :
    Raises (e :: rest) value best best' (e.1 :: pushed) := by
  have hlater : ∀ node ∈ pushed, e.1 < node := by
    intro node hnode
    obtain ⟨edge, hedge⟩ := h.mem_keys hnode
    exact hfirst _ hedge
  -- the first edge's node is below the others, so their values are the old ones
  have hothers : ∀ node, e.1 < node →
      (best.insert e.1 (value * e.2.trustWeight)).find? node = best.find? node := by
    intro node hnode
    rw [OrdMap.find?_insert, if_neg hnode.ne]
  constructor
  · exact List.pairwise_cons.mpr ⟨hlater, h.sorted⟩
  · intro node hnode
    rcases List.mem_cons.mp hnode with rfl | hnode
    · refine ⟨e.2, List.mem_cons_self, hraise, ?_⟩
      rw [h.kept e.1 fun hmem => lt_irrefl _ (hlater _ hmem), OrdMap.find?_insert_self]
    · obtain ⟨edge, hedge, hless, hfound⟩ := h.raised node hnode
      rw [hothers node (hlater node hnode)] at hless
      exact ⟨edge, List.mem_cons_of_mem e hedge, hless, hfound⟩
  · intro node hnode
    obtain ⟨hne, hnode⟩ := not_or.mp (List.mem_cons.not.mp hnode)
    rw [h.kept node hnode, OrdMap.find?_insert, if_neg (Ne.symm hne)]
  · intro node edge hedge
    rcases List.mem_cons.mp hedge with rfl | hedge
    · exact .inl List.mem_cons_self
    · rw [← hothers node (hfirst _ hedge)]
      exact (h.enough node edge hedge).imp_left (List.mem_cons_of_mem _)

/-- An edge that does not changes nothing. -/
theorem Raises.cons_kept {e : NodeID × TrustEdge} {rest : List (NodeID × TrustEdge)} {value : ℚ}
    {best best' : OrdMap NodeID ℚ} {pushed : List NodeID}
    (henough : ∃ old ∈ best.find? e.1, value * e.2.trustWeight ≤ old)
    (h : Raises rest value best best' pushed) : Raises (e :: rest) value best best' pushed := by
  constructor
  · exact h.sorted
  · intro node hnode
    obtain ⟨edge, hedge, hraised⟩ := h.raised node hnode
    exact ⟨edge, List.mem_cons_of_mem e hedge, hraised⟩
  · exact h.kept
  · intro node edge hedge
    rcases List.mem_cons.mp hedge with rfl | hedge
    · exact .inr henough
    · exact h.enough node edge hedge

/-- The loop does that; no weight is above one, so the node's own value stays. -/
theorem exists_raises {current : NodeID} (hops : Nat) {value : ℚ} (hvalue : 0 ≤ value)
    (edges : List (NodeID × TrustEdge)) (hsorted : edges.Pairwise fun e f => e.1 < f.1)
    (hunit : ∀ e ∈ edges, e.2.trustWeight ≤ 1) (best : OrdMap NodeID ℚ)
    (hbest : best.find? current = some value) (items : List (NodeID × Nat)) :
    ∃ best' pushed, Raises edges value best best' pushed ∧
      edges.foldl (relax current hops) (best, items) =
        (best', items ++ pushed.map fun node => (node, hops + 1)) := by
  induction edges generalizing best items with
  | nil =>
    refine ⟨best, [], ⟨.nil, (fun _ h => nomatch h), fun _ _ => rfl, fun _ _ h => nomatch h⟩, ?_⟩
    rw [List.map_nil, List.append_nil]
    rfl
  | cons e rest ih =>
    obtain ⟨hfirst, hrest⟩ := List.pairwise_cons.mp hsorted
    have hunit' : ∀ e ∈ rest, e.2.trustWeight ≤ 1 :=
      fun f hf => hunit f (List.mem_cons_of_mem e hf)
    rw [List.foldl_cons, relax]
    simp only [hbest, Option.getD_some]
    by_cases hraise : ∀ old ∈ best.find? e.1, old < value * e.2.trustWeight
    · rw [if_pos (by simpa [Option.all_eq_true] using hraise)]
      -- a loop at the node offers it no more than it has, so its own value is not touched
      have hcurrent : e.1 ≠ current := by
        intro heq
        have hless := hraise value (heq ▸ hbest)
        exact absurd hless (mul_le_of_le_one_right hvalue (hunit e List.mem_cons_self)).not_gt
      obtain ⟨best', pushed, h, hfold⟩ := ih hrest hunit'
        (best.insert e.1 (value * e.2.trustWeight))
        (by rw [OrdMap.find?_insert, if_neg hcurrent]; exact hbest) (items ++ [(e.1, hops + 1)])
      refine ⟨best', e.1 :: pushed, h.cons_raised hfirst hraise, ?_⟩
      rw [hfold, List.map_cons, List.append_assoc]
      rfl
    · rw [if_neg (by simpa [Option.all_eq_true] using hraise)]
      obtain ⟨best', pushed, h, hfold⟩ := ih hrest hunit' best hbest items
      refine ⟨best', pushed, h.cons_kept ?_, hfold⟩
      push Not at hraise
      exact hraise

/-- Whatever was found stays, or becomes more. -/
def Higher (best best' : OrdMap NodeID ℚ) : Prop :=
  ∀ node, ∀ value ∈ best.find? node, ∃ value' ∈ best'.find? node, value ≤ value'

namespace Raises

variable {edges : List (NodeID × TrustEdge)} {value : ℚ} {best best' : OrdMap NodeID ℚ}
  {pushed : List NodeID} {current : NodeID}

theorem higher (h : Raises edges value best best' pushed) : Higher best best' := by
  intro node old hold
  by_cases hnode : node ∈ pushed
  · obtain ⟨edge, -, hless, hfound⟩ := h.raised node hnode
    exact ⟨_, hfound, (hless old hold).le⟩
  · exact ⟨old, (h.kept node hnode).trans hold, le_rfl⟩

/-- What leaves the node has been found. -/
theorem spread (h : Raises (g.edgesFrom current) value best best' pushed) {next : NodeID}
    {weight : ℚ} (hdirect : g.getDirectTrust current next = some weight) :
    ∃ found ∈ best'.find? next, value * weight ≤ found := by
  obtain ⟨edge, hedge, rfl⟩ := getDirectTrust_eq_some_iff.mp hdirect
  by_cases hnext : next ∈ pushed
  · obtain ⟨edge', hedge', -, hfound⟩ := h.raised next hnext
    have hdirect' := getDirectTrust_eq_some_iff.mpr ⟨edge', hedge', rfl⟩
    rw [hdirect] at hdirect'
    exact ⟨_, hfound, (congrArg (value * ·) (Option.some.inj hdirect')).le⟩
  · obtain ⟨old, hold, hle⟩ := (h.enough next edge hedge).resolve_left hnext
    exact ⟨old, (h.kept next hnext).trans hold, hle⟩

/-- What is pushed is the node of an edge that makes it stronger. -/
theorem direct (h : Raises (g.edgesFrom current) value best best' pushed) {node : NodeID}
    (hnode : node ∈ pushed) :
    ∃ weight, g.getDirectTrust current node = some weight ∧
      (∀ old ∈ best.find? node, old < value * weight) ∧
      best'.find? node = some (value * weight) := by
  obtain ⟨edge, hedge, hraised⟩ := h.raised node hnode
  exact ⟨_, getDirectTrust_eq_some_iff.mpr ⟨edge, hedge, rfl⟩, hraised⟩

end Raises

/-! ## The invariant -/

/-- The trail is visited, and offers the node this. -/
def Offers (g : TrustGraph) (source : NodeID) (maxHops : Nat) (trail : List NodeID)
    (node : NodeID) (value : ℚ) : Prop :=
  ∃ strength weight, trail.length < maxHops ∧ Finds g source trail strength ∧
    g.getDirectTrust (endOf source trail) node = some weight ∧ value = strength * weight

/-- What the trails that are taken have offered a node. -/
def Made (g : TrustGraph) (source : NodeID) (maxHops : Nat) (queue : List (List NodeID))
    (node : NodeID) (value : ℚ) : Prop :=
  node = source ∧ value = 1 ∨
    ∃ trail, Taken queue trail ∧ Offers g source maxHops trail node value

/-- What holds before each round: the queue holds the trails that are queued by those taken
and not taken themselves, and the values are the greatest offers so far. -/
structure Searched (g : TrustGraph) (source : NodeID) (maxHops : Nat) (best : OrdMap NodeID ℚ)
    (queue : List (List NodeID)) : Prop where
  order : InOrder queue
  queued : ∀ trail ∈ queue, Pushed g source (Finds g source) trail
  waiting : ∀ before node, Pushed g source (Finds g source) (before ++ [node]) →
    before.length < maxHops → Taken queue before →
      Taken queue (before ++ [node]) ∨ before ++ [node] ∈ queue
  made : ∀ node, ∀ value ∈ best.find? node, Made g source maxHops queue node value
  enough : ∀ node value, Made g source maxHops queue node value →
    ∃ found ∈ best.find? node, value ≤ found

theorem searched_start : Searched g source maxHops (OrdMap.empty.insert source 1) [[]] := by
  -- nothing comes before the empty trail
  have hnone : ∀ trail : List NodeID, ¬ Taken [[]] trail := fun trail htaken =>
    absurd (htaken [] (List.mem_singleton_self _)) (place_nil_le trail).not_gt
  constructor
  · exact inOrder_singleton []
  · exact fun trail htrail => .inl (List.mem_singleton.mp htrail)
  · exact fun before node _ _ htaken => absurd htaken (hnone before)
  · intro node value hvalue
    rw [Option.mem_def, OrdMap.find?_insert] at hvalue
    split at hvalue
    · exact .inl ⟨‹source = node›.symm, (Option.some.inj hvalue).symm⟩
    · cases hvalue
  · rintro node value (⟨rfl, rfl⟩ | ⟨trail, htaken, -⟩)
    · exact ⟨1, OrdMap.find?_insert_self _ _ _, le_rfl⟩
    · exact absurd htaken (hnone trail)

namespace Searched

variable {best : OrdMap NodeID ℚ} {queue rest : List (List NodeID)} {trail front : List NodeID}
  {node : NodeID} {strength value : ℚ}

/-- What is offered to a node before the front has been made of it. -/
theorem made_of_offered (h : Searched g source maxHops best (front :: rest))
    (hshort : front.length < maxHops)
    (hoffered : Offered g source (Finds g source) front node value) :
    Made g source maxHops (front :: rest) node value := by
  refine hoffered.imp_right ?_
  rintro ⟨earlier, strength, weight, hplace, hfinds, hdirect, rfl⟩
  exact ⟨earlier, Taken.of_lt_front h.order hplace, strength, weight,
    (length_le_of_place_le hplace.le).trans_lt hshort, hfinds, hdirect, rfl⟩

/-- And the other way round. -/
theorem offered_of_made (hmade : Made g source maxHops (front :: rest) node value) :
    Offered g source (Finds g source) front node value := by
  refine hmade.imp_right ?_
  rintro ⟨earlier, htaken, strength, weight, -, hfinds, hdirect, rfl⟩
  exact ⟨earlier, strength, weight, htaken front List.mem_cons_self, hfinds, hdirect, rfl⟩

/-- The front of the queue finds at its node what it is to find. -/
theorem finds_front (h : Searched g source maxHops best (front :: rest))
    (hshort : front.length < maxHops) :
    ∃ value, best.find? (endOf source front) = some value ∧ Finds g source front value := by
  have hpushed := h.queued front List.mem_cons_self
  obtain ⟨value, hfinds⟩ := hpushed.finds
  obtain ⟨found, hfound, hle⟩ := h.enough _ _ (h.made_of_offered hshort hfinds.greatest.1)
  have hmost : found ≤ value := hfinds.greatest.2 (offered_of_made (h.made _ found hfound))
  obtain rfl := le_antisymm hle hmost
  exact ⟨value, hfound, hfinds⟩

/-- An item whose hops are used up leaves the queue. -/
theorem skip (h : Searched g source maxHops best (front :: rest))
    (hlong : maxHops ≤ front.length) : Searched g source maxHops best rest := by
  have hfirst := (List.pairwise_cons.mp h.order.sorted).1
  -- the trails that are visited all come before the front
  have hbefore : ∀ trail : List NodeID, trail.length < maxHops → Taken (front :: rest) trail :=
    fun trail hshort => Taken.of_lt_front h.order (place_lt_iff.mpr (.inl (hshort.trans_le hlong)))
  have hafter : ∀ trail, Taken (front :: rest) trail → Taken rest trail :=
    fun trail htaken other hother => htaken other (List.mem_cons_of_mem front hother)
  constructor
  · simpa using h.order.push List.Pairwise.nil
  · exact fun trail htrail => h.queued trail (List.mem_cons_of_mem front htrail)
  · intro before node hpushed hshort _
    rcases h.waiting before node hpushed hshort (hbefore before hshort) with htaken | hmem
    · exact .inl (hafter _ htaken)
    · rcases List.mem_cons.mp hmem with hfront | hrest
      · exact .inl (hfront ▸ hfirst)
      · exact .inr hrest
  · intro node value hvalue
    refine (h.made node value hvalue).imp_right ?_
    rintro ⟨trail, htaken, hoffers⟩
    exact ⟨trail, hafter trail htaken, hoffers⟩
  · intro node value hmade
    refine h.enough node value (hmade.imp_right ?_)
    rintro ⟨trail, -, strength, weight, hshort, hfinds⟩
    exact ⟨trail, hbefore trail hshort, strength, weight, hshort, hfinds⟩

section Visit

variable {best' : OrdMap NodeID ℚ} {pushed : List NodeID}

/-- The nodes that are pushed are those with a trail over the front that is queued. -/
theorem mem_pushed_iff (h : Searched g source maxHops best (front :: rest))
    (hshort : front.length < maxHops) (hfinds : Finds g source front value)
    (hraises : Raises (g.edgesFrom (endOf source front)) value best best' pushed) :
    node ∈ pushed ↔ Pushed g source (Finds g source) (front ++ [node]) := by
  constructor
  · intro hnode
    obtain ⟨weight, hdirect, hless, -⟩ := hraises.direct hnode
    refine pushed_concat_iff.mpr ⟨value, weight, hfinds, hdirect, fun other hother => ?_⟩
    obtain ⟨old, hold, hle⟩ := h.enough node other (h.made_of_offered hshort hother)
    exact hle.trans_lt (hless old hold)
  · intro hpushed
    obtain ⟨strength, weight, hfinds', hdirect, hbeats⟩ := pushed_concat_iff.mp hpushed
    obtain rfl := hfinds.unique hfinds'
    obtain ⟨edge, hedge, rfl⟩ := getDirectTrust_eq_some_iff.mp hdirect
    refine (hraises.enough node edge hedge).resolve_right ?_
    rintro ⟨old, hold, hle⟩
    exact absurd (hbeats old (offered_of_made (h.made node old hold))) hle.not_gt

/-- Of the trails that are queued, the visit takes the front and no other. The induction is on
the trail: what it goes on from is taken before it. -/
theorem taken_of_visit (h : Searched g source maxHops best (front :: rest))
    (hshort : front.length < maxHops) (hfinds : Finds g source front value)
    (hraises : Raises (g.edgesFrom (endOf source front)) value best best' pushed)
    (hpushed : Pushed g source (Finds g source) trail) (hlength : trail.length ≤ maxHops)
    (hnow : Taken (rest ++ pushed.map fun node => front ++ [node]) trail) :
    Taken (front :: rest) trail ∨ trail = front := by
  induction trail using List.reverseRecOn with
  | nil =>
    rcases (place_nil_le front).lt_or_eq with hlt | heq
    · exact .inl (Taken.of_lt_front h.order hlt)
    · exact .inr (place_injective heq)
  | append_singleton before node ih =>
    obtain ⟨_, _, hbefore, -⟩ := pushed_concat_iff.mp hpushed
    rw [List.length_append, List.length_singleton] at hlength
    have hnow' := hnow.of_le (place_lt_concat before node).le
    rcases ih hbefore.pushed (Nat.le_of_succ_le hlength) hnow' with htaken | rfl
    · refine (h.waiting before node hpushed hlength htaken).imp_right fun hmem => ?_
      rcases List.mem_cons.mp hmem with hfront | hrest
      · exact hfront
      · exact absurd le_rfl (hnow.not_mem (List.mem_append_left _ hrest))
    · -- the trail is pushed by this visit, so it waits behind it
      have hnode := (h.mem_pushed_iff hshort hfinds hraises).mpr hpushed
      exact absurd le_rfl
        (hnow.not_mem (List.mem_append_right _ (List.mem_map_of_mem hnode)))

/-- The item at the front is visited. -/
theorem visit (h : Searched g source maxHops best (front :: rest))
    (hshort : front.length < maxHops) (hfinds : Finds g source front value)
    (hraises : Raises (g.edgesFrom (endOf source front)) value best best' pushed) :
    Searched g source maxHops best' (rest ++ pushed.map fun node => front ++ [node]) := by
  have hafter : ∀ trail, Taken (front :: rest) trail →
      Taken (rest ++ pushed.map fun node => front ++ [node]) trail :=
    fun trail htaken => Taken.push h.order (htaken front List.mem_cons_self).le pushed
  constructor
  -- order: the new trails are longer than the front's and sorted among themselves
  · exact h.order.push hraises.sorted
  -- queued: by `mem_pushed_iff` the loop pushes just what the trail order demands
  · intro trail htrail
    rcases List.mem_append.mp htrail with hrest | hnew
    · exact h.queued trail (List.mem_cons_of_mem front hrest)
    · obtain ⟨node, hnode, rfl⟩ := List.mem_map.mp hnew
      exact (h.mem_pushed_iff hshort hfinds hraises).mp hnode
  -- waiting: an extension is taken, in the rest, or one of those just pushed
  · intro before node hpushed hlength hnow
    obtain ⟨_, _, hbefore, -⟩ := pushed_concat_iff.mp hpushed
    rcases h.taken_of_visit hshort hfinds hraises hbefore.pushed hlength.le hnow with htaken | rfl
    · rcases h.waiting before node hpushed hlength htaken with htaken' | hmem
      · exact .inl (hafter _ htaken')
      · rcases List.mem_cons.mp hmem with hfront | hrest
        · exact .inl (hfront ▸ Taken.push h.order le_rfl pushed)
        · exact .inr (List.mem_append_left _ hrest)
    · have hnode := (h.mem_pushed_iff hshort hfinds hraises).mpr hpushed
      exact .inr (List.mem_append_right _ (List.mem_map_of_mem hnode))
  -- made: a value that changed is the front's offer
  · intro node found hfound
    by_cases hnode : node ∈ pushed
    · obtain ⟨weight, hdirect, -, hfound'⟩ := hraises.direct hnode
      obtain rfl := Option.some.inj (hfound'.symm.trans hfound)
      exact .inr ⟨front, Taken.push h.order le_rfl pushed, value, weight, hshort, hfinds,
        hdirect, rfl⟩
    · rw [hraises.kept node hnode] at hfound
      refine (h.made node found hfound).imp_right ?_
      rintro ⟨trail, htaken, hoffers⟩
      exact ⟨trail, hafter trail htaken, hoffers⟩
  -- enough: an offer of the front is met by the loop, one before it by the old value
  · rintro node other (hsource | ⟨trail, hnow, strength, weight, hlength, htrail, hdirect, rfl⟩)
    · obtain ⟨old, hold, hle⟩ := h.enough node other (.inl hsource)
      obtain ⟨found, hfound, hle'⟩ := hraises.higher node old hold
      exact ⟨found, hfound, hle.trans hle'⟩
    · rcases h.taken_of_visit hshort hfinds hraises htrail.pushed hlength.le hnow with htaken | rfl
      · obtain ⟨old, hold, hle⟩ := h.enough node _
          (.inr ⟨trail, htaken, strength, weight, hlength, htrail, hdirect, rfl⟩)
        obtain ⟨found, hfound, hle'⟩ := hraises.higher node old hold
        exact ⟨found, hfound, hle.trans hle'⟩
      · obtain rfl := hfinds.unique htrail
        exact hraises.spread hdirect

end Visit

end Searched

/-! ## The loop -/

/-- The item that stands for a trail. -/
def itemOf (source : NodeID) (trail : List NodeID) : NodeID × Nat :=
  (endOf source trail, trail.length)

/-- The loop of `calculate_transitive_trust` over trails. -/
def tracedSearch (g : TrustGraph) (source target : NodeID) (maxHops : UInt32) :
    Worklist (OrdMap NodeID ℚ) (List NodeID) ℚ where
  visit best trail :=
    ((g.transitiveSearch target maxHops).visit best (itemOf source trail)).map id fun next =>
      (next.1, next.2.map fun item => trail ++ [item.1])
  finish := (g.transitiveSearch target maxHops).finish

/-- What is pushed has one hop more. -/
theorem hops_of_mem_relax {current : NodeID} {hops : Nat} (edges : List (NodeID × TrustEdge))
    (best : OrdMap NodeID ℚ) :
    ∀ item ∈ (edges.foldl (relax current hops) (best, [])).2, item.2 = hops + 1 := by
  refine List.foldlRecOn (motive := fun found : Relaxed => ∀ item ∈ found.2, item.2 = hops + 1)
    edges _ (fun _ h => nomatch h) fun found ih edge _ => ?_
  unfold relax
  dsimp only
  split
  · intro item hitem
    rcases List.mem_append.mp hitem with hold | hnew
    · exact ih item hold
    · rw [List.mem_singleton.mp hnew]
  · exact ih

theorem visit_itemOf (target : NodeID) (maxHops : UInt32) (best : OrdMap NodeID ℚ)
    (trail : List NodeID) :
    (g.transitiveSearch target maxHops).visit best (itemOf source trail) =
      ((g.tracedSearch source target maxHops).visit best trail).map id fun next =>
        (next.1, next.2.map (itemOf source)) := by
  unfold tracedSearch transitiveSearch
  dsimp only
  split
  · rfl
  · refine congrArg Sum.inr (Prod.ext rfl ?_)
    dsimp only
    rw [List.map_map]
    refine (List.map_id _).symm.trans (List.map_congr_left fun item hitem => ?_)
    have hhops := hops_of_mem_relax _ _ item hitem
    refine Prod.ext endOf_concat.symm ?_
    show item.2 = (trail ++ [item.1]).length
    rw [hhops, List.length_append]
    rfl

/-- A round keeps the invariant, and pushes no more than there are nodes. -/
theorem searched_visit (hunit : g.UnitWeights) {target : NodeID} {maxHops : UInt32}
    {best : OrdMap NodeID ℚ} {front : List NodeID} {rest : List (List NodeID)}
    (h : Searched g source maxHops.toNat best (front :: rest)) :
    ∃ best' nodes, (g.tracedSearch source target maxHops).visit best front =
        .inr (best', nodes.map fun node => front ++ [node]) ∧
      Searched g source maxHops.toNat best' (rest ++ nodes.map fun node => front ++ [node]) ∧
      nodes.length ≤ g.getAllNodes.card ∧ (nodes ≠ [] → front.length < maxHops.toNat) := by
  unfold tracedSearch transitiveSearch itemOf
  dsimp only
  -- the test on the hops comes before the edges are looked at
  by_cases hlong : maxHops.toNat ≤ front.length
  · rw [if_pos hlong]
    refine ⟨best, [], rfl, ?_, Nat.zero_le _, fun hne => absurd rfl hne⟩
    rw [List.map_nil, List.append_nil]
    exact h.skip hlong
  · rw [if_neg hlong]
    have hshort := not_le.mp hlong
    obtain ⟨value, hvalue, hfinds⟩ := h.finds_front hshort
    obtain ⟨best', nodes, hraises, hfold⟩ := exists_raises front.length (hfinds.unit hunit).1
      (g.edgesFrom (endOf source front)) (sorted_edgesFrom _)
      (fun edge hedge => (hunit _ _ _ (getDirectTrust_eq_some_iff.mpr ⟨_, hedge, rfl⟩)).2)
      best hvalue []
    refine ⟨best', nodes, ?_, h.visit hshort hfinds hraises, ?_, fun _ => hshort⟩
    · rw [hfold, List.nil_append]
      refine congrArg Sum.inr (Prod.ext rfl ?_)
      exact List.map_map
    -- pushed nodes are distinct ends of edges
    · have hnodup : nodes.Nodup := hraises.sorted.imp ne_of_lt
      rw [← List.toFinset_card_of_nodup hnodup]
      refine Finset.card_le_card fun node hnode => ?_
      obtain ⟨edge, hedge⟩ := hraises.mem_keys (List.mem_toFinset.mp hnode)
      exact mem_getAllNodes_of_mem_edgesFrom hedge

/-- The loop ends, with the invariant for an empty queue. -/
theorem searched_yields (hunit : g.UnitWeights) (source target : NodeID) (maxHops : UInt32) :
    ∃ best, (g.transitiveSearch target maxHops).Yields (OrdMap.empty.insert source 1)
        [(source, 0)] ((best.find? target).getD 0) ∧
      Searched g source maxHops.toNat best [] := by
  have hends : ∃ result, (g.tracedSearch source target maxHops).Yields
      (OrdMap.empty.insert source 1) [[]] result ∧
      ∃ best, Searched g source maxHops.toNat best [] ∧ result = (best.find? target).getD 0 := by
    refine Worklist.Yields.of_levels (Searched g source maxHops.toNat) List.length maxHops.toNat
      g.getAllNodes.card _ ?_ ?_ (fun best h => ⟨best, h, rfl⟩) searched_start
    · intro best front rest result h hcase
      obtain ⟨best', nodes, hvisit, -⟩ := searched_visit hunit h
      rw [hvisit] at hcase
      cases hcase
    · intro best front rest best' more h hcase
      obtain ⟨_, nodes, hvisit, hnext, hwidth, hshort⟩ := searched_visit hunit h
      rw [hvisit] at hcase
      cases hcase
      refine ⟨hnext, by rwa [List.length_map], fun trail htrail => ?_⟩
      obtain ⟨node, hnode, rfl⟩ := List.mem_map.mp htrail
      rw [List.length_append, List.length_singleton]
      exact ⟨Nat.lt_succ_self _, hshort (List.ne_nil_of_mem hnode)⟩
  obtain ⟨_, hyields, best, hsearched, rfl⟩ := hends
  exact ⟨best, hyields.map (itemOf source) id (visit_itemOf target maxHops) fun _ => rfl,
    hsearched⟩

end TrustGraph

end Cashew
