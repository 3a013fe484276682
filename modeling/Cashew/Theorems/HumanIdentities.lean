import Cashew.Identity.HumanIdentity

/-!
# The human of a node

The node map is the inverse of the sets of nodes inside the identities as long as an
identity that is registered again keeps the nodes it had (`lookups_exact_iff`). A node that
it has given up stays in the map and is looked up to it.
-/

namespace Cashew.Theorems.HumanIdentities

open Cashew Cashew.Lib HumanIdentityManager

/-! ## What is registered -/

/-- What a call does to the identities that are registered. -/
def registerStep (registry : HumanID → Option HumanIdentity) :
    IdentityCall → HumanID → Option HumanIdentity
  | .registerIdentity identity => Function.update registry identity.id (some identity)
  | .unregisterIdentity humanId => Function.update registry humanId none

/-- The identities that are registered after these calls, each as it was last. -/
def registered (calls : List IdentityCall) : HumanID → Option HumanIdentity :=
  calls.foldl registerStep fun _ => none

/-- No two of the identities claim the same node. -/
def Apart (registry : HumanID → Option HumanIdentity) : Prop :=
  ∀ a b x y n, registry a = some x → registry b = some y →
    n ∈ x.associatedNodes → n ∈ y.associatedNodes → a = b

/-- The manager after these calls. -/
def manager (calls : List IdentityCall) : HumanIdentityManager :=
  (identityMachine.run {} calls).1

/-- A lookup by node finds the identities that claim the node, and no others. -/
def Exact (registry : HumanID → Option HumanIdentity) (m : HumanIdentityManager) : Prop :=
  ∀ n i, m.getIdentityByNode n = some i ↔ registry i.id = some i ∧ n ∈ i.associatedNodes

/-- An identity that is registered again has all the nodes it had. -/
def KeepsNodes (registry : HumanID → Option HumanIdentity) : IdentityCall → Prop
  | .registerIdentity identity =>
    ∀ old, registry identity.id = some old → old.associatedNodes ⊆ identity.associatedNodes
  | .unregisterIdentity _ => True

variable {calls : List IdentityCall}

theorem registerStep_self (registry : HumanID → Option HumanIdentity) (identity : HumanIdentity) :
    registerStep registry (.registerIdentity identity) identity.id = some identity :=
  Function.update_self _ _ _

theorem registered_concat (call : IdentityCall) :
    registered (calls ++ [call]) = registerStep (registered calls) call :=
  List.foldl_concat _ _ _ _

theorem manager_concat (call : IdentityCall) :
    manager (calls ++ [call]) = (identityMachine.step (manager calls) call).1 :=
  identityMachine.run_append _ _ _

/-- The manager finds by its id what is registered. -/
theorem getIdentity_manager (calls : List IdentityCall) :
    (manager calls).getIdentity = registered calls := by
  induction calls using List.reverseRecOn with
  | nil => rfl
  | append_singleton past call ih =>
    rw [manager_concat, registered_concat, ← ih]
    funext humanId
    cases call with
    | registerIdentity identity =>
      refine (getIdentity_registerIdentity _ identity humanId).trans ?_
      rw [registerStep, Function.update_apply]
      exact if_congr eq_comm rfl rfl
    | unregisterIdentity gone =>
      refine (getIdentity_unregisterIdentity _ gone humanId).trans ?_
      rw [registerStep, Function.update_apply]
      exact if_congr eq_comm rfl rfl

/-- What is registered under an id has that id, and some call registered it. -/
theorem mem_of_registered {humanId : HumanID} {x : HumanIdentity}
    (h : registered calls humanId = some x) : x.id = humanId ∧ .registerIdentity x ∈ calls := by
  induction calls using List.reverseRecOn with
  | nil => cases h
  | append_singleton past call ih =>
    have hlater : registered past humanId = some x →
        x.id = humanId ∧ .registerIdentity x ∈ past ++ [call] := fun hpast =>
      ⟨(ih hpast).1, List.mem_append_left _ (ih hpast).2⟩
    rw [registered_concat] at h
    cases call with
    | registerIdentity identity =>
      rw [registerStep, Function.update_apply] at h
      split at h
      · cases h
        exact ⟨Eq.symm ‹_›, List.mem_append_right _ List.mem_cons_self⟩
      · exact hlater h
    | unregisterIdentity gone =>
      rw [registerStep, Function.update_apply] at h
      split at h
      · cases h
      · exact hlater h

/-! ## The node map -/

/-- The node map leads to the identities that claim a node. -/
def Inverse (registry : HumanID → Option HumanIdentity) (m : HumanIdentityManager) : Prop :=
  ∀ n humanId, m.nodeToHuman.find? n = some humanId ↔
    ∃ x, registry humanId = some x ∧ n ∈ x.associatedNodes

theorem Inverse.exact (h : Inverse (registered calls) (manager calls)) :
    Exact (registered calls) (manager calls) := by
  intro n i
  unfold getIdentityByNode
  rw [getIdentity_manager, Option.bind_eq_some_iff]
  constructor
  · rintro ⟨humanId, hnode, hreg⟩
    obtain ⟨x, hx, hn⟩ := (h n humanId).mp hnode
    cases hx.symm.trans hreg
    rw [(mem_of_registered hreg).1]
    exact ⟨hreg, hn⟩
  · rintro ⟨hreg, hn⟩
    exact ⟨i.id, (h n i.id).mpr ⟨i, hreg, hn⟩, hreg⟩

/-- Registering keeps the inverse when the identity keeps its nodes and no other one claims
any of them. -/
theorem Inverse.registerIdentity {registry : HumanID → Option HumanIdentity}
    {m : HumanIdentityManager} {identity : HumanIdentity} (h : Inverse registry m)
    (hkeeps : KeepsNodes registry (.registerIdentity identity))
    (hapart : Apart (registerStep registry (.registerIdentity identity))) :
    Inverse (registerStep registry (.registerIdentity identity)) (m.registerIdentity identity) := by
  have hnew := registerStep_self registry identity
  have hother : ∀ {humanId}, humanId ≠ identity.id →
      registerStep registry (.registerIdentity identity) humanId = registry humanId :=
    fun hne => Function.update_of_ne hne _ _
  intro n humanId
  rw [find?_registerIdentity_nodes]
  by_cases hn : n ∈ identity.associatedNodes
  · rw [if_pos hn]
    constructor
    · rintro ⟨rfl⟩
      exact ⟨identity, hnew, hn⟩
    · rintro ⟨x, hx, hclaims⟩
      rw [hapart _ _ _ _ n hnew hx hn hclaims]
  · rw [if_neg hn, h n humanId]
    by_cases hsame : humanId = identity.id
    · -- a node of the old set would be one of the new set
      subst hsame
      refine iff_of_false ?_ ?_
      · rintro ⟨old, hold, hmem⟩
        exact hn (hkeeps old hold hmem)
      · rintro ⟨x, hx, hclaims⟩
        cases hnew.symm.trans hx
        exact hn hclaims
    · rw [hother hsame]

/-- Unregistering keeps the inverse when no other identity claims a node that is erased. -/
theorem Inverse.unregisterIdentity {m : HumanIdentityManager} {gone : HumanID}
    (h : Inverse m.getIdentity m) (hapart : Apart m.getIdentity) :
    Inverse (registerStep m.getIdentity (.unregisterIdentity gone))
      (m.unregisterIdentity gone) := by
  have hgone : registerStep m.getIdentity (.unregisterIdentity gone) gone = none :=
    Function.update_self _ _ _
  have hother : ∀ {humanId}, humanId ≠ gone →
      registerStep m.getIdentity (.unregisterIdentity gone) humanId = m.getIdentity humanId :=
    fun hne => Function.update_of_ne hne _ _
  intro n humanId
  cases hfound : m.getIdentity gone with
  | none =>
    rw [unregisterIdentity_of_none hfound, h n humanId]
    by_cases hsame : humanId = gone
    · rw [hsame, hgone, hfound]
    · rw [hother hsame]
  | some identity =>
    rw [find?_unregisterIdentity_nodes hfound]
    -- an erased node was claimed by the identity that goes, and by no other
    by_cases hn : n ∈ identity.associatedNodes
    · rw [if_pos hn]
      refine iff_of_false (fun heq => nomatch heq) ?_
      rintro ⟨x, hx, hclaims⟩
      by_cases hsame : humanId = gone
      · rw [hsame, hgone] at hx
        cases hx
      · rw [hother hsame] at hx
        exact hsame (hapart _ _ _ _ n hx hfound hclaims hn)
    · rw [if_neg hn, h n humanId]
      by_cases hsame : humanId = gone
      · subst hsame
        refine iff_of_false ?_ (fun ⟨x, hx, _⟩ => nomatch hgone.symm.trans hx)
        rintro ⟨x, hx, hclaims⟩
        cases hfound.symm.trans hx
        exact hn hclaims
      · rw [hother hsame]

/-! ## Runs -/

/-- The identities of every state on the way claim different nodes. -/
def AlwaysApart (calls : List IdentityCall) : Prop :=
  ∀ past, past <+: calls → Apart (registered past)

/-- Every lookup by node is exact on the way. -/
def AlwaysExact (calls : List IdentityCall) : Prop :=
  ∀ past, past <+: calls → Exact (registered past) (manager past)

/-- An identity whose lookups are exact before and after it is registered keeps its nodes. -/
theorem keepsNodes_of_exact {identity : HumanIdentity} (hbefore : Exact (registered calls)
      (manager calls))
    (hafter : Exact (registered (calls ++ [.registerIdentity identity]))
      (manager (calls ++ [.registerIdentity identity]))) :
    KeepsNodes (registered calls) (.registerIdentity identity) := by
  intro old hold n hn
  have hid : old.id = identity.id := (mem_of_registered hold).1
  by_contra hlost
  -- the map has led to this identity, and still does
  obtain ⟨humanId, hnode, hget⟩ :=
    Option.bind_eq_some_iff.mp ((hbefore n old).mpr ⟨hid ▸ hold, hn⟩)
  rw [getIdentity_manager] at hget
  have hsame : humanId = identity.id := (mem_of_registered hget).1.symm.trans hid
  subst hsame
  have hfinds : (manager (calls ++ [.registerIdentity identity])).getIdentityByNode n =
      some identity := by
    rw [manager_concat]
    show ((manager calls).registerIdentity identity).getIdentityByNode n = _
    unfold getIdentityByNode
    rw [find?_registerIdentity_nodes, if_neg hlost, hnode, Option.bind_some,
      getIdentity_registerIdentity, if_pos rfl]
  exact hlost ((hafter n identity).mp hfinds).2

theorem inverse_manager (hapart : AlwaysApart calls)
    (hkeeps : ∀ past call back, calls = past ++ call :: back → KeepsNodes (registered past) call) :
    Inverse (registered calls) (manager calls) := by
  induction calls using List.reverseRecOn with
  | nil => exact fun n humanId => iff_of_false (fun h => nomatch h) (fun ⟨_, hx, _⟩ => nomatch hx)
  | append_singleton past call ih =>
    have hpast := ih (fun front hfront => hapart front (hfront.trans (List.prefix_append _ _)))
      fun front c back hsplit => hkeeps front c (back ++ [call]) (by simp [hsplit])
    rw [manager_concat]
    rw [registered_concat]
    cases call with
    | registerIdentity identity =>
      exact hpast.registerIdentity (hkeeps past _ [] rfl)
        (registered_concat (.registerIdentity identity) ▸ hapart _ (List.prefix_refl _))
    | unregisterIdentity gone =>
      rw [← getIdentity_manager] at hpast ⊢
      exact hpast.unregisterIdentity
        (getIdentity_manager past ▸ hapart past (List.prefix_append _ _))

/-- **Nodes and humans.** In a run in which no two registered identities claim one node at
the same time, the lookups by node are exact all along just when every identity that is
registered again keeps its nodes. -/
theorem lookups_exact_iff (calls : List IdentityCall) (hApart : AlwaysApart calls) :
    AlwaysExact calls ↔
      ∀ past call back, calls = past ++ call :: back → KeepsNodes (registered past) call := by
  constructor
  · rintro hexact past call back rfl
    cases call with
    | registerIdentity identity =>
      refine keepsNodes_of_exact (hexact past (List.prefix_append _ _)) (hexact _ ?_)
      exact ⟨back, by simp⟩
    | unregisterIdentity gone => trivial
  · rintro hkeeps past ⟨rest, rfl⟩
    refine (inverse_manager ?_ ?_).exact
    · exact fun front hfront => hApart front (hfront.trans (List.prefix_append _ _))
    · exact fun front c back hsplit => hkeeps front c (back ++ rest) (by simp [hsplit])

/-! ## A human that gives up a node -/

/-- Calls that register one id only keep the identities apart. -/
theorem alwaysApart_of_id (humanId : HumanID)
    (h : ∀ x, .registerIdentity x ∈ calls → x.id = humanId) : AlwaysApart calls := by
  rintro past hpast a b x y n hx hy - -
  obtain ⟨rfl, hcallx⟩ := mem_of_registered hx
  obtain ⟨rfl, hcally⟩ := mem_of_registered hy
  rw [h x (hpast.subset hcallx), h y (hpast.subset hcally)]

/-- A human with these nodes. -/
def sampleHuman (nodes : Finset NodeID) : HumanIdentity :=
  { id := ⟨sampleHash [1]⟩, publicKey := sampleHash [2], createdAt := 0, associatedNodes := nodes }

/-- The human is registered with one set of nodes, and then with another. -/
def registeredTwice (first second : Finset NodeID) : List IdentityCall :=
  [.registerIdentity (sampleHuman first), .registerIdentity (sampleHuman second)]

theorem registeredTwice_apart (first second : Finset NodeID) :
    AlwaysApart (registeredTwice first second) := by
  refine alwaysApart_of_id (sampleHuman ∅).id fun x hx => ?_
  simp only [registeredTwice, List.mem_cons, IdentityCall.registerIdentity.injEq,
    List.not_mem_nil, or_false] at hx
  rcases hx with rfl | rfl <;> rfl

theorem registered_sampleHuman (nodes : Finset NodeID) :
    registered [.registerIdentity (sampleHuman nodes)] (sampleHuman ∅).id =
      some (sampleHuman nodes) :=
  registerStep_self (fun _ => none) (sampleHuman nodes)

/-- With a second node beside the first one, both are found. -/
theorem second_node_found :
    AlwaysExact (registeredTwice {sampleNode 1} {sampleNode 1, sampleNode 2}) := by
  refine (lookups_exact_iff _ (registeredTwice_apart _ _)).mpr ?_
  intro past call back hsplit
  match past, hsplit with
  | [], hsplit =>
    obtain ⟨rfl, -⟩ := List.cons_eq_cons.mp hsplit
    exact fun old hold => nomatch hold
  | [first], hsplit =>
    obtain ⟨rfl, hrest⟩ := List.cons_eq_cons.mp hsplit
    obtain ⟨rfl, -⟩ := List.cons_eq_cons.mp hrest
    rintro old hold
    cases (registered_sampleHuman {sampleNode 1}).symm.trans hold
    show ({sampleNode 1} : Finset NodeID) ⊆ {sampleNode 1, sampleNode 2}
    exact Finset.singleton_subset_iff.mpr (Finset.mem_insert_self _ _)
  | first :: second :: rest, hsplit =>
    have hlength := congrArg List.length hsplit
    simp [registeredTwice] at hlength

/-- Registered with a node, and then without it, the human is still found by the node. -/
theorem given_up_node_found : ¬ ∀ calls, AlwaysApart calls → AlwaysExact calls := by
  intro h
  have hexact := h _ (registeredTwice_apart {sampleNode 1} ∅)
  have hkeeps : KeepsNodes (registered [.registerIdentity (sampleHuman {sampleNode 1})])
      (.registerIdentity (sampleHuman ∅)) :=
    keepsNodes_of_exact (hexact _ (List.prefix_append _ _)) (hexact _ (List.prefix_refl _))
  have hmem := hkeeps (sampleHuman {sampleNode 1}) (registered_sampleHuman _)
    (Finset.mem_singleton_self _)
  exact Finset.notMem_empty _ hmem

end Cashew.Theorems.HumanIdentities
