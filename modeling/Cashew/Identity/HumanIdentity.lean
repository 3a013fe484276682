import Cashew.Lib.Machine
import Cashew.Reputation.Reputation

/-!
# Human identities

`HumanIdentity` and `HumanIdentityManager` of `identity/human_identity.cpp`: the identities
that are registered, by id, and beside them a map from a node to the human it belongs to.

`register_identity` writes the nodes of the identity it is given into that map; those of an
identity that was registered under the same id before stay as they are.
`unregister_identity` erases the nodes of the identity that is registered at the time.
-/

namespace Cashew

open Cashew.Lib

/-- `HumanIdentity::Attestation`. -/
structure HumanIdentity.Attestation where
  attesterId : HumanID
  signature : Signature
  timestamp : UInt64
  claim : Text
  expiresAt : UInt64

/-- `HumanIdentity`. -/
structure HumanIdentity where
  id : HumanID
  publicKey : PublicKey
  createdAt : UInt64
  displayName : Option Text := none
  associatedNodes : Finset NodeID := ∅
  reputation : Option ReputationScore := none
  attestations : List HumanIdentity.Attestation := []

/-- `HumanIdentity::get_associated_nodes`. -/
def HumanIdentity.getAssociatedNodes (identity : HumanIdentity) : List NodeID :=
  NodeID.sorted identity.associatedNodes

/-- `HumanIdentityManager`. -/
structure HumanIdentityManager where
  identities : OrdMap HumanID HumanIdentity := .empty
  nodeToHuman : OrdMap NodeID HumanID := .empty

namespace HumanIdentityManager

variable (m : HumanIdentityManager)

/-- `HumanIdentityManager::register_identity`. -/
def registerIdentity (identity : HumanIdentity) : HumanIdentityManager :=
  { identities := m.identities.insert identity.id identity
    nodeToHuman := identity.getAssociatedNodes.foldl
      (fun nodes nodeId => nodes.insert nodeId identity.id) m.nodeToHuman }

/-- `HumanIdentityManager::unregister_identity`. -/
def unregisterIdentity (humanId : HumanID) : HumanIdentityManager :=
  match m.identities.find? humanId with
  | none => m
  | some identity =>
    { identities := m.identities.erase humanId
      nodeToHuman := identity.getAssociatedNodes.foldl OrdMap.erase m.nodeToHuman }

/-- `HumanIdentityManager::get_identity`. -/
def getIdentity (humanId : HumanID) : Option HumanIdentity := m.identities.find? humanId

/-- `HumanIdentityManager::get_identity_by_node`. -/
def getIdentityByNode (nodeId : NodeID) : Option HumanIdentity :=
  (m.nodeToHuman.find? nodeId).bind m.getIdentity

/-! ## Lookups -/

theorem find?_registerIdentity_nodes (identity : HumanIdentity) (n : NodeID) :
    (m.registerIdentity identity).nodeToHuman.find? n =
      if n ∈ identity.associatedNodes then some identity.id else m.nodeToHuman.find? n := by
  have hnodup : (identity.getAssociatedNodes.map id).Nodup := by
    rw [List.map_id]
    exact Finset.sort_nodup _ _
  split
  · rename_i hn
    exact OrdMap.find?_foldl_insert_of_mem id (fun _ => identity.id) hnodup
      (NodeID.mem_sorted.mpr hn) m.nodeToHuman
  · rename_i hn
    refine OrdMap.find?_foldl_insert_of_not_mem id (fun _ => identity.id) _ m.nodeToHuman ?_
    rintro a ha rfl
    exact hn (NodeID.mem_sorted.mp ha)

theorem getIdentity_registerIdentity (identity : HumanIdentity) (humanId : HumanID) :
    (m.registerIdentity identity).getIdentity humanId =
      if identity.id = humanId then some identity else m.getIdentity humanId :=
  OrdMap.find?_insert m.identities identity.id identity humanId

theorem getIdentity_unregisterIdentity (gone humanId : HumanID) :
    (m.unregisterIdentity gone).getIdentity humanId =
      if gone = humanId then none else m.getIdentity humanId := by
  unfold unregisterIdentity
  split
  · rename_i hnone
    by_cases hsame : gone = humanId
    · subst hsame
      rw [if_pos rfl]
      exact hnone
    · rw [if_neg hsame]
  · exact OrdMap.find?_erase m.identities gone humanId

variable {m}

theorem find?_unregisterIdentity_nodes {humanId : HumanID} {identity : HumanIdentity}
    (h : m.getIdentity humanId = some identity) (n : NodeID) :
    (m.unregisterIdentity humanId).nodeToHuman.find? n =
      if n ∈ identity.associatedNodes then none else m.nodeToHuman.find? n := by
  have hfound : m.identities.find? humanId = some identity := h
  unfold unregisterIdentity
  rw [hfound]
  show (identity.getAssociatedNodes.foldl OrdMap.erase m.nodeToHuman).find? n = _
  rw [OrdMap.find?_foldl_erase]
  exact if_congr NodeID.mem_sorted rfl rfl

theorem unregisterIdentity_of_none {humanId : HumanID} (h : m.getIdentity humanId = none) :
    m.unregisterIdentity humanId = m := by
  have hnone : m.identities.find? humanId = none := h
  unfold unregisterIdentity
  rw [hnone]

end HumanIdentityManager

/-- A call of the manager. -/
inductive IdentityCall where
  | registerIdentity (identity : HumanIdentity)
  | unregisterIdentity (humanId : HumanID)

/-- The manager driven by calls. -/
def identityMachine : Machine HumanIdentityManager IdentityCall Empty where
  step m
    | .registerIdentity identity => (m.registerIdentity identity, [])
    | .unregisterIdentity humanId => (m.unregisterIdentity humanId, [])

end Cashew
