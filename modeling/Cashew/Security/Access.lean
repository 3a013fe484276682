import Cashew.Keys.ProofOfWork
import Cashew.Ledger.State

/-!
# Access control

`AccessControl` of `security/access.cpp`. A capability can be asked for in two
ways: `check_access` looks its policy up in a table and tests what the policy
requires, and most capabilities have a `can_*` function of their own, which tests
what it names. A granted request can be turned into a `CapabilityToken`.

`AccessDecision::token` is never set and `AccessPolicy::capability` is never read;
both are left out, with the access levels and the statistics.
-/

namespace Cashew

open Cashew.Lib

/-- `Capability`. -/
inductive Capability where
  | viewContent
  | discoverNetworks
  | relayTraffic
  | postContent
  | voteOnContent
  | createIdentity
  | hostThings
  | joinNetworks
  | routeTraffic
  | issueInvitations
  | vouchForNodes
  | createNetwork
  | moderateContent
  | revokeKeys
  | disbandNetwork
  deriving DecidableEq

instance : Enumeration Capability where
  all := [.viewContent, .discoverNetworks, .relayTraffic, .postContent, .voteOnContent,
    .createIdentity, .hostThings, .joinNetworks, .routeTraffic, .issueInvitations,
    .vouchForNodes, .createNetwork, .moderateContent, .revokeKeys, .disbandNetwork]
  code
    | .viewContent => 0
    | .discoverNetworks => 1
    | .relayTraffic => 2
    | .postContent => 3
    | .voteOnContent => 4
    | .createIdentity => 5
    | .hostThings => 6
    | .joinNetworks => 7
    | .routeTraffic => 8
    | .issueInvitations => 9
    | .vouchForNodes => 10
    | .createNetwork => 11
    | .moderateContent => 12
    | .revokeKeys => 13
    | .disbandNetwork => 14
  complete e := by cases e <;> decide
  codes_nodup := by decide

/-! ## Policies and requests -/

/-- `AccessPolicy`, with the defaults of its constructor. -/
structure AccessPolicy where
  requiredKeyType : Option (Wire KeyType) := none
  requiredKeyCount : UInt32 := 0
  minReputation : Int32 := 0
  requiresNetworkMembership : Bool := false
  requiredRole : Option Text := none
  requiresPow : Bool := false
  powDifficulty : UInt32 := 0

/-- `AccessRequest`. -/
structure AccessRequest where
  requester : NodeID
  capability : Wire Capability
  networkId : Option Hash256 := none
  thingId : Option Hash256 := none
  powSolution : Option Bytes := none

/-- `AccessDecision`. -/
structure AccessDecision where
  granted : Bool
  reason : Text

/-- `AccessDecision::allow`. -/
def AccessDecision.allow (reason : String) : AccessDecision := ⟨true, Text.ofString reason⟩

/-- `AccessDecision::deny`. -/
def AccessDecision.deny (reason : String) : AccessDecision := ⟨false, Text.ofString reason⟩

/-- `AccessControl` with the state it refers to. -/
structure AccessControl where
  stateManager : StateManager
  policies : OrdMap (Wire Capability) AccessPolicy

namespace AccessControl

/-- The table `initialize_default_policies` fills in. -/
def defaultPolicies : List (Capability × AccessPolicy) :=
  [(.viewContent, {}),
   (.discoverNetworks, {}),
   (.relayTraffic, {}),
   -- any key
   (.postContent, { requiredKeyCount := 1 }),
   (.voteOnContent, { requiredKeyCount := 1 }),
   (.createIdentity, { requiredKeyCount := 1 }),
   -- keys of one type
   (.hostThings, { requiredKeyType := some (.listed .service), requiredKeyCount := 1 }),
   (.joinNetworks, { requiredKeyType := some (.listed .network), requiredKeyCount := 1 }),
   (.routeTraffic, { requiredKeyType := some (.listed .routing), requiredKeyCount := 1 }),
   (.issueInvitations,
     { requiredKeyType := some (.listed .network), requiredKeyCount := 1,
       requiresNetworkMembership := true }),
   -- reputation
   (.vouchForNodes, { minReputation := 100, requiredKeyCount := 1 }),
   (.createNetwork,
     { minReputation := 50, requiredKeyType := some (.listed .network), requiredKeyCount := 3 }),
   (.moderateContent,
     { minReputation := 75, requiresNetworkMembership := true,
       requiredRole := some (Text.ofString "FULL") }),
   -- founders
   (.revokeKeys,
     { requiresNetworkMembership := true, requiredRole := some (Text.ofString "FOUNDER") }),
   (.disbandNetwork,
     { requiresNetworkMembership := true, requiredRole := some (Text.ofString "FOUNDER") })]

/-- `AccessControl::AccessControl`. -/
def initial (stateManager : StateManager) : AccessControl where
  stateManager
  policies := defaultPolicies.foldl (fun m e => m.insert (.listed e.1) e.2) .empty

@[simp] theorem stateManager_initial (s : StateManager) : (initial s).stateManager = s := rfl

variable (a : AccessControl)

/-- `AccessControl::set_policy`. -/
def setPolicy (capability : Wire Capability) (policy : AccessPolicy) : AccessControl :=
  { a with policies := a.policies.insert capability policy }

/-- `AccessControl::get_policy`: a capability without one has the policy that
requires nothing. -/
def getPolicy (capability : Wire Capability) : AccessPolicy :=
  (a.policies.find? capability).getD {}

/-! ## The single requirements -/

/-- `AccessControl::has_any_keys`. -/
def hasAnyKeys (nodeId : NodeID) : Bool :=
  match a.stateManager.getNodeState nodeId with
  | none => false
  | some n => n.keyBalances.entries.any fun e => 0 < e.2

/-- `AccessControl::is_network_founder`. -/
def isNetworkFounder (nodeId : NodeID) (networkId : Hash256) : Bool :=
  match a.stateManager.getNetworkState networkId with
  | none => false
  | some net => net.getMemberRole nodeId == (Text.ofString "FOUNDER").bytes

/-- `AccessControl::check_key_requirements`. -/
def checkKeyRequirements (nodeId : NodeID) (policy : AccessPolicy) : Bool :=
  if policy.requiredKeyCount = 0 then true
  else
    match policy.requiredKeyType with
    | some type => policy.requiredKeyCount ≤ a.stateManager.getNodeKeyBalance nodeId type
    | none => a.hasAnyKeys nodeId

/-- `AccessControl::check_reputation_requirements`. -/
def checkReputationRequirements (nodeId : NodeID) (policy : AccessPolicy) : Bool :=
  if policy.minReputation = 0 then true
  else policy.minReputation ≤ a.stateManager.getNodeReputation nodeId

/-- `AccessControl::check_network_requirements`. -/
def checkNetworkRequirements (nodeId : NodeID) (networkId : Hash256) (policy : AccessPolicy) :
    Bool :=
  if !policy.requiresNetworkMembership then true
  else if !a.stateManager.isNodeInNetwork nodeId networkId then false
  else
    match policy.requiredRole with
    | none => true
    | some role =>
      match a.stateManager.getNetworkState networkId with
      | none => false
      | some net => net.getMemberRole nodeId == role.bytes

/-- `AccessControl::check_pow_requirements`. -/
def checkPowRequirements (H : Bytes → Hash256) (powSolution : Bytes) (policy : AccessPolicy) :
    Bool :=
  if !policy.requiresPow then true
  else if powSolution = [] then false
  else meetsPowDifficulty (H powSolution) policy.powDifficulty

/-! ## Asking by policy -/

/-- `AccessControl::check_access`. -/
def checkAccess (H : Bytes → Hash256) (request : AccessRequest) : AccessDecision :=
  let policy := a.getPolicy request.capability
  if !a.stateManager.isNodeActive request.requester then .deny "Node is not active"
  else if !a.checkKeyRequirements request.requester policy then .deny "Insufficient keys"
  else if !a.checkReputationRequirements request.requester policy then
    .deny "Insufficient reputation"
  else
    let checkPow : AccessDecision :=
      if policy.requiresPow then
        match request.powSolution with
        | none => .deny "PoW solution required"
        | some solution =>
          if !checkPowRequirements H solution policy then .deny "Invalid PoW solution"
          else .allow "Access granted"
      else .allow "Access granted"
    if policy.requiresNetworkMembership then
      match request.networkId with
      | none => .deny "Network ID required"
      | some networkId =>
        if !a.checkNetworkRequirements request.requester networkId policy then
          .deny "Not a member of network or insufficient role"
        else checkPow
    else checkPow

/-! ## Asking by name -/

/-- `AccessControl::can_view_content`. -/
def canViewContent (_ : NodeID) : Bool := true

/-- `AccessControl::can_post_content`. -/
def canPostContent (nodeId : NodeID) : Bool := a.hasAnyKeys nodeId

/-- `AccessControl::can_post_anonymously`. -/
def canPostAnonymously (H : Bytes → Hash256) (powSolution : Bytes) : Bool :=
  checkPowRequirements H powSolution { requiresPow := true, powDifficulty := 20 }

/-- `AccessControl::can_host_things`. -/
def canHostThings (nodeId : NodeID) : Bool := a.stateManager.canNodeHostThings nodeId

/-- `AccessControl::can_join_network`. -/
def canJoinNetwork (nodeId : NodeID) (networkId : Hash256) : Bool :=
  if !a.stateManager.canNodeJoinNetworks nodeId then false
  else !a.stateManager.isNodeInNetwork nodeId networkId

/-- `AccessControl::can_route_traffic`. -/
def canRouteTraffic (nodeId : NodeID) : Bool := a.stateManager.canNodeRouteTraffic nodeId

/-- `AccessControl::can_vouch_for_node`. -/
def canVouchForNode (voucher vouchee : NodeID) : Bool :=
  if a.stateManager.getNodeReputation voucher < 100 then false
  else if !a.hasAnyKeys voucher then false
  else a.stateManager.isNodeActive vouchee

/-- `AccessControl::can_create_network`. -/
def canCreateNetwork (nodeId : NodeID) : Bool :=
  let policy := a.getPolicy (.listed .createNetwork)
  if !a.checkKeyRequirements nodeId policy then false
  else a.checkReputationRequirements nodeId policy

/-- `AccessControl::can_issue_invitation`. -/
def canIssueInvitation (nodeId : NodeID) (networkId : Hash256) : Bool :=
  let policy := a.getPolicy (.listed .issueInvitations)
  if !a.checkKeyRequirements nodeId policy then false
  else a.checkNetworkRequirements nodeId networkId policy

/-- `AccessControl::can_moderate_content`. -/
def canModerateContent (nodeId : NodeID) (networkId : Hash256) : Bool :=
  let policy := a.getPolicy (.listed .moderateContent)
  if !a.checkReputationRequirements nodeId policy then false
  else a.checkNetworkRequirements nodeId networkId policy

/-- `AccessControl::can_revoke_keys`. -/
def canRevokeKeys (nodeId : NodeID) (networkId : Hash256) : Bool :=
  a.isNetworkFounder nodeId networkId

/-- `AccessControl::can_disband_network`. -/
def canDisbandNetwork (nodeId : NodeID) (networkId : Hash256) : Bool :=
  a.isNetworkFounder nodeId networkId

end AccessControl

/-! ## Tokens -/

/-- `CapabilityToken`. -/
structure CapabilityToken where
  nodeId : NodeID
  capability : Wire Capability
  issuedAt : UInt64
  expiresAt : UInt64
  context : Bytes
  signature : Signature
  deriving DecidableEq

namespace CapabilityToken

/-- `token_signing_bytes`. -/
def signingBytes (token : CapabilityToken) : Bytes :=
  token.nodeId.id.bytes ++ ([token.capability.toByte] ++ (u64Bytes token.issuedAt ++
    (u64Bytes token.expiresAt ++ token.context)))

/-- `derive_token_signature`: the digest twice. -/
def deriveSignature (H : Bytes → Hash256) (token : CapabilityToken) : Signature :=
  let digest := H token.signingBytes
  ⟨digest.bytes ++ digest.bytes, by rw [List.length_append, digest.size]⟩

/-- `CapabilityToken::is_expired`. -/
def isExpired (token : CapabilityToken) (now : Time) : Bool := token.expiresAt ≤ now.secs

end CapabilityToken

/-- `AccessControl::issue_token`. -/
def AccessControl.issueToken (H : Bytes → Hash256) (a : AccessControl) (now : Time)
    (nodeId : NodeID) (capability : Wire Capability) (context : Option Hash256) :
    Option CapabilityToken :=
  let request : AccessRequest := { requester := nodeId, capability, networkId := context }
  if !(a.checkAccess H request).granted then none
  else
    let token : CapabilityToken :=
      { nodeId, capability, issuedAt := now.secs, expiresAt := now.secs + 3600,
        context := context.elim [] FixedBytes.bytes, signature := FixedBytes.zero }
    some { token with signature := token.deriveSignature H }

/-- `AccessControl::verify_token`. -/
def AccessControl.verifyToken (H : Bytes → Hash256) (token : CapabilityToken) (now : Time) :
    Bool :=
  if token.isExpired now then false else token.signature == token.deriveSignature H

end Cashew
