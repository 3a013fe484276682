import Cashew.Security.Access
import Cashew.Theorems.StateRelations

/-!
# Two ways of asking for permission

`check_access` refuses every node that is not active, and then tests what the
policy of the capability requires. The functions for hosting and routing ask the
state manager, which looks at the activity too. The other six test the same
requirements and leave the activity out: a node that has left keeps its keys, its
reputation and its roles, and is told that it may act (`permissions_agree_iff`).
-/

namespace Cashew.Theorems.AccessControl

open Cashew Cashew.Lib Cashew.Theorems.StateRelations

/-- The capabilities that can be asked for by name as well as by policy. -/
inductive Right where
  | postContent
  | hostThings
  | routeTraffic
  | createNetwork
  | issueInvitation
  | moderateContent
  | revokeKeys
  | disbandNetwork

namespace Right

def capability : Right → Capability
  | .postContent => .postContent
  | .hostThings => .hostThings
  | .routeTraffic => .routeTraffic
  | .createNetwork => .createNetwork
  | .issueInvitation => .issueInvitations
  | .moderateContent => .moderateContent
  | .revokeKeys => .revokeKeys
  | .disbandNetwork => .disbandNetwork

/-- What the function of that name answers. -/
def byName (a : AccessControl) (n : NodeID) (x : Hash256) : Right → Bool
  | .postContent => a.canPostContent n
  | .hostThings => a.canHostThings n
  | .routeTraffic => a.canRouteTraffic n
  | .createNetwork => a.canCreateNetwork n
  | .issueInvitation => a.canIssueInvitation n x
  | .moderateContent => a.canModerateContent n x
  | .revokeKeys => a.canRevokeKeys n x
  | .disbandNetwork => a.canDisbandNetwork n x

/-- The function takes a network. -/
def inNetwork : Right → Bool
  | .issueInvitation | .moderateContent | .revokeKeys | .disbandNetwork => true
  | _ => false

/-- The function looks at the node's activity. -/
def checksActivity : Right → Bool
  | .hostThings | .routeTraffic => true
  | _ => false

end Right

/-- A request to `check_access` for the same node and capability, and for the same
network where one is taken. -/
structure Asks (right : Right) (n : NodeID) (x : Hash256) (request : AccessRequest) : Prop where
  requester : request.requester = n
  capability : request.capability = .listed right.capability
  networkId : right.inNetwork = true → request.networkId = some x

/-- Both ways of asking give the same answer, for every capability. -/
def Agree (H : Bytes → Hash256) (a : AccessControl) (n : NodeID) (x : Hash256) : Prop :=
  ∀ right request, Asks right n x request →
    (right.byName a n x = true ↔ (a.checkAccess H request).granted = true)

/-- A node without a positive key balance that is no founder of the network, and a
full member only with a reputation below 75. -/
structure Powerless (s : StateManager) (n : NodeID) (x : Hash256) : Prop where
  keys : ∀ type, s.getNodeKeyBalance n type = 0
  founder : ∀ net ∈ s.getNetworkState x,
    net.getMemberRole n ≠ (Text.ofString "FOUNDER").bytes
  full : ∀ net ∈ s.getNetworkState x, net.getMemberRole n = (Text.ofString "FULL").bytes →
    s.getNodeReputation n < 75

/-! ## What the two ways test -/

variable {H : Bytes → Hash256} {a : AccessControl} {s : StateManager} {n : NodeID} {x : Hash256}

/-- What a policy requires beside activity and work. -/
structure Meets (a : AccessControl) (n : NodeID) (networkId : Option Hash256)
    (policy : AccessPolicy) : Prop where
  keys : a.checkKeyRequirements n policy = true
  reputation : a.checkReputationRequirements n policy = true
  network : policy.requiresNetworkMembership = true →
    ∃ x ∈ networkId, a.checkNetworkRequirements n x policy = true

theorem meets_iff {policy : AccessPolicy} :
    Meets a n (some x) policy ↔ a.checkKeyRequirements n policy = true ∧
      a.checkReputationRequirements n policy = true ∧
        (policy.requiresNetworkMembership = true →
          a.checkNetworkRequirements n x policy = true) := by
  constructor
  · rintro ⟨hkeys, hreputation, hnetwork⟩
    exact ⟨hkeys, hreputation, by simpa using hnetwork⟩
  · rintro ⟨hkeys, hreputation, hnetwork⟩
    exact ⟨hkeys, hreputation, by simpa using hnetwork⟩

/-- Without a proof of work in its policy, a request is granted to an active node
that meets the policy. -/
theorem granted_iff {request : AccessRequest}
    (hpow : (a.getPolicy request.capability).requiresPow = false) :
    (a.checkAccess H request).granted = true ↔
      a.stateManager.isNodeActive request.requester = true ∧
        Meets a request.requester request.networkId (a.getPolicy request.capability) := by
  unfold AccessControl.checkAccess
  cases hactive : a.stateManager.isNodeActive request.requester with
  | false => simp [AccessDecision.deny]
  | true =>
    cases hkeys : a.checkKeyRequirements request.requester (a.getPolicy request.capability) with
    | false =>
      refine iff_of_false (by simp [hkeys, AccessDecision.deny]) ?_
      rintro ⟨_, hmeets⟩
      exact absurd (hkeys.symm.trans hmeets.keys) Bool.false_ne_true
    | true =>
      cases hrep : a.checkReputationRequirements request.requester
          (a.getPolicy request.capability) with
      | false =>
        refine iff_of_false (by simp [hkeys, hrep, AccessDecision.deny]) ?_
        rintro ⟨_, hmeets⟩
        exact absurd (hrep.symm.trans hmeets.reputation) Bool.false_ne_true
      | true =>
        -- only the network is left
        have hmeets : Meets a request.requester request.networkId
            (a.getPolicy request.capability) ↔
              ((a.getPolicy request.capability).requiresNetworkMembership = true →
                ∃ x ∈ request.networkId, a.checkNetworkRequirements request.requester x
                  (a.getPolicy request.capability) = true) :=
          ⟨Meets.network, fun h => ⟨hkeys, hrep, h⟩⟩
        rw [hmeets]
        cases hnet : (a.getPolicy request.capability).requiresNetworkMembership with
        | false => simp [hkeys, hrep, hpow, hnet, AccessDecision.allow]
        | true =>
          cases hid : request.networkId with
          | none => simp [hkeys, hrep, hnet, AccessDecision.deny]
          | some networkId =>
            cases hcheck : a.checkNetworkRequirements request.requester networkId
                (a.getPolicy request.capability) with
            | false => simp [hkeys, hrep, hnet, hcheck, AccessDecision.deny]
            | true => simp [hkeys, hrep, hpow, hnet, hcheck, AccessDecision.allow]

/-- The constructor sets the policies of the table. -/
theorem getPolicy_initial {capability : Capability} {policy : AccessPolicy}
    (h : (capability, policy) ∈ AccessControl.defaultPolicies) :
    (AccessControl.initial s).getPolicy (.listed capability) = policy := by
  have hkeys : (AccessControl.defaultPolicies.map fun e => (Wire.listed e.1)).Nodup := by decide
  unfold AccessControl.getPolicy AccessControl.initial
  rw [OrdMap.find?_foldl_insert_of_mem _ _ hkeys h]
  rfl

/-- The policy of the capability. -/
def Right.policy : Right → AccessPolicy
  | .postContent => { requiredKeyCount := 1 }
  | .hostThings => { requiredKeyType := some (.listed .service), requiredKeyCount := 1 }
  | .routeTraffic => { requiredKeyType := some (.listed .routing), requiredKeyCount := 1 }
  | .createNetwork =>
    { minReputation := 50, requiredKeyType := some (.listed .network), requiredKeyCount := 3 }
  | .issueInvitation =>
    { requiredKeyType := some (.listed .network), requiredKeyCount := 1,
      requiresNetworkMembership := true }
  | .moderateContent =>
    { minReputation := 75, requiresNetworkMembership := true,
      requiredRole := some (Text.ofString "FULL") }
  | .revokeKeys | .disbandNetwork =>
    { requiresNetworkMembership := true, requiredRole := some (Text.ofString "FOUNDER") }

theorem getPolicy_right (right : Right) :
    (AccessControl.initial s).getPolicy (.listed right.capability) = right.policy := by
  cases right <;> exact getPolicy_initial
    (by simp [AccessControl.defaultPolicies, Right.policy, Right.capability])

/-- Where a network is required the function takes one. -/
theorem requiresNetwork_iff (right : Right) :
    right.policy.requiresNetworkMembership = right.inNetwork := by
  cases right <;> rfl

/-- A capability is granted to an active node that meets its policy. -/
theorem granted_right_iff {right : Right} {request : AccessRequest}
    (h : Asks right n x request) :
    ((AccessControl.initial s).checkAccess H request).granted = true ↔
      s.isNodeActive n = true ∧ Meets (AccessControl.initial s) n (some x) right.policy := by
  have hpow : ((AccessControl.initial s).getPolicy request.capability).requiresPow = false := by
    rw [h.capability, getPolicy_right]
    cases right <;> rfl
  rw [granted_iff hpow, h.capability, h.requester, getPolicy_right]
  refine and_congr_right fun _ => ?_
  cases hnet : right.inNetwork with
  | true => rw [h.networkId hnet]
  | false =>
    have hnone : right.policy.requiresNetworkMembership = false := by
      rw [requiresNetwork_iff, hnet]
    constructor
    · exact fun hmeets => ⟨hmeets.keys, hmeets.reputation, by simp [hnone]⟩
    · exact fun hmeets => ⟨hmeets.keys, hmeets.reputation, by simp [hnone]⟩

/-- A node with a role is a member. -/
theorem mem_of_getMemberRole {net : NetworkState} (hnet : RolesExact net) {role : Bytes}
    (hknown : role ≠ (Text.ofString "UNKNOWN").bytes) (h : net.getMemberRole n = role) :
    n ∈ net.members := by
  rw [← hnet n]
  cases hfind : net.memberRoles.find? n with
  | some found => rfl
  | none =>
    rw [NetworkState.getMemberRole, hfind] at h
    exact absurd h.symm hknown

theorem full_known : (Text.ofString "FULL").bytes ≠ (Text.ofString "UNKNOWN").bytes := by
  decide

theorem founder_known : (Text.ofString "FOUNDER").bytes ≠ (Text.ofString "UNKNOWN").bytes := by
  decide

/-- A role that a policy requires is enough for membership. -/
theorem checkNetworkRequirements_role (hroles : s.networks.AllValues RolesExact)
    (policy : AccessPolicy) {role : Text} (hknown : role.bytes ≠ (Text.ofString "UNKNOWN").bytes)
    (hmember : policy.requiresNetworkMembership = true) (hrole : policy.requiredRole = some role) :
    (AccessControl.initial s).checkNetworkRequirements n x policy = true ↔
      ∃ net ∈ s.getNetworkState x, net.getMemberRole n = role.bytes := by
  unfold AccessControl.checkNetworkRequirements
  rw [hmember, hrole, AccessControl.stateManager_initial]
  unfold StateManager.isNodeInNetwork StateManager.getNetworkState
  cases hfind : s.networks.find? x with
  | none => simp
  | some net =>
    have hmem := mem_of_getMemberRole (n := n) (hroles x net hfind) hknown
    by_cases heq : net.getMemberRole n = role.bytes
    · simp [NetworkState.hasMember, hmem heq, heq]
    · simp [heq]

theorem isNetworkFounder_iff :
    (AccessControl.initial s).isNetworkFounder n x = true ↔
      ∃ net ∈ s.getNetworkState x, net.getMemberRole n = (Text.ofString "FOUNDER").bytes := by
  unfold AccessControl.isNetworkFounder
  rw [AccessControl.stateManager_initial]
  cases hfind : s.getNetworkState x <;> simp

/-- The state manager's own tests are activity and a balance. -/
theorem any_hasKeyType_iff (type : Wire KeyType) :
    ((s.nodes.find? n).any fun node => node.isActive && node.hasKeyType type 1) = true ↔
      s.isNodeActive n = true ∧ 1 ≤ s.getNodeKeyBalance n type := by
  unfold StateManager.isNodeActive StateManager.getNodeKeyBalance NodeState.hasKeyType
  cases hfind : s.nodes.find? n with
  | none => simp
  | some node =>
    cases hbalance : node.keyBalances.find? type <;> simp [hbalance]

/-- The functions of that name test the policy of their capability, and two of them
the activity. -/
theorem byName_iff (hroles : s.networks.AllValues RolesExact) (right : Right) :
    right.byName (AccessControl.initial s) n x = true ↔
      (right.checksActivity = true → s.isNodeActive n = true) ∧
        Meets (AccessControl.initial s) n (some x) right.policy := by
  have hbalance : ∀ type, (AccessControl.initial s).checkKeyRequirements n
      { requiredKeyType := some type, requiredKeyCount := 1 } = true ↔
        1 ≤ s.getNodeKeyBalance n type :=
    fun type => decide_eq_true_iff
  rw [meets_iff]
  cases right with
  | postContent =>
    simp [Right.byName, Right.checksActivity, Right.policy, AccessControl.canPostContent,
      AccessControl.checkKeyRequirements, AccessControl.checkReputationRequirements]
  | hostThings =>
    exact (any_hasKeyType_iff _).trans (by
      simp [Right.checksActivity, Right.policy, hbalance,
        AccessControl.checkReputationRequirements])
  | routeTraffic =>
    exact (any_hasKeyType_iff _).trans (by
      simp [Right.checksActivity, Right.policy, hbalance,
        AccessControl.checkReputationRequirements])
  | createNetwork =>
    -- the policy comes out of the table, where nothing has been set
    have hpolicy := getPolicy_right (s := s) .createNetwork
    simp only [Right.capability] at hpolicy
    simp [Right.byName, Right.checksActivity, AccessControl.canCreateNetwork, hpolicy,
      requiresNetwork_iff, Right.inNetwork]
  | issueInvitation =>
    have hpolicy := getPolicy_right (s := s) .issueInvitation
    simp only [Right.capability] at hpolicy
    have hreputation : (AccessControl.initial s).checkReputationRequirements n
        Right.issueInvitation.policy = true := rfl
    simp [Right.byName, Right.checksActivity, AccessControl.canIssueInvitation, hpolicy,
      requiresNetwork_iff, Right.inNetwork, hreputation]
  | moderateContent =>
    have hpolicy := getPolicy_right (s := s) .moderateContent
    simp only [Right.capability] at hpolicy
    have hkeys : (AccessControl.initial s).checkKeyRequirements n
        Right.moderateContent.policy = true := rfl
    simp [Right.byName, Right.checksActivity, AccessControl.canModerateContent, hpolicy,
      requiresNetwork_iff, Right.inNetwork, hkeys]
  -- the founder is asked for by its role, which the members have
  | revokeKeys | disbandNetwork =>
    show (AccessControl.initial s).isNetworkFounder n x = true ↔ _
    rw [isNetworkFounder_iff, checkNetworkRequirements_role hroles _ founder_known rfl rfl]
    simp [Right.checksActivity, Right.policy, AccessControl.checkKeyRequirements,
      AccessControl.checkReputationRequirements]

/-! ## Nodes that are not active -/

theorem hasAnyKeys_iff :
    (AccessControl.initial s).hasAnyKeys n = true ↔ ∃ type, 0 < s.getNodeKeyBalance n type := by
  unfold AccessControl.hasAnyKeys StateManager.getNodeKeyBalance StateManager.getNodeState
  rw [AccessControl.stateManager_initial]
  cases hfind : s.nodes.find? n with
  | none => simp
  | some node =>
    simp only [List.any_eq_true, decide_eq_true_eq]
    constructor
    · rintro ⟨⟨type, count⟩, hmem, hpos⟩
      exact ⟨type, by rw [OrdMap.mem_entries.mp hmem]; exact hpos⟩
    · rintro ⟨type, hpos⟩
      cases hbalance : node.keyBalances.find? type with
      | none =>
        rw [hbalance] at hpos
        exact absurd hpos (by decide)
      | some count =>
        rw [hbalance] at hpos
        exact ⟨(type, count), OrdMap.mem_entries.mpr hbalance, hpos⟩

/-- A key requirement that a node meets is a positive balance. -/
theorem pos_of_checkKeyRequirements {policy : AccessPolicy} (hcount : policy.requiredKeyCount ≠ 0)
    (h : (AccessControl.initial s).checkKeyRequirements n policy = true) :
    ∃ type, 0 < s.getNodeKeyBalance n type := by
  unfold AccessControl.checkKeyRequirements at h
  rw [if_neg hcount] at h
  cases htype : policy.requiredKeyType with
  | none =>
    rw [htype] at h
    exact hasAnyKeys_iff.mp h
  | some type =>
    rw [htype] at h
    have hle : policy.requiredKeyCount ≤ s.getNodeKeyBalance n type := decide_eq_true_iff.mp h
    exact ⟨type, UInt32.lt_of_lt_of_le (UInt32.pos_iff_ne_zero.mpr hcount) hle⟩

/-- A node is powerless when it meets none of the policies that are tested without
its activity. -/
theorem powerless_iff (hroles : s.networks.AllValues RolesExact) :
    Powerless s n x ↔ ∀ right : Right, right.checksActivity = false →
      ¬ Meets (AccessControl.initial s) n (some x) right.policy := by
  have hfull := checkNetworkRequirements_role (n := n) (x := x) hroles
    Right.moderateContent.policy full_known rfl rfl
  have hfounder := checkNetworkRequirements_role (n := n) (x := x) hroles
    Right.revokeKeys.policy founder_known rfl rfl
  have hreputation : (AccessControl.initial s).checkReputationRequirements n
      Right.moderateContent.policy = true ↔ 75 ≤ s.getNodeReputation n := decide_eq_true_iff
  constructor
  · intro h right hright hmeets
    -- it has no keys, so the policy asks for none
    have hkeys : right.policy.requiredKeyCount = 0 := by
      by_contra hcount
      obtain ⟨type, hpos⟩ := pos_of_checkKeyRequirements hcount hmeets.keys
      rw [h.keys type] at hpos
      exact absurd hpos (by decide)
    cases right with
    | moderateContent =>
      obtain ⟨net, hnet, hrole⟩ := hfull.mp ((meets_iff.mp hmeets).2.2 rfl)
      have hlow := h.full net hnet hrole
      have hhigh := hreputation.mp hmeets.reputation
      exact absurd hhigh (Int32.not_le.mpr hlow)
    | revokeKeys | disbandNetwork =>
      obtain ⟨net, hnet, hrole⟩ := hfounder.mp ((meets_iff.mp hmeets).2.2 rfl)
      exact h.founder net hnet hrole
    -- each of these asks for activity or for a key
    | hostThings | routeTraffic => cases hright
    | postContent | createNetwork | issueInvitation => cases hkeys
  · intro h
    refine ⟨?_, ?_, ?_⟩
    · intro type
      by_contra hne
      -- posting asks for any key and nothing else
      refine h .postContent rfl ⟨?_, rfl, by simp [Right.policy]⟩
      exact hasAnyKeys_iff.mpr ⟨type, UInt32.pos_iff_ne_zero.mpr hne⟩
    · intro net hnet hrole
      -- revoking asks for the founder's role and nothing else
      refine h .revokeKeys rfl ⟨rfl, rfl, fun _ => ⟨x, rfl, ?_⟩⟩
      exact hfounder.mpr ⟨net, hnet, hrole⟩
    · intro net hnet hrole
      by_contra hlow
      -- moderating asks for the role and the reputation
      refine h .moderateContent rfl ⟨rfl, ?_, fun _ => ⟨x, rfl, ?_⟩⟩
      · exact hreputation.mpr (Int32.not_lt.mp hlow)
      · exact hfull.mpr ⟨net, hnet, hrole⟩

theorem agree_iff (hroles : s.networks.AllValues RolesExact) :
    Agree H (AccessControl.initial s) n x ↔ s.isNodeActive n = true ∨ Powerless s n x := by
  rw [powerless_iff hroles]
  constructor
  · intro hagree
    cases hactive : s.isNodeActive n with
    | true => exact .inl rfl
    | false =>
      refine .inr fun right hright hmeets => ?_
      have hasks : Asks right n x
          { requester := n, capability := .listed right.capability, networkId := some x } :=
        ⟨rfl, rfl, fun _ => rfl⟩
      have hnamed := (byName_iff hroles right).mpr ⟨by simp [hright], hmeets⟩
      have hgranted := (granted_right_iff (H := H) hasks).mp ((hagree _ _ hasks).mp hnamed)
      exact absurd (hactive.symm.trans hgranted.1) Bool.false_ne_true
  · intro hcase right request hasks
    rw [byName_iff hroles, granted_right_iff hasks]
    refine and_congr_left fun hmeets => ?_
    cases hright : right.checksActivity with
    | true => simp
    | false =>
      rcases hcase with hactive | hpowerless
      · simp [hactive]
      · exact absurd hmeets (hpowerless right hright)

/-- **Two ways of asking.** In every state that a run of events, activity updates and
cleanups reaches from the empty one, and under the default policies, asking by name
and asking by policy agree about a node and a network exactly when the node is
active or powerless. -/
theorem permissions_agree_iff (H : Bytes → Hash256) (inputs : List StateInput) (n : NodeID)
    (x : Hash256) :
    Agree H (AccessControl.initial (stateMachine.run {} inputs).1) n x ↔
      (stateMachine.run {} inputs).1.isNodeActive n = true ∨
        Powerless (stateMachine.run {} inputs).1 n x := by
  refine agree_iff (stateMachine.run_invariant step_rolesExact ?_ inputs)
  intro networkId net hnet
  cases hnet

/-- Node 1 joins, is issued a key, and leaves. -/
def leavesWithKey : List StateInput :=
  [sampleEvent .nodeJoined [],
    sampleEvent .keyIssued (KeyIssuanceData.toBytes
      { keyType := .listed .identity, count := 1, method := .listed .pow,
        proof := FixedBytes.zero }),
    sampleEvent .nodeLeft []]

/-- It may post by name and not by policy. -/
theorem left_node_may_post :
    ¬ Agree sampleHash (AccessControl.initial (stateMachine.run {} leavesWithKey).1)
      (sampleNode 1) FixedBytes.zero := by
  intro hagree
  have hasks : Asks .postContent (sampleNode 1) FixedBytes.zero
      { requester := sampleNode 1, capability := .listed .postContent } :=
    ⟨rfl, rfl, fun h => by cases h⟩
  have hnamed : Right.postContent.byName
      (AccessControl.initial (stateMachine.run {} leavesWithKey).1) (sampleNode 1)
        FixedBytes.zero = true := by
    decide
  have hgranted := (hagree _ _ hasks).mp hnamed
  revert hgranted
  decide

end Cashew.Theorems.AccessControl
