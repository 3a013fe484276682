import Cashew.Logic.Router

/-!
# Forwarding is finite

Peeling ends because what is inside a layer is shorter than the layer. One call
sends one message at most, and a request is handed on with one hop less than the
request without layers that it was. So the hops left on the copies under way are a
potential that pays for every forward, whatever the routing tables say: this is
`Machine.run_potential` on a network of routers.

The hop limit of a request with layers says nothing about the one inside, which is
a new request to the router.
-/

namespace Cashew.Theorems.RequestForwarding

open Cashew Cashew.Lib

variable {H : Bytes → Hash256}

/-! ## One call -/

/-- No sequence of layers goes on for ever. -/
theorem inside_wellFounded (H : Bytes → Hash256) (localNodeId : NodeID) :
    WellFounded fun next request : ContentRequest => request.inside H localNodeId = some next :=
  Subrelation.wf ContentRequest.layerBytes_lt_of_inside
    (InvImage.wf ContentRequest.layerBytes Nat.lt_wfRel.wf)

/-- A forward or a response, and not more than one. -/
theorem handleContentRequest_length (r : Router) (clock : Clock) (request : ContentRequest) :
    (r.handleContentRequest H clock request).2.length ≤ 1 := by
  rcases Router.handleContentRequest_cases (H := H) r clock request with
    ⟨_, _, _, hsent⟩ | hnone | ⟨_, _, hresponse⟩
  · rw [hsent]
    exact Nat.le_refl 1
  · rw [hnone]
    exact Nat.zero_le 1
  · rw [hresponse]
    exact Nat.le_refl 1

/-- What is handed on has one hop less, and one hop left at least. -/
theorem forwarded_hopLimit {r : Router} {q : ContentRequest} (h : r.Forwards q) :
    (Router.forwarded q).hopLimit.toNat + 1 = q.hopLimit.toNat ∧
      1 ≤ (Router.forwarded q).hopLimit.toNat := by
  have hallowed := h.allowed
  unfold Router.shouldForwardRequest at hallowed
  split at hallowed
  · cases hallowed
  · rename_i hhops
    have hmore : 1 < q.hopLimit.toNat := UInt8.lt_iff_toNat_lt.mp (UInt8.not_le.mp hhops)
    have hsub : (Router.forwarded q).hopLimit.toNat = q.hopLimit.toNat - 1 :=
      UInt8.toNat_sub_of_le _ _ (UInt8.le_iff_toNat_le.mpr (Nat.le_of_lt hmore))
    omega

/-! ## A network -/

/-- The requests handed to a send callback, with their addressees. -/
def forwardsOf (effects : List RouterEffect) : List (NodeID × ContentRequest) :=
  effects.filterMap fun
    | .sendRequest peer request => some (peer, request)
    | _ => none

/-- Routers, and the copies of one request that are under way between them. -/
structure Network where
  routers : NodeID → Router
  inFlight : List (NodeID × ContentRequest)

/-- What can happen next: a copy arrives, or is lost; or some router is called
with something else, an edit of its routing table or another request included. -/
inductive NetworkInput where
  | deliver (copy : Nat) (clock : Clock)
  | lose (copy : Nat)
  | call (node : NodeID) (clock : Clock) (input : RouterInput)

/-- The outputs are the forwards the request causes. -/
def networkMachine (H : Bytes → Hash256) :
    Machine Network NetworkInput (NodeID × ContentRequest) where
  step n
    | .deliver copy clock =>
      match n.inFlight[copy]? with
      | none => (n, [])
      | some (node, request) =>
        let (router, effects) := (n.routers node).handleContentRequest H clock request
        ({ routers := Function.update n.routers node router
           inFlight := n.inFlight.eraseIdx copy ++ forwardsOf effects }, forwardsOf effects)
    | .lose copy => ({ n with inFlight := n.inFlight.eraseIdx copy }, [])
    | .call node clock input =>
      ({ n with
          routers := Function.update n.routers node ((n.routers node).call H clock input).1 }, [])

/-- No copy has layers. -/
def Plain (n : Network) : Prop := ∀ copy ∈ n.inFlight, copy.2.onionLayers = []

/-- The forwards a list of copies can still pay for. -/
def hopsLeft (copies : List (NodeID × ContentRequest)) : Nat :=
  (copies.map fun copy => copy.2.hopLimit.toNat - 1).sum

theorem hopsLeft_append (front back : List (NodeID × ContentRequest)) :
    hopsLeft (front ++ back) = hopsLeft front + hopsLeft back := by
  rw [hopsLeft, List.map_append, List.sum_append]
  rfl

theorem hopsLeft_eraseIdx {copies : List (NodeID × ContentRequest)} {i : Nat} {node : NodeID}
    {request : ContentRequest} (h : copies[i]? = some (node, request)) :
    request.hopLimit.toNat - 1 + hopsLeft (copies.eraseIdx i) = hopsLeft copies := by
  obtain ⟨hi, hcopy⟩ := List.getElem?_eq_some_iff.mp h
  have hperm := (List.getElem_cons_eraseIdx_perm hi).map fun copy => copy.2.hopLimit.toNat - 1
  rw [hcopy] at hperm
  exact hperm.sum_eq

theorem hopsLeft_eraseIdx_le (copies : List (NodeID × ContentRequest)) (i : Nat) :
    hopsLeft (copies.eraseIdx i) ≤ hopsLeft copies := by
  cases h : copies[i]? with
  | none =>
    rw [List.eraseIdx_of_length_le (List.getElem?_eq_none_iff.mp h)]
  | some copy =>
    have hsplit := hopsLeft_eraseIdx h
    omega

/-- Handling a plain copy pays for what it sends. -/
theorem forwardsOf_handle (r : Router) (clock : Clock) {request : ContentRequest}
    (hplain : request.onionLayers = []) :
    let sent := forwardsOf (r.handleContentRequest H clock request).2
    (∀ copy ∈ sent, copy.2.onionLayers = []) ∧
      sent.length + hopsLeft sent ≤ request.hopLimit.toNat - 1 := by
  dsimp only
  rcases Router.handleContentRequest_cases (H := H) r clock request with
    ⟨q, hq, hforwards, hsent⟩ | hnone | ⟨_, _, hresponse⟩
  · obtain rfl := ContentRequest.eq_of_innermost hplain hq
    rw [hsent]
    refine ⟨?_, ?_⟩
    · intro copy hcopy
      rw [List.mem_singleton.mp hcopy]
      exact hplain
    · have hhops := forwarded_hopLimit hforwards
      show 1 + ((Router.forwarded q).hopLimit.toNat - 1 + 0) ≤ q.hopLimit.toNat - 1
      omega
  · rw [hnone]
    exact ⟨(fun copy hcopy => nomatch hcopy), Nat.zero_le _⟩
  · rw [hresponse]
    exact ⟨(fun copy hcopy => nomatch hcopy), Nat.zero_le _⟩

theorem mem_of_mem_eraseIdx_append {copies sent : List (NodeID × ContentRequest)} {i : Nat}
    {copy : NodeID × ContentRequest} (h : copy ∈ copies.eraseIdx i ++ sent) :
    copy ∈ copies ∨ copy ∈ sent :=
  (List.mem_append.mp h).imp_left List.mem_of_mem_eraseIdx

theorem step_plain (n : Network) (input : NetworkInput) (h : Plain n) :
    Plain ((networkMachine H).step n input).1 := by
  cases input with
  | deliver i clock =>
    simp only [networkMachine]
    cases hcopy : n.inFlight[i]? with
    | none => exact h
    | some copy =>
      obtain ⟨hsent, _⟩ := forwardsOf_handle (H := H) (n.routers copy.1) clock
        (h copy (List.mem_of_getElem? hcopy))
      intro copy' hcopy'
      rcases mem_of_mem_eraseIdx_append hcopy' with hold | hnew
      · exact h copy' hold
      · exact hsent copy' hnew
  | lose i => exact fun copy hcopy => h copy (List.mem_of_mem_eraseIdx hcopy)
  | call => exact h

/-- Every step pays for its forwards. -/
theorem step_hopsLeft (n : Network) (input : NetworkInput) (h : Plain n) :
    ((networkMachine H).step n input).2.length +
      hopsLeft ((networkMachine H).step n input).1.inFlight ≤ hopsLeft n.inFlight := by
  cases input with
  | deliver i clock =>
    simp only [networkMachine]
    cases hcopy : n.inFlight[i]? with
    | none => exact Nat.le_of_eq (Nat.zero_add _)
    | some copy =>
      obtain ⟨_, hpaid⟩ := forwardsOf_handle (H := H) (n.routers copy.1) clock
        (h copy (List.mem_of_getElem? hcopy))
      have hgone := hopsLeft_eraseIdx hcopy
      dsimp only
      rw [hopsLeft_append]
      omega
  | lose i =>
    show 0 + hopsLeft (n.inFlight.eraseIdx i) ≤ hopsLeft n.inFlight
    rw [Nat.zero_add]
    exact hopsLeft_eraseIdx_le _ i
  | call => exact Nat.le_of_eq (Nat.zero_add _)

/-- **Forwarding is finite.** Peeling ends whatever the layers hold; one call sends
at most one message; what is handed on is the innermost request, which is the
received one if that has no layers, with a smaller hop limit; and in a network of
routers in any states, with copies arriving in any order or not at all, a request
without layers causes fewer forwards than its hop limit. -/
theorem forwarding_finite (H : Bytes → Hash256) :
    (∀ localNodeId, WellFounded fun next request : ContentRequest =>
      request.inside H localNodeId = some next) ∧
    (∀ (r : Router) clock request, (r.handleContentRequest H clock request).2.length ≤ 1) ∧
    (∀ (r : Router) clock request peer fwd,
      .sendRequest peer fwd ∈ (r.handleContentRequest H clock request).2 →
        ∃ q, request.innermost H r.localNodeId = some q ∧ q.onionLayers = [] ∧
          (request.onionLayers = [] → q = request) ∧ fwd = Router.forwarded q ∧
          fwd.hopLimit < q.hopLimit) ∧
    ∀ routers peer (request : ContentRequest) inputs, request.onionLayers = [] →
      ((networkMachine H).run { routers, inFlight := [(peer, request)] } inputs).2.length ≤
        request.hopLimit.toNat - 1 := by
  refine ⟨inside_wellFounded H, handleContentRequest_length, ?_, ?_⟩
  · intro r clock request peer fwd hsent
    obtain ⟨q, hq, hforwards, _, rfl⟩ := Router.handleContentRequest_sends hsent
    have hhops := forwarded_hopLimit hforwards
    refine ⟨q, hq, (ContentRequest.innermost_spec hq).1,
      fun hplain => ContentRequest.eq_of_innermost hplain hq, rfl, ?_⟩
    rw [UInt8.lt_iff_toNat_lt]
    omega
  · intro routers peer request inputs hplain
    have hrun := (networkMachine H).run_potential (P := Plain) (fun n => hopsLeft n.inFlight)
      step_plain step_hopsLeft (s := { routers, inFlight := [(peer, request)] })
      (fun copy hcopy => List.mem_singleton.mp hcopy ▸ hplain) inputs
    have hstart : hopsLeft [(peer, request)] = request.hopLimit.toNat - 1 := Nat.add_zero _
    rw [hstart] at hrun
    omega

/-! ## A layered request -/

/-- A router that names one host for one content. -/
def relay (localNodeId host : NodeID) : Router :=
  let table := ({} : RoutingTable).addNode sampleTime host 1
  { localNodeId
    routingTable := table.advertiseContent host ⟨sampleHash [1]⟩
    callbacks := { requestSend := true } }

/-- A request for that content with all the hops there are. -/
def innerRequest : ContentRequest where
  contentHash := ⟨sampleHash [1]⟩
  requesterId := sampleNode 1
  requestId := FixedBytes.zero
  hopLimit := 16
  timestamp := 1200

/-- The same in a layer for node 2, with one hop left on the outside. -/
def outerRequest : ContentRequest :=
  { innerRequest with
    hopLimit := 1
    onionLayers := createOnionLayers sampleHash [sampleNode 2] innerRequest.toBytes }

theorem outerRequest_innermost :
    outerRequest.innermost sampleHash (sampleNode 2) = some innerRequest := by
  have hinside : outerRequest.inside sampleHash (sampleNode 2) = some innerRequest :=
    ContentRequest.inside_of_wrapped rfl rfl
  rw [ContentRequest.innermost_of_layers (by decide) (List.cons_ne_nil _ _), hinside]
  exact ContentRequest.innermost_of_plain (by decide) rfl

theorem relay_forwards : (relay (sampleNode 2) (sampleNode 3)).Forwards innerRequest :=
  ⟨by decide, by decide, rfl⟩

theorem outerRequest_sent :
    .sendRequest ((relay (sampleNode 2) (sampleNode 3)).selectNextHop (.still sampleTime)
        innerRequest.contentHash) (Router.forwarded innerRequest) ∈
      ((relay (sampleNode 2) (sampleNode 3)).handleContentRequest sampleHash (.still sampleTime)
        outerRequest).2 := by
  rw [Router.handleContentRequest_of_forwards outerRequest_innermost relay_forwards]
  exact List.mem_singleton_self _

/-- One hop comes in, fifteen go out. -/
theorem layered_hops_grow :
    ¬ ∀ (r : Router) clock request peer fwd,
      .sendRequest peer fwd ∈ (r.handleContentRequest sampleHash clock request).2 →
        fwd.hopLimit < request.hopLimit := by
  intro hall
  exact absurd (hall _ _ _ _ _ outerRequest_sent) (by decide)

/-- Two routers name each other as the host, and the request goes back and forth. -/
def cycle : Network where
  routers node := relay node (if node = sampleNode 2 then sampleNode 3 else sampleNode 2)
  inFlight := [(sampleNode 2, innerRequest)]

theorem cycle_forwards_le :
    (∃ q, outerRequest.innermost sampleHash (sampleNode 2) = some q ∧
      (Router.forwarded innerRequest).hopLimit < q.hopLimit) ∧
    ∀ inputs, ((networkMachine sampleHash).run cycle inputs).2.length ≤ 15 := by
  obtain ⟨_, _, hhops, hforwards⟩ := forwarding_finite sampleHash
  refine ⟨?_, fun inputs => hforwards cycle.routers (sampleNode 2) innerRequest inputs rfl⟩
  obtain ⟨q, hq, _, _, _, hless⟩ := hhops _ _ _ _ _ outerRequest_sent
  exact ⟨q, hq, hless⟩

end Cashew.Theorems.RequestForwarding
