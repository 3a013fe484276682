import Cashew.Network.Router

/-!
# What a router does with a request

`handle_content_request` calls itself on what it finds inside an onion layer.
`innermost` is where that ends: the request without layers, if every layer on the
way can be peeled, parses and has hops left. What the router then does is what it
does with that request (`handleContentRequest_snd`), and there is one lemma for
all that can come of it (`handleContentRequest_cases`).
-/

namespace Cashew

open Cashew.Lib

/-! ## Peeling what was wrapped -/

theorem xorWithKeystream_length (H : Bytes → Hash256) (keySeed input : Bytes) :
    (xorWithKeystream H keySeed input).length = input.length := by
  rw [xorWithKeystream, List.length_mapIdx]

/-- The key stream cancels. -/
theorem xorWithKeystream_twice (H : Bytes → Hash256) (keySeed input : Bytes) :
    xorWithKeystream H keySeed (xorWithKeystream H keySeed input) = input := by
  refine List.ext_getElem ?_ ?_
  · rw [xorWithKeystream_length, xorWithKeystream_length]
  · intro i _ _
    simp only [xorWithKeystream, List.getElem_mapIdx]
    rw [UInt8.xor_assoc, UInt8.xor_self, UInt8.xor_zero]

/-- The hop a layer is made for gets what was wrapped. -/
theorem decryptOnionLayer_wrapLayer (H : Bytes → Hash256) (hop nextHop : NodeID)
    (current : Bytes) :
    decryptOnionLayer H hop (wrapLayer H hop nextHop current) = some current := by
  have hmagic : onionMagic.length = 3 := rfl
  have hlen : (wrapLayer H hop nextHop current).length = 3 + 32 + current.length := by
    rw [wrapLayer, List.length_append, hmagic, xorWithKeystream_length, List.length_append,
      FixedBytes.size, Nat.add_assoc]
  have htake : (wrapLayer H hop nextHop current).take 3 = onionMagic :=
    List.take_left' hmagic
  have hdrop : (wrapLayer H hop nextHop current).drop 3 =
      xorWithKeystream H hop.id.bytes (nextHop.id.bytes ++ current) :=
    List.drop_left' hmagic
  have hplain : ¬ (nextHop.id.bytes ++ current).length < 32 := by
    rw [List.length_append, FixedBytes.size]
    omega
  unfold decryptOnionLayer
  dsimp only
  rw [if_neg (by omega), if_neg (not_not.mpr htake), hdrop, xorWithKeystream_twice, if_neg hplain,
    List.drop_left' nextHop.id.size]

namespace ContentRequest

theorem layer_decodes {layer : Bytes} (h : layer.length < 2 ^ 32) :
    Decodes layerDecoder (leBytes 4 layer.length ++ layer) layer := by
  have hsize : layer.length < 256 ^ 4 := h
  apply Decodes.require_bind (by rw [List.length_append, leBytes_length]; omega)
  refine (Decodes.le hsize).bind ?_
  exact Decodes.require_bind (Nat.le_refl _) (Decodes.take rfl)

/-- Layers that fit their fields are read back with the request. -/
theorem decodes (r : ContentRequest) (hcount : r.onionLayers.length < 2 ^ 16)
    (hsizes : ∀ layer ∈ r.onionLayers, layer.length < 2 ^ 32) : Decodes decoder r.toBytes r := by
  have hlen : 32 + 32 + 32 + 1 + 8 + 2 ≤ r.toBytes.length := by
    simp only [toBytes, List.length_append, List.length_singleton, FixedBytes.size,
      leBytes_length, u64Bytes_length]
    omega
  have hcount2 : r.onionLayers.length < 256 ^ 2 := hcount
  apply Decodes.require_bind hlen
  refine (FixedBytes.decodes _).bind ?_
  refine (FixedBytes.decodes _).bind ?_
  refine (FixedBytes.decodes _).bind ?_
  refine (Decodes.byte _).bind ?_
  refine (Decodes.u64 _).bind ?_
  refine (Decodes.le hcount2).bind ?_
  exact (Decodes.replicate fun layer hlayer => layer_decodes (hsizes layer hlayer)).bind_pure
    (f := fun onionLayers => { r with onionLayers })

end ContentRequest

/-! ## Down to the innermost request -/

/-- The request inside the first layer, as `handle_content_request` gets it. -/
def ContentRequest.inside (H : Bytes → Hash256) (localNodeId : NodeID) (request : ContentRequest) :
    Option ContentRequest :=
  match request.onionLayers with
  | [] => none
  | layer :: _ =>
    (decryptOnionLayer H localNodeId layer).bind fun inner =>
      (ContentRequest.fromBytes inner).toOption

/-- What is inside has fewer bytes of layers. -/
theorem ContentRequest.layerBytes_lt_of_inside {H : Bytes → Hash256} {localNodeId : NodeID}
    {request next : ContentRequest} (h : request.inside H localNodeId = some next) :
    next.layerBytes < request.layerBytes := by
  unfold inside at h
  cases hlayers : request.onionLayers with
  | nil =>
    rw [hlayers] at h
    cases h
  | cons layer rest =>
    rw [hlayers] at h
    obtain ⟨inner, hinner, hnext⟩ := Option.bind_eq_some_iff.mp h
    have hfits := layerBytes_le_of_fromBytes (Outcome.toOption_eq_some_iff.mp hnext)
    have hshorter := decryptOnionLayer_length hinner
    have houter : layer.length ≤ request.layerBytes := by
      rw [layerBytes, hlayers, List.map_cons, List.sum_cons]
      omega
    omega

/-- The request without layers that a router ends up handling. -/
def ContentRequest.innermost (H : Bytes → Hash256) (localNodeId : NodeID)
    (request : ContentRequest) : Option ContentRequest :=
  if request.hopLimit = 0 then none
  else if request.onionLayers = [] then some request
  else
    match _hinside : request.inside H localNodeId with
    | none => none
    | some next => next.innermost H localNodeId
termination_by request.layerBytes
decreasing_by exact layerBytes_lt_of_inside _hinside

namespace ContentRequest

variable {H : Bytes → Hash256} {localNodeId : NodeID} {request : ContentRequest}

theorem inside_of_layers {layer : Bytes} {rest : List Bytes}
    (hlayers : request.onionLayers = layer :: rest) :
    request.inside H localNodeId = (decryptOnionLayer H localNodeId layer).bind fun inner =>
      (ContentRequest.fromBytes inner).toOption := by
  rw [inside, hlayers]

/-- A hop finds the request that was wrapped for it. -/
theorem inside_of_wrapped {q : ContentRequest} {nextHop : NodeID} {rest : List Bytes}
    (hlayers : request.onionLayers = wrapLayer H localNodeId nextHop q.toBytes :: rest)
    (hplain : q.onionLayers = []) : request.inside H localNodeId = some q := by
  have hfits : ∀ layer ∈ q.onionLayers, layer.length < 2 ^ 32 := by
    intro layer hlayer
    rw [hplain] at hlayer
    cases hlayer
  have hdecodes := q.decodes (hplain ▸ Nat.two_pow_pos 16) hfits
  rw [inside_of_layers hlayers, decryptOnionLayer_wrapLayer, Option.bind_some, fromBytes,
    hdecodes.run]
  rfl

theorem innermost_of_plain (hhops : request.hopLimit ≠ 0) (hplain : request.onionLayers = []) :
    request.innermost H localNodeId = some request := by
  rw [innermost, if_neg hhops, if_pos hplain]

/-- A request without layers is its own innermost one. -/
theorem eq_of_innermost {q : ContentRequest} (hplain : request.onionLayers = [])
    (h : request.innermost H localNodeId = some q) : q = request := by
  rw [innermost, if_pos hplain] at h
  split at h
  · cases h
  · cases h
    rfl

/-- One layer less. -/
theorem innermost_of_layers (hhops : request.hopLimit ≠ 0) (hlayers : request.onionLayers ≠ []) :
    request.innermost H localNodeId =
      (request.inside H localNodeId).bind (innermost H localNodeId) := by
  rw [innermost, if_neg hhops, if_neg hlayers]
  split
  · rename_i hinside
    rw [hinside]
    rfl
  · rename_i next hinside
    rw [hinside]
    rfl

/-- One layer less, with what the layer holds. -/
theorem innermost_of_inner {layer inner : Bytes} {rest : List Bytes} (hhops : request.hopLimit ≠ 0)
    (hlayers : request.onionLayers = layer :: rest)
    (hinner : decryptOnionLayer H localNodeId layer = some inner) :
    request.innermost H localNodeId =
      (fromBytes inner).toOption.bind (innermost H localNodeId) := by
  rw [innermost_of_layers hhops (hlayers ▸ List.cons_ne_nil _ _), inside_of_layers hlayers, hinner,
    Option.bind_some]

/-- What is reached has no layers and hops left. -/
theorem innermost_spec {q : ContentRequest} (h : request.innermost H localNodeId = some q) :
    q.onionLayers = [] ∧ q.hopLimit ≠ 0 := by
  fun_induction innermost H localNodeId request with
  | case1 => cases h
  | case2 request hhops hplain =>
    cases h
    exact ⟨hplain, hhops⟩
  | case3 => cases h
  | case4 request _ _ next _ ih => exact ih h

end ContentRequest

namespace Router

variable {H : Bytes → Hash256}

/-- The router hands a request without layers on: it does not have the content,
forwarding is allowed, and there is a callback to send with. -/
structure Forwards (r : Router) (request : ContentRequest) : Prop where
  missing : r.canServeLocally request.contentHash = false
  allowed : r.shouldForwardRequest request = true
  callback : r.callbacks.requestSend = true

/-- What it sends then. -/
def forwarded (request : ContentRequest) : ContentRequest :=
  { request with hopLimit := request.hopLimit - 1 }

/-- The effects of a request without layers, branch by branch. The test for an
empty next hop is never true. -/
theorem handlePlainRequest_snd (r : Router) (clock : Clock) (request : ContentRequest) :
    (r.handlePlainRequest clock request).2 =
      if r.canServeLocally request.contentHash then
        match r.localResponse request with
        | none => []
        | some response => r.sendResponseToPeer request.requesterId response
      else if r.shouldForwardRequest request then
        r.sendRequestToPeer (r.selectNextHop clock request.contentHash) (forwarded request)
      else [] := by
  unfold handlePlainRequest
  cases r.canServeLocally request.contentHash with
  | true => cases r.localResponse request <;> rfl
  | false => cases r.shouldForwardRequest request <;> rfl

theorem handlePlainRequest_of_forwards {r : Router} {request : ContentRequest}
    (h : r.Forwards request) (clock : Clock) :
    (r.handlePlainRequest clock request).2 =
      [.sendRequest (r.selectNextHop clock request.contentHash) (forwarded request)] := by
  rw [handlePlainRequest_snd, h.missing, h.allowed, sendRequestToPeer, h.callback]
  rfl

/-- Otherwise it answers the requester, or says nothing. -/
theorem handlePlainRequest_of_not {r : Router} {request : ContentRequest}
    (h : ¬ r.Forwards request) (clock : Clock) :
    (r.handlePlainRequest clock request).2 = [] ∨
      ∃ response, (r.handlePlainRequest clock request).2 =
        [.sendResponse request.requesterId response] := by
  rw [handlePlainRequest_snd]
  cases hserve : r.canServeLocally request.contentHash with
  | true =>
    rw [if_pos rfl]
    cases r.localResponse request with
    | none => exact .inl rfl
    | some response =>
      dsimp only
      unfold sendResponseToPeer
      split
      · exact .inr ⟨response, rfl⟩
      · exact .inl rfl
  | false =>
    refine .inl ?_
    rw [if_neg (by decide)]
    cases hallowed : r.shouldForwardRequest request with
    | false => rfl
    | true =>
      unfold sendRequestToPeer
      rw [if_pos rfl, if_neg fun hcallback => h ⟨hserve, hallowed, hcallback⟩]

/-- The number of received requests does not matter for what a router sends. -/
theorem handlePlainRequest_snd_received (r : Router) (n : UInt64) (clock : Clock)
    (request : ContentRequest) :
    ({ r with requestsReceived := n }.handlePlainRequest clock request).2 =
      (r.handlePlainRequest clock request).2 := by
  rw [handlePlainRequest_snd, handlePlainRequest_snd]
  rfl

/-- What a router sends for a request is what it sends for the one inside. -/
theorem handleContentRequest_snd (r : Router) (clock : Clock) (request : ContentRequest) :
    (r.handleContentRequest H clock request).2 =
      match request.innermost H r.localNodeId with
      | none => []
      | some q => (r.handlePlainRequest clock q).2 := by
  fun_induction Router.handleContentRequest H r clock request with
  -- no hops are left
  | case1 r request r' hzero =>
    rw [ContentRequest.innermost, if_pos hzero]
  -- no layers: the request is plain
  | case2 r request r' hhops hlayers =>
    rw [ContentRequest.innermost_of_plain hhops hlayers]
    exact handlePlainRequest_snd_received r _ clock request
  -- the layer cannot be opened
  | case3 r request r' hhops layer rest hlayers hinner =>
    have hnone : decryptOnionLayer H r.localNodeId layer = none := hinner
    rw [ContentRequest.innermost_of_layers hhops (hlayers ▸ List.cons_ne_nil _ _),
      ContentRequest.inside_of_layers hlayers, hnone]
    rfl
  -- the request inside is handled in its turn, by a router that has counted this one
  | case4 r request r' hhops layer rest hlayers inner hinner next hnext ih =>
    have hpeeled : decryptOnionLayer H r.localNodeId layer = some inner := hinner
    rw [ContentRequest.innermost_of_inner hhops hlayers hpeeled, hnext]
    refine ih.trans ?_
    show (match next.innermost H r.localNodeId with
      | none => []
      | some q => (r'.handlePlainRequest clock q).2) =
      match next.innermost H r.localNodeId with
      | none => []
      | some q => (r.handlePlainRequest clock q).2
    cases next.innermost H r.localNodeId with
    | none => rfl
    | some q => exact handlePlainRequest_snd_received r _ clock q
  | case5 r request r' hhops layer rest hlayers inner hinner hnext =>
    have hpeeled : decryptOnionLayer H r.localNodeId layer = some inner := hinner
    rw [ContentRequest.innermost_of_inner hhops hlayers hpeeled, hnext]
    rfl
  | case6 r request r' hhops layer rest hlayers inner hinner hnext =>
    have hpeeled : decryptOnionLayer H r.localNodeId layer = some inner := hinner
    rw [ContentRequest.innermost_of_inner hhops hlayers hpeeled, hnext]
    rfl

/-- A request that cannot be peeled to the end, or has no hops left, causes
nothing. -/
theorem handleContentRequest_of_none {r : Router} {request : ContentRequest}
    (hq : request.innermost H r.localNodeId = none) (clock : Clock) :
    (r.handleContentRequest H clock request).2 = [] := by
  rw [handleContentRequest_snd, hq]

/-- A request whose innermost one is handed on causes just that. -/
theorem handleContentRequest_of_forwards {r : Router} {request q : ContentRequest}
    (hq : request.innermost H r.localNodeId = some q) (h : r.Forwards q) (clock : Clock) :
    (r.handleContentRequest H clock request).2 =
      [.sendRequest (r.selectNextHop clock q.contentHash) (forwarded q)] := by
  rw [handleContentRequest_snd, hq]
  exact handlePlainRequest_of_forwards h clock

/-- All that a request can cause: it is handed on, or there is nothing, or there
is one response. -/
theorem handleContentRequest_cases (r : Router) (clock : Clock) (request : ContentRequest) :
    (∃ q, request.innermost H r.localNodeId = some q ∧ r.Forwards q ∧
      (r.handleContentRequest H clock request).2 =
        [.sendRequest (r.selectNextHop clock q.contentHash) (forwarded q)]) ∨
      (r.handleContentRequest H clock request).2 = [] ∨
      ∃ peer response, (r.handleContentRequest H clock request).2 =
        [.sendResponse peer response] := by
  cases hq : request.innermost H r.localNodeId with
  | none => exact .inr (.inl (handleContentRequest_of_none hq clock))
  | some q =>
    by_cases hforwards : r.Forwards q
    · exact .inl ⟨q, rfl, hforwards, handleContentRequest_of_forwards hq hforwards clock⟩
    · rw [handleContentRequest_snd, hq]
      refine .inr ?_
      rcases handlePlainRequest_of_not hforwards clock with hnone | ⟨response, hresponse⟩
      · exact .inl hnone
      · exact .inr ⟨q.requesterId, response, hresponse⟩

/-- Whatever layers it comes in, a request is handed on only as the innermost
one with a hop less. -/
theorem handleContentRequest_sends {r : Router} {clock : Clock} {request fwd : ContentRequest}
    {peer : NodeID} (h : .sendRequest peer fwd ∈ (r.handleContentRequest H clock request).2) :
    ∃ q, request.innermost H r.localNodeId = some q ∧ r.Forwards q ∧
      peer = r.selectNextHop clock q.contentHash ∧ fwd = forwarded q := by
  rcases handleContentRequest_cases (H := H) r clock request with
    ⟨q, hq, hforwards, hsent⟩ | hnone | ⟨_, _, hresponse⟩
  · rw [hsent] at h
    cases List.mem_singleton.mp h
    exact ⟨q, hq, hforwards, rfl, rfl⟩
  · rw [hnone] at h
    cases h
  · rw [hresponse] at h
    cases List.mem_singleton.mp h

end Router

end Cashew
