import Cashew.Lib.Machine
import Cashew.Network.RoutingTable

/-!
# The router

`Router` of `network/router.cpp`: content requests under fresh request ids, the
table of pending requests, forwarding (through onion layers where a request has
them), and responses matched to pending requests by their id.

The callbacks a program registers are part of the router's state; calling one
is an effect of the step. A callback does not call back into the router. The
random bytes of a request id come with the call that draws them.
-/

namespace Cashew

open Cashew.Lib

/-! ## Messages -/

/-- `ContentRequest`. -/
structure ContentRequest where
  contentHash : ContentHash
  requesterId : NodeID
  requestId : Hash256
  hopLimit : UInt8
  timestamp : UInt64
  onionLayers : List Bytes := []
  deriving DecidableEq

/-- `ContentResponse`. -/
structure ContentResponse where
  contentHash : ContentHash
  contentData : Bytes
  hostingNode : NodeID
  requestId : Hash256
  hopCount : UInt8
  signature : Signature
  deriving DecidableEq

namespace ContentRequest

def maxHopLimit : UInt8 := 16

/-- `ContentRequest::to_bytes`. -/
def toBytes (r : ContentRequest) : Bytes :=
  r.contentHash.hash.bytes ++ (r.requesterId.id.bytes ++ (r.requestId.bytes ++
    ([r.hopLimit] ++ (u64Bytes r.timestamp ++ (leBytes 2 r.onionLayers.length ++
      r.onionLayers.flatMap fun layer => leBytes 4 layer.length ++ layer)))))

/-- One onion layer: its size, then its bytes. -/
def layerDecoder : Decoder Bytes := do
  Decoder.require 4
  let layerSize ← Decoder.le 4
  Decoder.require layerSize
  Decoder.take layerSize

/-- The reads of `ContentRequest::from_bytes`. -/
def decoder : Decoder ContentRequest := do
  Decoder.require (32 + 32 + 32 + 1 + 8 + 2)
  let contentHash ← FixedBytes.decoder 32
  let requesterId ← FixedBytes.decoder 32
  let requestId ← FixedBytes.decoder 32
  let hopLimit ← Decoder.byte
  let timestamp ← Decoder.u64
  let layerCount ← Decoder.le 2
  let onionLayers ← Decoder.replicate layerDecoder layerCount
  pure {
    contentHash := ⟨contentHash⟩, requesterId := ⟨requesterId⟩, requestId, hopLimit, timestamp,
    onionLayers }

/-- `ContentRequest::from_bytes`. -/
def fromBytes (data : Bytes) : Outcome ContentRequest := decoder.run data

/-- The bytes in the onion layers. -/
def layerBytes (r : ContentRequest) : Nat := (r.onionLayers.map List.length).sum

theorem decoder_withinInput : WithinInput 0 decoder layerBytes := by
  have hlayer : ∀ credit, WithinInput credit layerDecoder fun layer => credit + layer.length :=
    fun _ => (WithinInput.require 4).bind fun _ => (WithinInput.le 4).bind fun layerSize =>
      (WithinInput.require layerSize).bind fun _ => WithinInput.take layerSize
  refine (WithinInput.require _).bind fun _ => ?_
  refine FixedBytes.decoder_withinInput.bind fun _ => ?_
  refine FixedBytes.decoder_withinInput.bind fun _ => ?_
  refine FixedBytes.decoder_withinInput.bind fun _ => ?_
  refine WithinInput.byte.bind fun _ => ?_
  refine WithinInput.u64.bind fun _ => ?_
  refine (WithinInput.le 2).bind fun layerCount => ?_
  refine (WithinInput.replicate hlayer layerCount 0).bind fun layers => ?_
  exact WithinInput.pure (by simp [layerBytes])

theorem layerBytes_le_of_fromBytes {data : Bytes} {r : ContentRequest}
    (h : fromBytes data = .value r) : r.layerBytes ≤ data.length := by
  unfold fromBytes Decoder.run at h
  cases hd : decoder data with
  | value p =>
    rw [hd] at h
    cases h
    have hweight := decoder_withinInput data p.1 p.2 hd
    omega
  | rejected =>
    rw [hd] at h
    cases h
  | outOfBounds =>
    rw [hd] at h
    cases h

end ContentRequest

namespace ContentResponse

/-- `ContentResponse::to_bytes`. -/
def toBytes (r : ContentResponse) : Bytes :=
  r.contentHash.hash.bytes ++ (r.hostingNode.id.bytes ++ (r.requestId.bytes ++
    ([r.hopCount] ++ (leBytes 4 r.contentData.length ++ (r.contentData ++ r.signature.bytes)))))

/-- The reads of `ContentResponse::from_bytes`. -/
def decoder : Decoder ContentResponse := do
  Decoder.require (32 + 32 + 32 + 1 + 4 + 64)
  let contentHash ← FixedBytes.decoder 32
  let hostingNode ← FixedBytes.decoder 32
  let requestId ← FixedBytes.decoder 32
  let hopCount ← Decoder.byte
  let contentSize ← Decoder.le 4
  -- `offset + content_size + 64 > data.size()`
  Decoder.require (contentSize + 64)
  let contentData ← Decoder.take contentSize
  let signature ← FixedBytes.decoder 64
  pure {
    contentHash := ⟨contentHash⟩, contentData, hostingNode := ⟨hostingNode⟩, requestId, hopCount,
    signature }

/-- `ContentResponse::from_bytes`. -/
def fromBytes (data : Bytes) : Outcome ContentResponse := decoder.run data

end ContentResponse

/-! ## Onion layers -/

/-- `xor_with_keystream`: block `j` of the key stream hashes the seed and the
32-bit counter `j`. The loop of the source is `keystreamLoop`. -/
def xorWithKeystream (H : Bytes → Hash256) (keySeed input : Bytes) : Bytes :=
  input.mapIdx fun i b =>
    b ^^^ (H (keySeed ++ u32Bytes (UInt32.ofNat (i / 32)))).bytes.getD (i % 32) 0

/-- The `while` loop of `xor_with_keystream` on the bytes that are still to be
written: one block at a time, under a counter of 32 bits. -/
def keystreamLoop (H : Bytes → Hash256) (keySeed : Bytes) (counter : UInt32) : Bytes → Bytes
  | [] => []
  | b :: rest =>
    let block := (H (keySeed ++ u32Bytes counter)).bytes
    -- the inner loop ends with the block or with the input
    List.zipWith (· ^^^ ·) (b :: rest) block ++
      keystreamLoop H keySeed (counter + 1) ((b :: rest).drop block.length)
termination_by input => input.length
decreasing_by
  rw [List.length_drop, FixedBytes.size, List.length_cons]
  omega

/-- The three bytes `O`, `N`, `1` in front of a layer. -/
def onionMagic : Bytes := [0x4F, 0x4E, 0x31]

/-- One hop's layer around what the next hop gets. -/
def wrapLayer (H : Bytes → Hash256) (hop nextHop : NodeID) (current : Bytes) : Bytes :=
  onionMagic ++ xorWithKeystream H hop.id.bytes (nextHop.id.bytes ++ current)

/-- The layers of a path around a payload, outermost first. -/
def wrapPath (H : Bytes → Hash256) (payload : Bytes) : List NodeID → Bytes
  | [] => payload
  | hop :: rest => wrapLayer H hop (rest.headD default) (wrapPath H payload rest)

/-- `Router::create_onion_layers`. -/
def createOnionLayers (H : Bytes → Hash256) (routePath : List NodeID) (payload : Bytes) :
    List Bytes :=
  if routePath.isEmpty then [] else [wrapPath H payload routePath]

/-- `Router::decrypt_onion_layer`: the next hop's id is stripped and not looked
at. -/
def decryptOnionLayer (H : Bytes → Hash256) (localNodeId : NodeID) (layer : Bytes) :
    Option Bytes :=
  if layer.length < 3 + 32 then none
  else if layer.take 3 ≠ onionMagic then none
  else
    let plain := xorWithKeystream H localNodeId.id.bytes (layer.drop 3)
    if plain.length < 32 then none else some (plain.drop 32)

theorem decryptOnionLayer_length {H : Bytes → Hash256} {localNodeId : NodeID}
    {layer inner : Bytes} (h : decryptOnionLayer H localNodeId layer = some inner) :
    inner.length < layer.length := by
  unfold decryptOnionLayer at h
  dsimp only at h
  split at h
  · cases h
  · split at h
    · cases h
    · split at h
      · cases h
      · cases h
        rw [List.length_drop, xorWithKeystream, List.length_mapIdx, List.length_drop]
        omega

/-! ## State -/

/-- `PendingRequest`. -/
structure PendingRequest where
  requestId : Hash256
  contentHash : ContentHash
  originalRequester : NodeID
  timestamp : UInt64
  retries : UInt8
  deriving DecidableEq

/-- `PendingRequest::has_timed_out`. -/
def PendingRequest.hasTimedOut (p : PendingRequest) (now : Time) : Bool :=
  30 < now.secs - p.timestamp

/-- The registered callbacks; for those without a result that matters, whether
they are set. -/
structure RouterCallbacks where
  contentReceived : Bool := false
  contentNotFound : Bool := false
  localContentFetch : Option (ContentHash → Option Bytes) := none
  responseSign : Option (ContentResponse → Signature) := none
  responseVerify : Option (ContentResponse → Bool) := none
  requestSend : Bool := false
  responseSend : Bool := false

/-- `Router`. -/
structure Router where
  localNodeId : NodeID
  routingTable : RoutingTable := {}
  pendingRequests : OrdMap Hash256 PendingRequest := .empty
  localContent : List ContentHash := []
  callbacks : RouterCallbacks := {}
  requestsSent : UInt64 := 0
  requestsReceived : UInt64 := 0
  responsesSent : UInt64 := 0
  responsesReceived : UInt64 := 0
  forwards : UInt64 := 0
  nextRequestCounter : UInt64 := 1

/-- What the environment sees of a step: the id a request call returns, messages
handed to a send callback, and the two notifications. A notification is passed
the content hash, and the data where there is some; the id of the request it is
about is written beside it here. -/
inductive RouterEffect where
  | issued (requestId : Hash256) (contentHash : ContentHash)
  | sendRequest (peerId : NodeID) (request : ContentRequest)
  | sendResponse (peerId : NodeID) (response : ContentResponse)
  | contentReceived (requestId : Hash256) (contentHash : ContentHash) (data : Bytes)
  | contentNotFound (requestId : Hash256) (contentHash : ContentHash)
  deriving DecidableEq

namespace Router

variable (H : Bytes → Hash256)

/-- `Router::send_request_to_peer`. -/
def sendRequestToPeer (r : Router) (peerId : NodeID) (request : ContentRequest) :
    List RouterEffect :=
  if r.callbacks.requestSend then [.sendRequest peerId request] else []

/-- `Router::send_response_to_peer`. -/
def sendResponseToPeer (r : Router) (peerId : NodeID) (response : ContentResponse) :
    List RouterEffect :=
  if r.callbacks.responseSend then [.sendResponse peerId response] else []

/-- `if (content_not_found_callback_) content_not_found_callback_(content_hash)`,
about the request with this id. -/
def notifyNotFound (r : Router) (requestId : Hash256) (contentHash : ContentHash) :
    List RouterEffect :=
  if r.callbacks.contentNotFound then [.contentNotFound requestId contentHash] else []

/-- `Router::select_next_hop`: without a route, the value-initialised id. -/
def selectNextHop (r : Router) (clock : Clock) (contentHash : ContentHash) : NodeID :=
  (r.routingTable.selectBestHost clock contentHash).getD default

/-- `Router::can_serve_locally`. -/
def canServeLocally (r : Router) (contentHash : ContentHash) : Bool :=
  contentHash ∈ r.localContent

/-- `Router::should_forward_request`. -/
def shouldForwardRequest (r : Router) (request : ContentRequest) : Bool :=
  if request.hopLimit ≤ 1 then false
  else if request.requesterId = r.localNodeId then false
  else r.routingTable.hasContentRoute request.contentHash

/-- The bytes `generate_request_id` hashes. -/
def requestIdInput (r : Router) (random : FixedBytes 16) : Bytes :=
  r.localNodeId.id.bytes ++ (u64Bytes r.nextRequestCounter ++ random.bytes)

/-- The request and its pending entry, with the counter of `generate_request_id`
advanced: the part both request calls share. -/
def openRequest (r : Router) (now : Time) (random : FixedBytes 16) (contentHash : ContentHash)
    (hopLimit : UInt8) : Router × ContentRequest :=
  let requestId := H (r.requestIdInput random)
  ({ r with
      nextRequestCounter := r.nextRequestCounter + 1
      pendingRequests := r.pendingRequests.insert requestId
        { requestId
          contentHash
          originalRequester := r.localNodeId
          timestamp := now.secs
          retries := 0 } },
   { contentHash, requesterId := r.localNodeId, requestId, hopLimit, timestamp := now.secs })

/-! ## Requests -/

/-- `Router::request_content`. The test for a missing route asks whether a
32-byte array has size zero. -/
def requestContent (r : Router) (clock : Clock) (random : FixedBytes 16)
    (contentHash : ContentHash) (hopLimit : UInt8) : Router × List RouterEffect :=
  let (r, request) := r.openRequest H (clock.read 0) random contentHash
    (min hopLimit ContentRequest.maxHopLimit)
  let nextHop := r.selectNextHop (clock.after 1) contentHash
  -- never empty: without a route the request goes to the zero id
  if !nextHop.id.empty then
    ({ r with requestsSent := r.requestsSent + 1 },
     .issued request.requestId contentHash :: r.sendRequestToPeer nextHop request)
  else
    (r, .issued request.requestId contentHash :: r.notifyNotFound request.requestId contentHash)

/-- `Router::request_content_with_onion_routing`. -/
def requestContentWithOnionRouting (r : Router) (clock : Clock) (random : FixedBytes 16)
    (contentHash : ContentHash) (routePath : List NodeID) : Router × List RouterEffect :=
  let (r, request) := r.openRequest H (clock.read 0) random contentHash
    -- `static_cast<uint8_t>`: a path of 254 hops wraps to a limit of zero
    (UInt8.ofNat (routePath.length + 2))
  let request := { request with
    onionLayers := createOnionLayers H routePath request.toBytes }
  match routePath with
  | [] => (r, [.issued request.requestId contentHash])
  | firstHop :: _ =>
    ({ r with requestsSent := r.requestsSent + 1 },
     .issued request.requestId contentHash :: r.sendRequestToPeer firstHop request)

/-- The answer to a request for content the router has: none if the fetch
callback has lost it. -/
def localResponse (r : Router) (request : ContentRequest) : Option ContentResponse :=
  let content := match r.callbacks.localContentFetch with
    | none => some []
    | some fetch => fetch request.contentHash
  content.map fun contentData =>
    let response : ContentResponse :=
      { contentHash := request.contentHash
        contentData
        hostingNode := r.localNodeId
        requestId := request.requestId
        hopCount := 0
        signature := FixedBytes.zero }
    match r.callbacks.responseSign with
    | none => response
    | some sign => { response with signature := sign response }

/-- `Router::handle_content_request` on a request without onion layers. -/
def handlePlainRequest (r : Router) (clock : Clock) (request : ContentRequest) :
    Router × List RouterEffect :=
  if r.canServeLocally request.contentHash then
    match r.localResponse request with
    | none => (r, [])
    | some response =>
      ({ r with responsesSent := r.responsesSent + 1 },
       r.sendResponseToPeer request.requesterId response)
  else if !r.shouldForwardRequest request then (r, [])
  else
    let nextHop := r.selectNextHop clock request.contentHash
    if nextHop.id.empty then (r, [])
    else
      ({ r with forwards := r.forwards + 1 },
       r.sendRequestToPeer nextHop { request with hopLimit := request.hopLimit - 1 })

/-- `Router::handle_content_request`. A request with onion layers is replaced by
the one inside its first layer, which has fewer layer bytes. -/
def handleContentRequest (r : Router) (clock : Clock) (request : ContentRequest) :
    Router × List RouterEffect :=
  let r := { r with requestsReceived := r.requestsReceived + 1 }
  if request.hopLimit = 0 then (r, [])
  else
    match _hlayers : request.onionLayers with
    | [] => r.handlePlainRequest clock request
    | layer :: _ =>
      match _hinner : decryptOnionLayer H r.localNodeId layer with
      | none => (r, [])
      | some inner =>
        -- the inner request goes through the hop limit test again
        match _hnext : ContentRequest.fromBytes inner with
        | .value next => r.handleContentRequest clock next
        | .rejected => (r, [])
        | .outOfBounds => (r, [])
termination_by request.layerBytes
decreasing_by
  have hinside := ContentRequest.layerBytes_le_of_fromBytes _hnext
  have hshorter := decryptOnionLayer_length _hinner
  have houter : layer.length ≤ request.layerBytes := by
    rw [ContentRequest.layerBytes, _hlayers, List.map_cons, List.sum_cons]
    omega
  omega

/-! ## Responses -/

/-- `!response_verify_callback_ || response_verify_callback_(response)`. -/
def verifies (r : Router) (response : ContentResponse) : Bool :=
  match r.callbacks.responseVerify with
  | none => true
  | some verify => verify response

/-- `Router::handle_content_response`. The data is checked against the hash the
response itself carries. -/
def handleContentResponse (r : Router) (response : ContentResponse) :
    Router × List RouterEffect :=
  let r := { r with responsesReceived := r.responsesReceived + 1 }
  match r.pendingRequests.find? response.requestId with
  | none => (r, [])
  | some _ =>
    -- the pending entry's content hash is not consulted
    if H response.contentData ≠ response.contentHash.hash then (r, [])
    else if !r.verifies response then (r, [])
    else
      ({ r with
          routingTable := r.routingTable.updateNodeReliability response.hostingNode 1.0
          pendingRequests := r.pendingRequests.erase response.requestId },
       if r.callbacks.contentReceived then
         [.contentReceived response.requestId response.contentHash response.contentData]
       else [])

/-! ## Maintenance -/

/-- `Router::advertise_local_content`. -/
def advertiseLocalContent (r : Router) (contentHash : ContentHash) : Router :=
  { r with
    localContent := if contentHash ∈ r.localContent then r.localContent
      else r.localContent ++ [contentHash]
    routingTable := r.routingTable.advertiseContent r.localNodeId contentHash }

/-- `Router::remove_local_content`. -/
def removeLocalContent (r : Router) (contentHash : ContentHash) : Router :=
  { r with
    localContent := r.localContent.filter (· ≠ contentHash)
    routingTable := r.routingTable.removeContentAdvertisement r.localNodeId contentHash }

/-- `Router::cleanup_timed_out_requests`. -/
def cleanupTimedOutRequests (r : Router) (clock : Clock) : Router × List RouterEffect :=
  -- each entry is tested at a reading of its own
  let expired := (r.pendingRequests.entries.zipIdx.filter fun ((_, p), i) =>
    p.hasTimedOut (clock.read i)).map Prod.fst
  ({ r with pendingRequests := (expired.map Prod.fst).foldl OrdMap.erase r.pendingRequests },
   expired.flatMap fun (requestId, p) => r.notifyNotFound requestId p.contentHash)

/-- `Router::update_statistics`. -/
def updateStatistics (r : Router) (clock : Clock) : Router × List RouterEffect :=
  let entryCount := r.routingTable.entries.entries.length
  { r with routingTable := r.routingTable.cleanupStaleEntries clock }.cleanupTimedOutRequests
    (clock.after entryCount)

end Router

/-! ## Runs -/

/-- The calls on a router. `editRoutingTable` stands for whatever a holder of
the reference `get_routing_table` hands out does with it. -/
inductive RouterInput where
  | requestContent (random : FixedBytes 16) (contentHash : ContentHash) (hopLimit : UInt8)
  | requestContentWithOnionRouting (random : FixedBytes 16) (contentHash : ContentHash)
      (routePath : List NodeID)
  | handleContentRequest (request : ContentRequest)
  | handleContentResponse (response : ContentResponse)
  | updateRoutingTable (nodeId : NodeID) (hopDistance : UInt8)
  | editRoutingTable (edit : RoutingTable → RoutingTable)
  | advertiseLocalContent (contentHash : ContentHash)
  | removeLocalContent (contentHash : ContentHash)
  | cancelRequest (requestId : Hash256)
  | cleanupTimedOutRequests
  | updateStatistics
  | setCallbacks (callbacks : RouterCallbacks)

/-- One call, with the clock readings made during it. -/
def Router.call (H : Bytes → Hash256) (r : Router) (clock : Clock) :
    RouterInput → Router × List RouterEffect
  | .requestContent random c hops => r.requestContent H clock random c hops
  | .requestContentWithOnionRouting random c path =>
    r.requestContentWithOnionRouting H clock random c path
  | .handleContentRequest request => r.handleContentRequest H clock request
  | .handleContentResponse response => r.handleContentResponse H response
  | .updateRoutingTable n hops =>
    ({ r with routingTable := r.routingTable.addNode (clock.read 0) n hops }, [])
  | .editRoutingTable edit => ({ r with routingTable := edit r.routingTable }, [])
  | .advertiseLocalContent c => (r.advertiseLocalContent c, [])
  | .removeLocalContent c => (r.removeLocalContent c, [])
  | .cancelRequest requestId =>
    ({ r with pendingRequests := r.pendingRequests.erase requestId }, [])
  | .cleanupTimedOutRequests => r.cleanupTimedOutRequests clock
  | .updateStatistics => r.updateStatistics clock
  | .setCallbacks callbacks => ({ r with callbacks }, [])

def routerMachine (H : Bytes → Hash256) : Machine Router (Clock × RouterInput) RouterEffect where
  step r input := r.call H input.1 input.2

end Cashew
