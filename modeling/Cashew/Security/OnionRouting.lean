import Cashew.Network.Session

/-!
# Onion circuits

`security/onion_routing.cpp`: a sender wraps a payload once for each hop of a circuit,
the last hop first, and each hop peels one layer. Inside a layer for a relay stands
the id of the next hop in front of the next layer; inside the layer for the last hop
stands the payload alone.

The primitives are those of the sessions. A key pair is given by its secret half, so
every hop comes with the ephemeral secret that is drawn for it.
-/

namespace Cashew

open Cashew.Lib

/-! ## Layers -/

/-- `OnionLayer`. -/
structure OnionLayer where
  ephemeralKey : PublicKey
  ciphertext : Bytes
  mac : FixedBytes 16
  deriving DecidableEq

namespace OnionLayer

/-- `OnionLayer::to_bytes`. The length of the ciphertext is cut to 32 bits. -/
def toBytes (l : OnionLayer) : Bytes :=
  l.ephemeralKey.bytes ++
    (u32Bytes (UInt32.ofNat l.ciphertext.length) ++ (l.ciphertext ++ l.mac.bytes))

def decoder : Decoder OnionLayer := do
  Decoder.require 52
  let ephemeralKey ← FixedBytes.decoder 32
  let ciphertextLen ← Decoder.u32
  Decoder.require (ciphertextLen.toNat + 16)
  let ciphertext ← Decoder.take ciphertextLen.toNat
  let mac ← FixedBytes.decoder 16
  pure { ephemeralKey, ciphertext, mac }

/-- `OnionLayer::from_bytes`. Bytes behind the layer are ignored. -/
def fromBytes (data : Bytes) : Outcome OnionLayer := decoder.run data

theorem toBytes_length (l : OnionLayer) : l.toBytes.length = l.ciphertext.length + 52 := by
  unfold toBytes
  simp only [List.length_append, u32Bytes_length, l.ephemeralKey.size, l.mac.size]
  omega

theorem fromBytes_toBytes {l : OnionLayer} (h : l.ciphertext.length < 2 ^ 32) :
    fromBytes l.toBytes = .value l := by
  have hlen := UInt32.toNat_ofNat_of_lt' (n := l.ciphertext.length) h
  have hdec : Decodes decoder l.toBytes l := by
    refine Decodes.require_bind ?_ ?_
    · rw [toBytes_length]
      omega
    refine (FixedBytes.decodes l.ephemeralKey).bind ?_
    refine (Decodes.u32 _).bind ?_
    refine Decodes.require_bind ?_ ?_
    · rw [hlen, List.length_append, l.mac.size]
    refine (Decodes.take hlen.symm).bind ?_
    exact (FixedBytes.decodes l.mac).bind_pure
  exact hdec.run

/-- A decoded layer was in the buffer. -/
theorem toBytes_prefix_of_fromBytes {data : Bytes} {l : OnionLayer}
    (h : fromBytes data = .value l) : l.toBytes <+: data := by
  have hspells : Spells [] decoder toBytes := by
    refine Spells.require_bind (FixedBytes.decoder_spells fun ephemeralKey => ?_)
    refine Spells.u32_bind fun ciphertextLen => Spells.require_bind ?_
    refine Spells.take_bind fun ciphertext hlen => FixedBytes.decoder_spells fun mac => ?_
    refine Spells.pure ?_
    rw [toBytes, hlen, UInt32.ofNat_toNat]
    simp
  exact hspells.run h

/-- Its ciphertext has a 32-bit length. -/
theorem ciphertext_lt_of_fromBytes {data : Bytes} {l : OnionLayer}
    (h : fromBytes data = .value l) : l.ciphertext.length < 2 ^ 32 := by
  have hyields : Yields decoder fun l => l.ciphertext.length < 2 ^ 32 := by
    refine Yields.skip fun _ => Yields.skip fun _ => Yields.skip fun ciphertextLen => ?_
    refine Yields.skip fun _ => Yields.bind (Yields.take _) fun ciphertext hlen => ?_
    refine Yields.skip fun mac => Yields.pure ?_
    rw [hlen]
    exact UInt32.toNat_lt ciphertextLen
  exact hyields.run h

end OnionLayer

/-- `OnionHop`. -/
structure OnionHop where
  nodeId : NodeID
  nodePublicKey : PublicKey
  deriving DecidableEq

/-! ## Wrapping -/

namespace OnionRouteBuilder

variable (c : SessionCrypto)

/-- `OnionRouteBuilder::derive_shared_secret`. -/
def deriveSharedSecret (theirPublicKey : PublicKey) (ourSecretKey : SecretKey) : SessionKey :=
  (c.exchange ourSecretKey theirPublicKey).getD FixedBytes.zero

/-- `OnionRouteBuilder::encrypt_layer`: the last 16 bytes are the MAC. -/
def encryptLayer (plaintext : Bytes) (sharedSecret : SessionKey) : Bytes × FixedBytes 16 :=
  -- the nonce is zero: each key is used once
  let ciphertext := c.encrypt plaintext sharedSecret FixedBytes.zero
  if h : 16 ≤ ciphertext.length then
    (ciphertext.take (ciphertext.length - 16),
      ⟨ciphertext.drop (ciphertext.length - 16), by rw [List.length_drop]; omega⟩)
  else (ciphertext, FixedBytes.zero)

/-- The layer for one hop, under a fresh key pair. -/
def makeLayer (hop : OnionHop) (ephemeralSecret : SecretKey) (currentPayload : Bytes) :
    OnionLayer :=
  let encrypted :=
    encryptLayer c currentPayload (deriveSharedSecret c hop.nodePublicKey ephemeralSecret)
  { ephemeralKey := c.derivePublic ephemeralSecret
    ciphertext := encrypted.1
    mac := encrypted.2 }

/-- The variables of the loops. The next hop is the one of the round before, where addresses
are added. -/
structure Wrapping where
  nextHop : Option OnionHop := none
  currentPayload : Bytes
  layers : List OnionLayer := []

/-- One round of `build_layers`: there are no addresses. -/
def sealHop (w : Wrapping) (hop : OnionHop × SecretKey) : Wrapping :=
  let layer := makeLayer c hop.1 hop.2 w.currentPayload
  { w with currentPayload := layer.toBytes, layers := w.layers ++ [layer] }

/-- `OnionRouteBuilder::build_layers`, backwards and then reversed. -/
def buildLayers (routeHops : List (OnionHop × SecretKey)) (payload : Bytes) : List OnionLayer :=
  (routeHops.reverse.foldl (sealHop c) { currentPayload := payload }).layers.reverse

/-- One round: the address of the next hop goes in front, if this is not the last
hop. -/
def wrapHop (w : Wrapping) (hop : OnionHop × SecretKey) : Wrapping :=
  let routingPayload :=
    match w.nextHop with
    | none => w.currentPayload
    | some nextHop => nextHop.nodeId.id.bytes ++ w.currentPayload
  let layer := makeLayer c hop.1 hop.2 routingPayload
  { nextHop := some hop.1
    currentPayload := layer.toBytes
    layers := w.layers ++ [layer] }

/-- `OnionRouteBuilder::build_layers_with_routing`, backwards and then reversed. -/
def buildLayersWithRouting (routeHops : List (OnionHop × SecretKey)) (payload : Bytes) :
    List OnionLayer :=
  (routeHops.reverse.foldl (wrapHop c) { currentPayload := payload }).layers.reverse

end OnionRouteBuilder

/-! ## Peeling -/

/-- What `peel_with_routing` returns and what it writes. -/
structure Peeled where
  result : Bool
  nextHopOut : Option NodeID := none
  remainingLayersOut : List OnionLayer := []
  finalPayloadOut : Option Bytes := none
  deriving DecidableEq

namespace OnionLayerPeeler

variable (c : SessionCrypto)

/-- `OnionLayerPeeler::derive_shared_secret`. -/
def deriveSharedSecret (nodeSecretKey : SecretKey) (ephemeralPublicKey : PublicKey) : SessionKey :=
  (c.exchange nodeSecretKey ephemeralPublicKey).getD FixedBytes.zero

/-- `OnionLayerPeeler::decrypt_layer`. -/
def decryptLayer (ciphertext : Bytes) (sharedSecret : SessionKey) (mac : FixedBytes 16) :
    Option Bytes :=
  c.decrypt (ciphertext ++ mac.bytes) sharedSecret FixedBytes.zero

/-- `OnionLayerPeeler::peel_layer`. -/
def peelLayer (nodeSecretKey : SecretKey) (layer : OnionLayer) : Option Bytes :=
  decryptLayer c layer.ciphertext (deriveSharedSecret c nodeSecretKey layer.ephemeralKey) layer.mac

/-- What `peel_with_routing` makes of the plaintext: anything of 32 bytes or more
counts as an address and what follows it. -/
def route (decrypted : Bytes) : Peeled :=
  if h : decrypted.length < 32 then { result := true, finalPayloadOut := some decrypted }
  else
    let nextHop : NodeID := ⟨⟨decrypted.take 32, List.length_take_of_le (Nat.le_of_not_lt h)⟩⟩
    let remainingData := decrypted.drop 32
    -- "Remaining data might be more layers or final payload"
    match (OnionLayer.fromBytes remainingData).toOption with
    | some nextLayer =>
      { result := false, nextHopOut := some nextHop, remainingLayersOut := [nextLayer] }
    | none => { result := true, nextHopOut := some nextHop, finalPayloadOut := some remainingData }

/-- `OnionLayerPeeler::peel_with_routing`. -/
def peelWithRouting (nodeSecretKey : SecretKey) (layer : OnionLayer) : Peeled :=
  match peelLayer c nodeSecretKey layer with
  | none => { result := false }
  | some decrypted => route decrypted

end OnionLayerPeeler

/-! ## Circuits -/

/-- `OnionCircuitManager`. -/
structure OnionCircuitManager where
  localNodeId : NodeID
  nodeSecretKey : SecretKey
  circuitsBuilt : UInt64 := 0
  layersPeeled : UInt64 := 0

namespace OnionCircuitManager

/-- `OnionCircuitManager::select_random_node`: the draw is a number below the size. -/
def selectRandomNode (candidates : List OnionHop) (draw : Nat) : OnionHop :=
  (candidates[draw % candidates.length]?).getD ⟨default, default⟩

/-- The loop of `select_path`; the node that is selected goes out of the candidates, with
every other entry under its id. -/
def selectPathLoop : Nat → (Nat → Nat) → List OnionHop → List OnionHop → List OnionHop
  | 0, _, _, path => path
  | rounds + 1, draws, candidates, path =>
    let node := selectRandomNode candidates (draws 0)
    let left := candidates.filter fun n => n.nodeId ≠ node.nodeId
    if left = [] then path ++ [node]
    else selectPathLoop rounds (fun i => draws (i + 1)) left (path ++ [node])

variable (m : OnionCircuitManager)

/-- `OnionCircuitManager::select_path`, with the numbers it draws. -/
def selectPath (availableNodes : List OnionHop) (destination : NodeID) (pathLength : Nat)
    (draws : Nat → Nat) : List OnionHop :=
  if availableNodes = [] ∨ pathLength = 0 then []
  else
    let candidates := availableNodes.filter fun node =>
      node.nodeId ≠ m.localNodeId ∧ node.nodeId ≠ destination
    if candidates = [] then []
    else selectPathLoop (min pathLength candidates.length) draws candidates []

/-- `OnionCircuitManager::build_circuit`: three relays, then the destination. Hop `i` of the
path gets ephemeral secret `i`. -/
def buildCircuit (c : SessionCrypto) (destination : OnionHop) (availableNodes : List OnionHop)
    (payload : Bytes) (draws : Nat → Nat) (secrets : Nat → SecretKey) :
    OnionCircuitManager × List OnionLayer :=
  let path := m.selectPath availableNodes destination.nodeId 3 draws ++ [destination]
  ({ m with circuitsBuilt := m.circuitsBuilt + 1 },
    OnionRouteBuilder.buildLayersWithRouting c (path.mapIdx fun i hop => (hop, secrets i)) payload)

/-- `OnionCircuitManager::process_onion_request`: the outermost layer is peeled. -/
def processOnionRequest (c : SessionCrypto) (layers : List OnionLayer) :
    OnionCircuitManager × Peeled :=
  match layers with
  | [] => (m, { result := false })
  | layer :: _ =>
    ({ m with layersPeeled := m.layersPeeled + 1 },
      OnionLayerPeeler.peelWithRouting c m.nodeSecretKey layer)

end OnionCircuitManager

/-! ## Sizes -/

/-- The sizes of `ChaCha20Poly1305`: a ciphertext is 16 bytes longer than its
plaintext. -/
structure SessionCrypto.Sized (c : SessionCrypto) : Prop where
  encrypt_length : ∀ plaintext key nonce,
    (c.encrypt plaintext key nonce).length = plaintext.length + 16
  decrypt_length : ∀ ciphertext key nonce plaintext,
    c.decrypt ciphertext key nonce = some plaintext → plaintext.length + 16 = ciphertext.length

theorem sampleCrypto_sized : sampleCrypto.Sized where
  encrypt_length := by
    intro plaintext key nonce
    show (plaintext ++ List.take 16 _).length = _
    rw [List.length_append, List.length_take, FixedBytes.size]
    omega
  decrypt_length := by
    intro ciphertext key nonce plaintext h
    dsimp only [sampleCrypto] at h
    split at h
    · rename_i htag
      cases h
      have hlen := congrArg List.length htag
      rw [List.length_drop, List.length_take, FixedBytes.size] at hlen
      rw [List.length_take]
      omega
    · cases h

end Cashew
