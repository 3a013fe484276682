import Cashew.Security.OnionRouting

/-!
# Onion circuits deliver short payloads

A relay and the destination of a circuit tell each other apart by the length of what
they decrypt: from 32 bytes on it is read as an address. So a payload arrives exactly
when it is shorter than that, and the layers for the relays are short enough for the
32-bit length in front of them.
-/

namespace Cashew.Theorems.OnionCircuits

open Cashew Cashew.Lib OnionRouteBuilder OnionLayerPeeler

/-- A node of a circuit with its key, and the ephemeral secret drawn for its layer. -/
structure CircuitHop where
  nodeId : NodeID
  secretKey : SecretKey
  ephemeralSecret : SecretKey

variable (c : SessionCrypto)

/-- What the sender knows of the hop. -/
def CircuitHop.onionHop (hop : CircuitHop) : OnionHop :=
  ⟨hop.nodeId, c.derivePublic hop.secretKey⟩

/-- The layers of the circuit. -/
def circuitLayers (circuit : List CircuitHop) (payload : Bytes) : List OnionLayer :=
  buildLayersWithRouting c (circuit.map fun hop => (hop.onionHop c, hop.ephemeralSecret)) payload

/-- Each hop peels the layer it receives: a relay learns the next hop of the circuit and
hands one layer on to it, the destination is left with the payload. -/
def Delivers (payload : Bytes) : List CircuitHop → OnionLayer → Prop
  | [], _ => False
  | [last], layer =>
    (peelWithRouting c last.secretKey layer).result = true ∧
      (peelWithRouting c last.secretKey layer).finalPayloadOut = some payload
  | hop :: next :: rest, layer =>
    (peelWithRouting c hop.secretKey layer).result = false ∧
      (peelWithRouting c hop.secretKey layer).nextHopOut = some next.nodeId ∧
        ∃ inner, (peelWithRouting c hop.secretKey layer).remainingLayersOut = [inner] ∧
          Delivers payload (next :: rest) inner

/-- The outermost layer, given to the first hop, is delivered along the circuit. -/
def Intact (circuit : List CircuitHop) (payload : Bytes) : Prop :=
  ∃ layer, (circuitLayers c circuit payload).head? = some layer ∧ Delivers c payload circuit layer

/-! ## Wrapping -/

/-- The layer for a hop, with the rest of the circuit inside. -/
def layerFor (payload : Bytes) : CircuitHop → List CircuitHop → OnionLayer
  | hop, [] => makeLayer c (hop.onionHop c) hop.ephemeralSecret payload
  | hop, next :: rest =>
    makeLayer c (hop.onionHop c) hop.ephemeralSecret
      (next.nodeId.id.bytes ++ (layerFor payload next rest).toBytes)

/-- The variables of the loop once the hops of the list have been wrapped. -/
def wrapped (payload : Bytes) : List CircuitHop → Wrapping
  | [] => { currentPayload := payload }
  | hop :: rest =>
    { nextHop := some (hop.onionHop c)
      currentPayload := (layerFor c payload hop rest).toBytes
      layers := (wrapped payload rest).layers ++ [layerFor c payload hop rest] }

theorem foldl_wrapHop (payload : Bytes) (circuit : List CircuitHop) :
    (circuit.map fun hop => (hop.onionHop c, hop.ephemeralSecret)).reverse.foldl (wrapHop c)
      { currentPayload := payload } = wrapped c payload circuit := by
  induction circuit with
  | nil => rfl
  | cons hop rest ih =>
    -- the first hop comes last, when the rest of the circuit is wrapped
    rw [List.map_cons, List.reverse_cons, List.foldl_append, ih]
    cases rest with
    | nil => rfl
    | cons next rest => rfl

theorem head?_circuitLayers (payload : Bytes) (hop : CircuitHop) (rest : List CircuitHop) :
    (circuitLayers c (hop :: rest) payload).head? = some (layerFor c payload hop rest) := by
  rw [circuitLayers, buildLayersWithRouting, foldl_wrapHop, wrapped, List.reverse_append]
  rfl

variable {c}

/-- A layer gives back what it was made of. -/
theorem peelLayer_makeLayer (hlaw : c.Lawful) (hop : CircuitHop) (plaintext : Bytes) :
    peelLayer c hop.secretKey (makeLayer c (hop.onionHop c) hop.ephemeralSecret plaintext) =
      some plaintext := by
  have hsecret : OnionLayerPeeler.deriveSharedSecret c hop.secretKey
      (c.derivePublic hop.ephemeralSecret) = OnionRouteBuilder.deriveSharedSecret c
        (c.derivePublic hop.secretKey) hop.ephemeralSecret := by
    unfold OnionLayerPeeler.deriveSharedSecret OnionRouteBuilder.deriveSharedSecret
    rw [hlaw.exchange_comm]
  unfold peelLayer makeLayer encryptLayer decryptLayer CircuitHop.onionHop
  rw [dif_pos (hlaw.tag _ _ _)]
  dsimp only
  rw [hsecret, List.take_append_drop, hlaw.decrypt_encrypt]

theorem ciphertext_makeLayer (hsized : c.Sized) (hop : OnionHop) (ephemeralSecret : SecretKey)
    (plaintext : Bytes) :
    (makeLayer c hop ephemeralSecret plaintext).ciphertext.length = plaintext.length := by
  have hlen := hsized.encrypt_length plaintext
    (OnionRouteBuilder.deriveSharedSecret c hop.nodePublicKey ephemeralSecret) FixedBytes.zero
  unfold makeLayer encryptLayer
  rw [dif_pos (by omega)]
  dsimp only
  rw [List.length_take, hlen]
  omega

/-- Each hop adds an address of 32 bytes and the 52 bytes around a ciphertext. -/
theorem ciphertext_layerFor (hsized : c.Sized) (payload : Bytes) (hop : CircuitHop)
    (rest : List CircuitHop) :
    (layerFor c payload hop rest).ciphertext.length = payload.length + 84 * rest.length := by
  induction rest generalizing hop with
  | nil => exact ciphertext_makeLayer hsized _ _ payload
  | cons next rest ih =>
    rw [layerFor, ciphertext_makeLayer hsized, List.length_append, FixedBytes.size,
      OnionLayer.toBytes_length, ih next, List.length_cons]
    omega

/-! ## Peeling -/

/-- An address with a layer behind it makes a relay. -/
theorem route_layer {data : Bytes} {inner : OnionLayer}
    (h : OnionLayer.fromBytes data = .value inner) (nextHop : NodeID) :
    route (nextHop.id.bytes ++ data) =
      { result := false, nextHopOut := some nextHop, remainingLayersOut := [inner] } := by
  have hlen : ¬ (nextHop.id.bytes ++ data).length < 32 := by
    rw [List.length_append, FixedBytes.size]
    omega
  have hid : (nextHop.id.bytes ++ data).take 32 = nextHop.id.bytes :=
    List.take_left' nextHop.id.size
  have hdata : (nextHop.id.bytes ++ data).drop 32 = data := List.drop_left' nextHop.id.size
  unfold route
  rw [dif_neg hlen]
  simp only [hid, hdata, h, Outcome.toOption]

/-- What a relay hands on was behind an address. -/
theorem fromBytes_of_route {decrypted : Bytes} {inner : OnionLayer}
    (h : (route decrypted).remainingLayersOut = [inner]) :
    32 ≤ decrypted.length ∧ OnionLayer.fromBytes (decrypted.drop 32) = .value inner := by
  unfold route at h
  split at h
  · cases h
  · rename_i hlen
    dsimp only at h
    split at h
    · rename_i nextLayer hnext
      cases h
      exact ⟨by omega, Outcome.toOption_eq_some_iff.mp hnext⟩
    · cases h

/-- What a destination keeps is all of the plaintext, or all of it behind an
address. -/
theorem final_of_route {decrypted payload : Bytes}
    (h : (route decrypted).finalPayloadOut = some payload) :
    decrypted.length < 32 ∧ payload = decrypted ∨
      32 ≤ decrypted.length ∧ payload = decrypted.drop 32 := by
  unfold route at h
  split at h
  · rename_i hlen
    cases h
    exact .inl ⟨hlen, rfl⟩
  · rename_i hlen
    dsimp only at h
    split at h
    · cases h
    · cases h
      exact .inr ⟨by omega, rfl⟩

theorem peelLayer_length (hsized : c.Sized) {secretKey : SecretKey} {layer : OnionLayer}
    {decrypted : Bytes} (h : peelLayer c secretKey layer = some decrypted) :
    decrypted.length = layer.ciphertext.length := by
  have hlen := hsized.decrypt_length _ _ _ _ h
  rw [List.length_append, layer.mac.size] at hlen
  omega

/-- What a relay hands on is 84 bytes shorter at least. -/
theorem inner_length (hsized : c.Sized) {secretKey : SecretKey} {layer inner : OnionLayer}
    (h : (peelWithRouting c secretKey layer).remainingLayersOut = [inner]) :
    inner.ciphertext.length + 84 ≤ layer.ciphertext.length ∧
      inner.ciphertext.length < 2 ^ 32 := by
  unfold peelWithRouting at h
  split at h
  · cases h
  · rename_i decrypted hpeel
    obtain ⟨_, hfrom⟩ := fromBytes_of_route h
    have hprefix := (OnionLayer.toBytes_prefix_of_fromBytes hfrom).length_le
    rw [OnionLayer.toBytes_length, List.length_drop] at hprefix
    have hlen := peelLayer_length hsized hpeel
    exact ⟨by omega, OnionLayer.ciphertext_lt_of_fromBytes hfrom⟩

/-- A layer that is delivered has room for the payload and for every relay. -/
theorem length_of_delivers (hsized : c.Sized) {payload : Bytes} {hop : CircuitHop}
    {rest : List CircuitHop} {layer : OnionLayer} (h : Delivers c payload (hop :: rest) layer) :
    payload.length + 84 * rest.length ≤ layer.ciphertext.length := by
  induction rest generalizing hop layer with
  | nil =>
    have hfinal := h.2
    unfold peelWithRouting at hfinal
    split at hfinal
    · cases hfinal
    · rename_i decrypted hpeel
      have hlen := peelLayer_length hsized hpeel
      rcases final_of_route hfinal with ⟨_, rfl⟩ | ⟨_, rfl⟩
      · simp [hlen]
      · rw [List.length_drop, List.length_nil]
        omega
  | cons next rest ih =>
    obtain ⟨_, _, inner, hinner, hrest⟩ := h
    have hroom := ih hrest
    have hlen := (inner_length hsized hinner).1
    rw [List.length_cons]
    omega

/-- The last hop keeps the payload exactly when it is too short for an address. -/
theorem delivers_last_iff (hlaw : c.Lawful) (payload : Bytes) (hop : CircuitHop) :
    Delivers c payload [hop] (layerFor c payload hop []) ↔ payload.length < 32 := by
  have hpeel : peelWithRouting c hop.secretKey (layerFor c payload hop []) = route payload := by
    unfold peelWithRouting layerFor
    rw [peelLayer_makeLayer hlaw]
  rw [Delivers, hpeel]
  constructor
  · rintro ⟨_, hfinal⟩
    rcases final_of_route hfinal with ⟨hshort, _⟩ | ⟨hlong, hdrop⟩
    · exact hshort
    · -- nothing is all of itself and behind an address
      have hlen := congrArg List.length hdrop
      rw [List.length_drop] at hlen
      omega
  · intro hshort
    unfold route
    rw [dif_pos hshort]
    exact ⟨rfl, rfl⟩

/-- A relay hands its layer on exactly when the length of it fits 32 bits. -/
theorem delivers_relay_iff (hlaw : c.Lawful) (hsized : c.Sized) (payload : Bytes)
    (hop next : CircuitHop) (rest : List CircuitHop) :
    Delivers c payload (hop :: next :: rest) (layerFor c payload hop (next :: rest)) ↔
      payload.length + 84 * rest.length < 2 ^ 32 ∧
        Delivers c payload (next :: rest) (layerFor c payload next rest) := by
  have hpeel : peelWithRouting c hop.secretKey (layerFor c payload hop (next :: rest)) =
      route (next.nodeId.id.bytes ++ (layerFor c payload next rest).toBytes) := by
    unfold peelWithRouting
    rw [layerFor, peelLayer_makeLayer hlaw]
  have hlen := ciphertext_layerFor hsized payload next rest
  constructor
  · rintro ⟨_, _, inner, hinner, hrest⟩
    -- the layer that arrives is too short for the rest of the way unless it is the one sent
    have hroom := length_of_delivers hsized hrest
    have hbound := (inner_length hsized hinner).2
    have hfits : payload.length + 84 * rest.length < 2 ^ 32 := by omega
    rw [hpeel, route_layer (OnionLayer.fromBytes_toBytes (hlen ▸ hfits))] at hinner
    cases hinner
    exact ⟨hfits, hrest⟩
  · rintro ⟨hfits, hrest⟩
    rw [Delivers, hpeel, route_layer (OnionLayer.fromBytes_toBytes (hlen ▸ hfits))]
    exact ⟨rfl, rfl, _, rfl, hrest⟩

theorem delivers_layerFor_iff (hlaw : c.Lawful) (hsized : c.Sized) (payload : Bytes)
    (hop : CircuitHop) (rest : List CircuitHop) :
    Delivers c payload (hop :: rest) (layerFor c payload hop rest) ↔
      payload.length < 32 ∧ payload.length + 84 * (rest.length - 1) < 2 ^ 32 := by
  induction rest generalizing hop with
  | nil =>
    rw [delivers_last_iff hlaw]
    simp only [List.length_nil]
    omega
  | cons next rest ih =>
    rw [delivers_relay_iff hlaw hsized, ih next, List.length_cons]
    omega

theorem intact_iff_delivers (payload : Bytes) (hop : CircuitHop) (rest : List CircuitHop) :
    Intact c (hop :: rest) payload ↔
      Delivers c payload (hop :: rest) (layerFor c payload hop rest) := by
  unfold Intact
  rw [head?_circuitLayers]
  simp

/-- **Delivery.** A payload arrives intact along a circuit exactly when it is shorter
than 32 bytes and the longest layer inside another, with 84 bytes for each hop behind
the second, has a 32-bit length. -/
theorem intact_iff (hlaw : c.Lawful) (hsized : c.Sized) (payload : Bytes) (hop : CircuitHop)
    (rest : List CircuitHop) :
    Intact c (hop :: rest) payload ↔
      payload.length < 32 ∧ payload.length + 84 * (rest.length - 1) < 2 ^ 32 :=
  (intact_iff_delivers payload hop rest).trans (delivers_layerFor_iff hlaw hsized payload hop rest)

/-- Node `n` with a key and an ephemeral secret. -/
def sampleHop (n : Nat) : CircuitHop := ⟨sampleNode n, sampleSecret n, sampleSecret (n + 1)⟩

/-- Three bytes arrive at the second hop. -/
theorem short_payload_arrives :
    sampleCrypto.Lawful ∧ sampleCrypto.Sized ∧
      Intact sampleCrypto [sampleHop 1, sampleHop 2] [1, 2, 3] :=
  ⟨sampleCrypto_lawful, sampleCrypto_sized,
    (intact_iff sampleCrypto_lawful sampleCrypto_sized [1, 2, 3] (sampleHop 1)
      [sampleHop 2]).mpr ⟨by decide, by decide⟩⟩

/-- Thirty-two bytes are taken for an address. -/
theorem long_payload_lost :
    ¬ Intact sampleCrypto [sampleHop 1] (List.replicate 32 7) := by
  rw [intact_iff_delivers, delivers_last_iff sampleCrypto_lawful]
  decide

end Cashew.Theorems.OnionCircuits
