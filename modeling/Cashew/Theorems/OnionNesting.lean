import Cashew.Theorems.OnionCircuits

/-!
# Nested onion layers

`build_layers` puts the bytes of one layer into the next, and `to_bytes` writes the length
of a ciphertext in 32 bits. So a payload comes out again exactly when every layer inside
another is short enough for that; the outermost layer is never written as bytes.
-/

namespace Cashew.Theorems.OnionNesting

open Cashew Cashew.Lib OnionRouteBuilder OnionLayerPeeler OnionCircuits

variable (c : SessionCrypto)

/-- The layers for a path. -/
def pathLayers (path : List CircuitHop) (payload : Bytes) : List OnionLayer :=
  buildLayers c (path.map fun hop => (hop.onionHop c, hop.ephemeralSecret)) payload

/-- Every hop peels with its secret key, and what it gets is decoded for the next one. -/
def peelPath : List CircuitHop → OnionLayer → Option Bytes
  | [], _ => none
  | [last], layer => peelLayer c last.secretKey layer
  | hop :: next :: rest, layer =>
    (peelLayer c hop.secretKey layer).bind fun bytes =>
      (OnionLayer.fromBytes bytes).toOption.bind (peelPath (next :: rest))

/-- The last hop of the path gets the payload. -/
def Recovers (path : List CircuitHop) (payload : Bytes) : Prop :=
  ∃ layer, (pathLayers c path payload).head? = some layer ∧
    peelPath c path layer = some payload

/-! ## Wrapping -/

/-- The layer for a hop, with the layers for the rest of the path inside. -/
def nested (payload : Bytes) : CircuitHop → List CircuitHop → OnionLayer
  | hop, [] => makeLayer c (hop.onionHop c) hop.ephemeralSecret payload
  | hop, next :: rest =>
    makeLayer c (hop.onionHop c) hop.ephemeralSecret (nested payload next rest).toBytes

/-- The variables of the loop once the hops of the list have been wrapped. -/
def sealed (payload : Bytes) : List CircuitHop → Wrapping
  | [] => { currentPayload := payload }
  | hop :: rest =>
    { currentPayload := (nested c payload hop rest).toBytes
      layers := (sealed payload rest).layers ++ [nested c payload hop rest] }

theorem foldl_sealHop (payload : Bytes) (path : List CircuitHop) :
    (path.map fun hop => (hop.onionHop c, hop.ephemeralSecret)).reverse.foldl (sealHop c)
      { currentPayload := payload } = sealed c payload path := by
  induction path with
  | nil => rfl
  | cons hop rest ih =>
    -- the first hop comes last, when the rest of the path is wrapped
    rw [List.map_cons, List.reverse_cons, List.foldl_append, ih]
    cases rest with
    | nil => rfl
    | cons next rest => rfl

theorem recovers_iff_peelPath (payload : Bytes) (hop : CircuitHop) (rest : List CircuitHop) :
    Recovers c (hop :: rest) payload ↔
      peelPath c (hop :: rest) (nested c payload hop rest) = some payload := by
  have hhead : (pathLayers c (hop :: rest) payload).head? = some (nested c payload hop rest) := by
    rw [pathLayers, buildLayers, foldl_sealHop, sealed, List.reverse_append]
    rfl
  unfold Recovers
  rw [hhead]
  simp

variable {c}

/-- Each hop adds the 52 bytes around a ciphertext. -/
theorem ciphertext_nested (hsized : c.Sized) (payload : Bytes) (hop : CircuitHop)
    (rest : List CircuitHop) :
    (nested c payload hop rest).ciphertext.length = payload.length + 52 * rest.length := by
  induction rest generalizing hop with
  | nil => exact ciphertext_makeLayer hsized _ _ payload
  | cons next rest ih =>
    rw [nested, ciphertext_makeLayer hsized, OnionLayer.toBytes_length, ih next, List.length_cons]
    omega

/-! ## Peeling -/

/-- Where the layers inside fit, the payload comes out. -/
theorem peelPath_nested (hlaw : c.Lawful) (hsized : c.Sized) {payload : Bytes}
    {rest : List CircuitHop} (hfits : payload.length + 52 * (rest.length - 1) < 2 ^ 32)
    (hop : CircuitHop) :
    peelPath c (hop :: rest) (nested c payload hop rest) = some payload := by
  induction rest generalizing hop with
  | nil => exact peelLayer_makeLayer hlaw hop payload
  | cons next rest ih =>
    have hlen := ciphertext_nested hsized payload next rest
    rw [List.length_cons, Nat.add_sub_cancel] at hfits
    rw [peelPath, nested, peelLayer_makeLayer hlaw, Option.bind_some,
      OnionLayer.fromBytes_toBytes (hlen ▸ hfits)]
    exact ih (by omega) next

/-- A layer that is peeled along a path had room for what came out and for the layers. -/
theorem length_of_peelPath (hsized : c.Sized) {payload : Bytes} {hop : CircuitHop}
    {rest : List CircuitHop} {layer : OnionLayer}
    (h : peelPath c (hop :: rest) layer = some payload) :
    payload.length + 52 * rest.length ≤ layer.ciphertext.length := by
  induction rest generalizing hop layer with
  | nil => exact Nat.le_of_eq (peelLayer_length hsized h)
  | cons next rest ih =>
    obtain ⟨bytes, hpeel, hinner⟩ := Option.bind_eq_some_iff.mp h
    obtain ⟨inner, hfrom, hrest⟩ := Option.bind_eq_some_iff.mp hinner
    have hroom := ih hrest
    have hprefix := (OnionLayer.toBytes_prefix_of_fromBytes
      (Outcome.toOption_eq_some_iff.mp hfrom)).length_le
    rw [OnionLayer.toBytes_length] at hprefix
    have hlen := peelLayer_length hsized hpeel
    rw [List.length_cons]
    omega

/-- A payload behind at least one more hop came out of a layer that was written as bytes. -/
theorem fits_of_peelPath (hsized : c.Sized) {payload : Bytes} {hop next : CircuitHop}
    {rest : List CircuitHop} {layer : OnionLayer}
    (h : peelPath c (hop :: next :: rest) layer = some payload) :
    payload.length + 52 * rest.length < 2 ^ 32 := by
  obtain ⟨bytes, hpeel, hinner⟩ := Option.bind_eq_some_iff.mp h
  obtain ⟨inner, hfrom, hrest⟩ := Option.bind_eq_some_iff.mp hinner
  have hroom := length_of_peelPath hsized hrest
  have hbound := OnionLayer.ciphertext_lt_of_fromBytes (Outcome.toOption_eq_some_iff.mp hfrom)
  omega

theorem recovers_iff (hlaw : c.Lawful) (hsized : c.Sized) (payload : Bytes) (hop : CircuitHop)
    (rest : List CircuitHop) :
    Recovers c (hop :: rest) payload ↔
      rest = [] ∨ payload.length + 52 * (rest.length - 1) < 2 ^ 32 := by
  rw [recovers_iff_peelPath]
  cases rest with
  | nil => exact iff_of_true (peelLayer_makeLayer hlaw hop payload) (.inl rfl)
  | cons next rest =>
    constructor
    · exact fun h => .inr (fits_of_peelPath hsized h)
    · rintro (hnil | hfits)
      · cases hnil
      · exact peelPath_nested hlaw hsized hfits hop

theorem fromBytes_toBytes_iff (l : OnionLayer) :
    OnionLayer.fromBytes l.toBytes = .value l ↔ l.ciphertext.length < 2 ^ 32 :=
  ⟨OnionLayer.ciphertext_lt_of_fromBytes, OnionLayer.fromBytes_toBytes⟩

/-- **Nesting.** Along a path of at least one hop the payload is recovered exactly when the
longest layer inside another, with 52 bytes for each hop behind the second, has a 32-bit
length; without a hop there is no layer. A layer comes back from its bytes exactly when its
ciphertext has a 32-bit length. -/
theorem nesting_iff (hlaw : c.Lawful) (hsized : c.Sized) :
    (∀ payload hop rest, Recovers c (hop :: rest) payload ↔
      rest = [] ∨ payload.length + 52 * (rest.length - 1) < 2 ^ 32) ∧
    (∀ payload, pathLayers c [] payload = []) ∧
    ∀ l : OnionLayer, OnionLayer.fromBytes l.toBytes = .value l ↔ l.ciphertext.length < 2 ^ 32 :=
  ⟨recovers_iff hlaw hsized, fun _ => rfl, fromBytes_toBytes_iff⟩

/-- Three bytes come out at the third hop. -/
theorem three_hops_recover :
    sampleCrypto.Lawful ∧ sampleCrypto.Sized ∧
      Recovers sampleCrypto [sampleHop 1, sampleHop 2, sampleHop 3] [1, 2, 3] :=
  ⟨sampleCrypto_lawful, sampleCrypto_sized,
    ((nesting_iff sampleCrypto_lawful sampleCrypto_sized).1 [1, 2, 3] (sampleHop 1)
      [sampleHop 2, sampleHop 3]).mpr (.inr (by decide))⟩

/-- Four gigabytes do not come out at the second hop, and a layer that holds them does not
come back from its bytes. -/
theorem long_payload_cut :
    ¬ Recovers sampleCrypto [sampleHop 1, sampleHop 2] (List.replicate (2 ^ 32) 7) ∧
      OnionLayer.fromBytes
          (OnionLayer.toBytes ⟨FixedBytes.zero, List.replicate (2 ^ 32) 7, FixedBytes.zero⟩) ≠
        .value ⟨FixedBytes.zero, List.replicate (2 ^ 32) 7, FixedBytes.zero⟩ := by
  have hlong : ¬ (List.replicate (2 ^ 32) (7 : UInt8)).length < 2 ^ 32 := by
    rw [List.length_replicate]
    exact Nat.lt_irrefl _
  constructor
  · intro h
    rw [recovers_iff_peelPath] at h
    exact hlong (Nat.lt_of_le_of_lt (Nat.le_add_right _ _)
      (fits_of_peelPath sampleCrypto_sized h))
  · exact fun h => hlong (OnionLayer.ciphertext_lt_of_fromBytes h)

end Cashew.Theorems.OnionNesting
