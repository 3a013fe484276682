import Cashew.Logic.Router

/-!
# Content requests and responses as bytes

A request ends with a counted list of onion layers, each behind its own size; a response
has its content in front of the signature. Count and sizes are the sender's. Both decoders
test for every part before they read it, so they undo the encoders, never leave their
input, and yield only what the input begins with (`content_codec`).
-/

namespace Cashew.Theorems.RouterCodec

open Cashew Cashew.Lib

/-! ## Onion layers -/

/-- One layer as `to_bytes` writes it. -/
def layerField (layer : Bytes) : Bytes := leBytes 4 layer.length ++ layer

theorem layer_inBounds : InBounds ContentRequest.layerDecoder 0 := by
  apply InBounds.require_bind
  refine InBounds.le_bind (n := 0) fun layerSize _ => ?_
  apply InBounds.require_bind
  rw [← bind_pure (Decoder.take layerSize)]
  exact InBounds.take_bind (n := 0) fun _ _ => InBounds.pure _ 0

theorem layer_spells : Spells [] ContentRequest.layerDecoder layerField := by
  apply Spells.require_bind
  refine Spells.le_bind fun layerSize => ?_
  apply Spells.require_bind
  rw [← bind_pure (Decoder.take layerSize)]
  refine Spells.take_bind fun layer hlen => ?_
  apply Spells.pure
  rw [layerField, hlen, List.nil_append]

/-! ## Requests -/

/-- The parts of a request fit their length fields. -/
structure RequestFits (r : ContentRequest) : Prop where
  count : r.onionLayers.length < 65536
  layers : ∀ layer ∈ r.onionLayers, layer.length < 2 ^ 32

theorem request_inBounds : InBounds ContentRequest.decoder 0 := by
  apply InBounds.require_bind
  refine FixedBytes.decoder_inBounds (m := 32 + 32 + 1 + 8 + 2) fun _ => ?_
  refine FixedBytes.decoder_inBounds (m := 32 + 1 + 8 + 2) fun _ => ?_
  refine FixedBytes.decoder_inBounds (m := 1 + 8 + 2) fun _ => ?_
  refine InBounds.byte_bind (n := 8 + 2) fun _ => ?_
  refine InBounds.u64_bind (n := 2) fun _ => ?_
  refine InBounds.le_bind (n := 0) fun layerCount _ => ?_
  exact (InBounds.replicate layer_inBounds layerCount).bind fun _ => InBounds.pure _ 0

theorem request_spells : Spells [] ContentRequest.decoder ContentRequest.toBytes := by
  apply Spells.require_bind
  refine FixedBytes.decoder_spells fun contentHash => ?_
  refine FixedBytes.decoder_spells fun requesterId => ?_
  refine FixedBytes.decoder_spells fun requestId => ?_
  refine Spells.byte_bind fun hopLimit => ?_
  refine Spells.u64_bind fun timestamp => ?_
  refine Spells.le_bind fun layerCount => ?_
  refine Spells.replicate_bind layer_spells fun onionLayers hcount => ?_
  apply Spells.pure
  -- what was counted is what is there
  show _ = _ ++ (_ ++ (_ ++ (_ ++ (_ ++ (leBytes 2 onionLayers.length ++
    onionLayers.flatMap layerField)))))
  simp only [hcount, List.append_assoc, List.nil_append]

/-! ## Responses -/

theorem response_decodes {r : ContentResponse} (h : r.contentData.length < 2 ^ 32) :
    Decodes ContentResponse.decoder r.toBytes r := by
  have hlen : 32 + 32 + 32 + 1 + 4 + 64 ≤ r.toBytes.length := by
    simp only [ContentResponse.toBytes, List.length_append, List.length_singleton,
      FixedBytes.size, leBytes_length]
    omega
  have hsize : r.contentData.length < 256 ^ 4 := h
  have htail : r.contentData.length + 64 ≤ (r.contentData ++ r.signature.bytes).length := by
    rw [List.length_append, r.signature.size]
  apply Decodes.require_bind hlen
  refine (FixedBytes.decodes _).bind ?_
  refine (FixedBytes.decodes _).bind ?_
  refine (FixedBytes.decodes _).bind ?_
  refine (Decodes.byte _).bind ?_
  refine (Decodes.le hsize).bind ?_
  apply Decodes.require_bind htail
  refine (Decodes.take rfl).bind ?_
  exact (FixedBytes.decodes r.signature).bind_pure (f := fun signature => { r with signature })

theorem response_inBounds : InBounds ContentResponse.decoder 0 := by
  apply InBounds.require_bind
  refine FixedBytes.decoder_inBounds (m := 32 + 32 + 1 + 4 + 64) fun _ => ?_
  refine FixedBytes.decoder_inBounds (m := 32 + 1 + 4 + 64) fun _ => ?_
  refine FixedBytes.decoder_inBounds (m := 1 + 4 + 64) fun _ => ?_
  refine InBounds.byte_bind (n := 4 + 64) fun _ => ?_
  refine InBounds.le_bind fun contentSize _ => ?_
  apply InBounds.require_bind
  refine InBounds.take_bind fun _ _ => ?_
  exact FixedBytes.decoder_inBounds (m := 0) fun _ => InBounds.pure _ 0

theorem response_spells : Spells [] ContentResponse.decoder ContentResponse.toBytes := by
  apply Spells.require_bind
  refine FixedBytes.decoder_spells fun contentHash => ?_
  refine FixedBytes.decoder_spells fun hostingNode => ?_
  refine FixedBytes.decoder_spells fun requestId => ?_
  refine Spells.byte_bind fun hopCount => ?_
  refine Spells.le_bind fun contentSize => ?_
  apply Spells.require_bind
  refine Spells.take_bind fun contentData hlen => ?_
  refine FixedBytes.decoder_spells fun signature => ?_
  apply Spells.pure
  simp only [ContentResponse.toBytes, hlen, List.append_assoc, List.nil_append]

/-! ## Both -/

/-- **Content messages as bytes.** For requests with fewer than 65536 layers and for
responses, all parts shorter than `2 ^ 32`, decoding undoes encoding; on every input the
decoders stay inside it; and what they yield encodes to a prefix of the input. -/
theorem content_codec :
    (∀ r : ContentRequest, RequestFits r → ContentRequest.fromBytes r.toBytes = .value r) ∧
    (∀ r : ContentResponse, r.contentData.length < 2 ^ 32 →
      ContentResponse.fromBytes r.toBytes = .value r) ∧
    (∀ b : Bytes, ContentRequest.fromBytes b ≠ .outOfBounds ∧
      ContentResponse.fromBytes b ≠ .outOfBounds) ∧
    (∀ b r, ContentRequest.fromBytes b = .value r → r.toBytes <+: b) ∧
    (∀ b r, ContentResponse.fromBytes b = .value r → r.toBytes <+: b) := by
  refine ⟨?_, ?_, ?_, ?_, ?_⟩
  · exact fun r hfits => (ContentRequest.decodes r hfits.count hfits.layers).run
  · exact fun r hsize => (response_decodes hsize).run
  · exact fun b => ⟨request_inBounds.run, response_inBounds.run⟩
  · exact fun b r hread => request_spells.run hread
  · exact fun b r hread => response_spells.run hread

/-- A request with two onion layers, one of them empty. -/
def sampleContentRequest : ContentRequest where
  contentHash := ⟨sampleHash [1]⟩
  requesterId := sampleNode 3
  requestId := FixedBytes.zero
  hopLimit := 2
  timestamp := 1200
  onionLayers := [[1, 2, 3], []]

/-- A response with two bytes of content. -/
def sampleContentResponse : ContentResponse where
  contentHash := ⟨sampleHash [1]⟩
  contentData := [7, 8]
  hostingNode := sampleNode 2
  requestId := FixedBytes.zero
  hopCount := 1
  signature := FixedBytes.zero

/-- The two as bytes, the first also with a byte too many behind it. -/
theorem content_codec_sample :
    ContentRequest.fromBytes sampleContentRequest.toBytes = .value sampleContentRequest ∧
      ContentResponse.fromBytes sampleContentResponse.toBytes = .value sampleContentResponse ∧
      sampleContentRequest.toBytes <+: sampleContentRequest.toBytes ++ [0] ∧
      sampleContentResponse.toBytes <+: sampleContentResponse.toBytes := by
  have hfits : RequestFits sampleContentRequest := ⟨by decide, by decide⟩
  have hrequest := content_codec.1 sampleContentRequest hfits
  have hresponse := content_codec.2.1 sampleContentResponse (by decide)
  have hlonger : ContentRequest.fromBytes (sampleContentRequest.toBytes ++ [0]) =
      .value sampleContentRequest := by
    decide +kernel
  exact ⟨hrequest, hresponse, content_codec.2.2.2.1 _ _ hlonger,
    content_codec.2.2.2.2 _ _ hresponse⟩

end Cashew.Theorems.RouterCodec
