import Cashew.Network.GossipCodec

/-!
# Gossip records as bytes

Every gossip record is read back as it was written (`gossip_roundTrips`). On
bytes that no encoder wrote, three of the decoders can leave the buffer: each
tests one minimum size and then follows a length, a count or a flag of the
sender. `gossip_inBounds_iff` has the exact condition for each of them.
-/

namespace Cashew.Theorems.GossipCodec

open Cashew Cashew.Lib

/-! ## Reading back -/

/-- **Round trips.** Decoding undoes encoding for every gossip record whose
variable parts are shorter than `2 ^ 32`. -/
theorem gossip_roundTrips :
    (∀ c : NodeCapabilities, NodeCapabilities.fromBytes c.toBytes = .value c) ∧
    (∀ a : PeerAnnouncement, PeerAnnouncement.fromBytes a.toBytes = .value a) ∧
    (∀ a : ContentAnnouncement, ContentAnnouncement.fromBytes a.toBytes = .value a) ∧
    (∀ u : NetworkStateUpdate, u.activeNodes.length < 2 ^ 32 → u.entropySeed.length < 2 ^ 32 →
      u.signatures.length < 2 ^ 32 → NetworkStateUpdate.fromBytes u.toBytes = .value u) ∧
    (∀ m : GossipMessage, m.payload.length < 2 ^ 32 →
      GossipMessage.fromBytes m.toBytes = .value m) := by
  refine ⟨?_, ?_, ?_, ?_, ?_⟩
  · exact fun c => c.decodes.run
  · exact fun a => a.decodes.run
  · exact fun a => a.decodes.run
  · exact fun u hnodes hseed hsigs => (u.decodes hnodes hseed hsigs).run
  · exact fun m hpayload => (m.decodes hpayload).run

/-- A network state with two nodes, a seed and one signature. -/
def sampleState : NetworkStateUpdate where
  epochNumber := 2
  activeNodes := [sampleNode 1, sampleNode 2]
  powDifficulty := 4
  entropySeed := [7]
  timestamp := 1200
  signatures := [FixedBytes.zero]

/-- The message that carries it. -/
def sampleStateMessage : GossipMessage where
  type := .listed .networkStateUpdate
  messageId := FixedBytes.zero
  payload := sampleState.toBytes
  timestamp := 1200
  hopCount := 0

theorem gossip_roundTrips_sample :
    NetworkStateUpdate.fromBytes sampleState.toBytes = .value sampleState ∧
      GossipMessage.fromBytes sampleStateMessage.toBytes = .value sampleStateMessage := by
  refine ⟨?_, ?_⟩
  · exact gossip_roundTrips.2.2.2.1 sampleState (by decide) (by decide) (by decide)
  · exact gossip_roundTrips.2.2.2.2 sampleStateMessage (by decide +kernel)

/-! ## Staying inside -/

/-- The `uint32_t` at an offset. -/
def field32 (data : Bytes) (offset : Nat) : Nat := leNat ((data.drop offset).take 4)

/-- An envelope whose payload leaves room for the timestamp and the hop count,
or whose size is refused. -/
def EnvelopeSized (data : Bytes) : Prop :=
  data.length < 46 ∨ data.length < 37 + field32 data 33 ∨ 46 + field32 data 33 ≤ data.length

/-- A network state in which the fixed fields behind the nodes and behind the
seed are there, or whose nodes or seed are refused. -/
def StateSized (data : Bytes) : Prop :=
  let nodesEnd := 12 + 32 * field32 data 8
  let seedEnd := nodesEnd + 8 + field32 data (nodesEnd + 4)
  data.length < 32 ∨ data.length < nodesEnd ∨
    nodesEnd + 8 ≤ data.length ∧ (data.length < seedEnd ∨ seedEnd + 12 ≤ data.length)

/-- A content announcement whose flag for a network id is not set, or that has
the 32 bytes more. -/
def AnnouncementSized (data : Bytes) : Prop :=
  data.length < 145 ∨ data[72]? ≠ some 1 ∨ 177 ≤ data.length

/-- The timestamp and the hop count behind the payload. -/
theorem envelopeTail_overruns (type : UInt8) (messageId : Hash256) (payload s : Bytes) :
    Overruns (do
      let timestamp ← Decoder.u64
      let hopCount ← Decoder.byte
      pure { type := Wire.ofByte type, messageId, payload, timestamp, hopCount :
        GossipMessage }) s ↔ s.length < 9 := by
  refine (Overruns.u64_bind fun _ => Overruns.byte_bind fun _ =>
    iff_of_false (Overruns.not_pure _) id).trans ?_
  rw [List.length_drop, or_false]
  omega

/-- Everything behind the id, with the payload's own test. -/
theorem envelopePayload_overruns (type : UInt8) (messageId : Hash256) (s : Bytes) :
    Overruns (do
      let payloadSize ← Decoder.le 4
      Decoder.require payloadSize
      let payload ← Decoder.take payloadSize
      let timestamp ← Decoder.u64
      let hopCount ← Decoder.byte
      pure { type := Wire.ofByte type, messageId, payload, timestamp, hopCount :
        GossipMessage }) s ↔
      s.length < 4 ∨ 4 + leNat (s.take 4) ≤ s.length ∧ s.length < 13 + leNat (s.take 4) := by
  rw [Overruns.le_bind, Overruns.require_bind, Overruns.take_bind, envelopeTail_overruns,
    List.length_drop, List.length_drop, List.length_drop]
  omega

theorem envelope_overruns_iff (data : Bytes) :
    Overruns GossipMessage.decoder data ↔ ¬ EnvelopeSized data := by
  unfold GossipMessage.decoder
  rw [Overruns.require_bind, Overruns.byte_bind fun type =>
    FixedBytes.decoder_overruns fun messageId => envelopePayload_overruns type messageId _]
  unfold EnvelopeSized field32
  simp only [List.length_drop, List.drop_drop, Nat.reduceAdd]
  omega

theorem signature_readsChecked : ReadsChecked NetworkStateUpdate.signatureDecoder 64 := by
  simpa [NetworkStateUpdate.signatureDecoder] using FixedBytes.decoder_readsChecked (n := 64) id

theorem node_readsChecked : ReadsChecked NetworkStateUpdate.nodeDecoder 32 :=
  FixedBytes.decoder_readsChecked NodeID.mk

/-- The timestamp and the signature count behind the seed; the loop tests itself. -/
theorem stateTail_overruns (epochNumber : UInt64) (activeNodes : List NodeID)
    (powDifficulty : UInt32) (entropySeed s : Bytes) :
    Overruns (do
      let timestamp ← Decoder.u64
      let sigCount ← Decoder.le 4
      let signatures ← Decoder.replicate NetworkStateUpdate.signatureDecoder sigCount
      pure { epochNumber, activeNodes, powDifficulty, entropySeed, timestamp, signatures :
        NetworkStateUpdate }) s ↔ s.length < 12 := by
  refine (Overruns.u64_bind fun _ => Overruns.le_bind.trans (or_congr_right
    (Overruns.checked_bind (signature_readsChecked.replicate _) fun _ =>
      iff_of_false (Overruns.not_pure _) id))).trans ?_
  rw [List.length_drop, and_false, or_false]
  omega

/-- The difficulty and the seed size behind the nodes, and the seed's own test. -/
theorem stateSeed_overruns (epochNumber : UInt64) (activeNodes : List NodeID) (s : Bytes) :
    Overruns (do
      let powDifficulty ← Decoder.u32
      let seedSize ← Decoder.le 4
      Decoder.require seedSize
      let entropySeed ← Decoder.take seedSize
      let timestamp ← Decoder.u64
      let sigCount ← Decoder.le 4
      let signatures ← Decoder.replicate NetworkStateUpdate.signatureDecoder sigCount
      pure { epochNumber, activeNodes, powDifficulty, entropySeed, timestamp, signatures :
        NetworkStateUpdate }) s ↔
      s.length < 8 ∨ 8 + leNat ((s.drop 4).take 4) ≤ s.length ∧
        s.length < 20 + leNat ((s.drop 4).take 4) := by
  refine (Overruns.u32_bind fun _ => Overruns.le_bind.trans (or_congr_right
    (Overruns.require_bind.trans (and_congr_right fun _ => Overruns.take_bind.trans
      (or_congr_right (stateTail_overruns _ _ _ _ _)))))).trans ?_
  simp only [List.length_drop]
  omega

theorem state_overruns_iff (data : Bytes) :
    Overruns NetworkStateUpdate.decoder data ↔ ¬ StateSized data := by
  unfold NetworkStateUpdate.decoder
  rw [Overruns.require_bind, Overruns.u64_bind fun epochNumber => Overruns.le_bind.trans
    (or_congr_right (Overruns.checked_bind (node_readsChecked.replicate _) fun activeNodes =>
      stateSeed_overruns epochNumber activeNodes _))]
  unfold StateSized field32
  simp only [List.length_drop, List.drop_drop, Nat.reduceAdd]
  omega

/-- The timestamp and the signature behind the network id. -/
theorem announcementTail_overruns (contentHash hostingNode : Hash256) (contentSize : UInt64)
    (networkId : Option Hash256) (s : Bytes) :
    Overruns (do
      let timestamp ← Decoder.u64
      let signature ← FixedBytes.decoder 64
      pure { contentHash := ⟨contentHash⟩, contentSize, hostingNode := ⟨hostingNode⟩, networkId,
             timestamp, signature : ContentAnnouncement }) s ↔ s.length < 72 := by
  refine (Overruns.u64_bind fun _ => FixedBytes.decoder_overruns fun _ =>
    iff_of_false (Overruns.not_pure _) id).trans ?_
  rw [List.length_drop, or_false]
  omega

/-- With the flag set, 32 bytes more are consumed in front of them. -/
theorem announcementNetwork_overruns (contentHash hostingNode : Hash256) (contentSize : UInt64)
    (hasNetwork : UInt8) (s : Bytes) :
    Overruns (do
      let networkId ← ContentAnnouncement.networkDecoder hasNetwork
      let timestamp ← Decoder.u64
      let signature ← FixedBytes.decoder 64
      pure { contentHash := ⟨contentHash⟩, contentSize, hostingNode := ⟨hostingNode⟩, networkId,
             timestamp, signature : ContentAnnouncement }) s ↔
      if hasNetwork = 1 then 32 ≤ s.length ∧ s.length < 104 else s.length < 72 := by
  unfold ContentAnnouncement.networkDecoder
  by_cases hflag : hasNetwork = 1
  · rw [if_pos hflag, if_pos hflag, Overruns.checked_bind
      (FixedBytes.decoder_readsChecked (n := 32) some) fun networkId =>
        announcementTail_overruns _ _ _ networkId _,
      List.length_drop]
    omega
  · rw [if_neg hflag, if_neg hflag, pure_bind]
    exact announcementTail_overruns _ _ _ none s

theorem announcement_overruns_iff (data : Bytes) :
    Overruns ContentAnnouncement.decoder data ↔ ¬ AnnouncementSized data := by
  unfold ContentAnnouncement.decoder
  rw [Overruns.require_bind, FixedBytes.decoder_overruns fun contentHash =>
    Overruns.u64_bind fun contentSize => FixedBytes.decoder_overruns fun hostingNode =>
      Overruns.flag_bind.trans (or_congr_right (exists_congr fun hasNetwork =>
        and_congr_right fun _ =>
          announcementNetwork_overruns contentHash hostingNode contentSize hasNetwork _))]
  unfold AnnouncementSized
  simp only [List.length_drop, List.drop_drop, Nat.reduceAdd, List.getElem?_drop, Nat.add_zero]
  cases hbyte : data[72]? with
  | none =>
    have hshort := List.getElem?_eq_none_iff.mp hbyte
    simp only [reduceCtorEq, false_and, exists_const, or_false, ne_eq, not_false_eq_true, true_or,
      or_true, not_true_eq_false, iff_false, not_and, not_or, not_lt]
    omega
  | some flag =>
    by_cases hflag : flag = 1
    · subst hflag
      simp only [Option.some.injEq, exists_eq_left', ↓reduceIte, ne_eq, not_true_eq_false, false_or,
        not_or, not_lt, not_le, and_congr_right_iff]
      omega
    · simp only [Option.some.injEq, exists_eq_left', hflag, ↓reduceIte, ne_eq, not_false_eq_true,
        true_or, or_true, not_true_eq_false, iff_false, not_and, not_or, not_lt]
      omega

/-- **Staying inside.** The decoder of an envelope, of a network state and of a
content announcement leaves its input exactly where the sizes and the flag in the
input do not fit its length. -/
theorem gossip_inBounds_iff (data : Bytes) :
    (GossipMessage.fromBytes data ≠ .outOfBounds ↔ EnvelopeSized data) ∧
    (NetworkStateUpdate.fromBytes data ≠ .outOfBounds ↔ StateSized data) ∧
    (ContentAnnouncement.fromBytes data ≠ .outOfBounds ↔ AnnouncementSized data) := by
  refine ⟨?_, ?_, ?_⟩
  · rw [GossipMessage.fromBytes, Ne, Overruns.run_iff, envelope_overruns_iff, not_not]
  · rw [NetworkStateUpdate.fromBytes, Ne, Overruns.run_iff, state_overruns_iff, not_not]
  · rw [ContentAnnouncement.fromBytes, Ne, Overruns.run_iff, announcement_overruns_iff, not_not]

/-- An envelope of the minimum size whose payload claims the timestamp and the
hop count, a network state whose seed claims the timestamp and the signature
count, and an announcement of the minimum size with the flag set. -/
theorem overruns_sample :
    GossipMessage.fromBytes (List.replicate 33 0 ++ leBytes 4 9 ++ List.replicate 9 0) =
        .outOfBounds ∧
      NetworkStateUpdate.fromBytes (List.replicate 16 0 ++ leBytes 4 12 ++ List.replicate 12 0) =
        .outOfBounds ∧
      ContentAnnouncement.fromBytes (List.replicate 72 0 ++ [1] ++ List.replicate 72 0) =
        .outOfBounds := by
  decide +kernel

end Cashew.Theorems.GossipCodec
