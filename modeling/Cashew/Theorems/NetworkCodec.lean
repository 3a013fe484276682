import Cashew.Network.NetworkCodec

/-!
# Networks as bytes

A network's file has a header, three quorum values and two counted lists of records. Each
record is read back from its own bytes and leaves the next one where it begins, so no
offset drifts, and every read behind the magic bytes tests the size itself
(`network_codec`).
-/

namespace Cashew.Theorems.NetworkCodec

open Cashew Cashew.Lib

/-! ## Staying inside -/

theorem member_inBounds : InBounds NetworkMember.decoder 0 := by
  refine (Checked.fixed_inBounds 32).bind fun _ => ?_
  refine (Checked.fixed_inBounds 32).bind fun _ => ?_
  refine Checked.byte_inBounds.bind fun _ => ?_
  refine Checked.u64_inBounds.bind fun _ => ?_
  refine Checked.u64_inBounds.bind fun _ => ?_
  refine Checked.byte_inBounds.bind fun _ => ?_
  exact Checked.u32_inBounds.bind fun _ => InBounds.pure _ 0

theorem invitation_inBounds : InBounds PendingInvitation.decoder 0 := by
  refine (Checked.fixed_inBounds 32).bind fun _ => ?_
  refine (Checked.fixed_inBounds 32).bind fun _ => ?_
  refine (Checked.fixed_inBounds 32).bind fun _ => ?_
  refine (Checked.fixed_inBounds 32).bind fun _ => ?_
  refine Checked.byte_inBounds.bind fun _ => ?_
  refine Checked.u64_inBounds.bind fun _ => ?_
  refine (Checked.fixed_inBounds 64).bind fun _ => ?_
  exact Checked.u64_inBounds.bind fun _ => InBounds.pure _ 0

/-- The size test at the top covers the magic bytes. -/
theorem header_inBounds : InBounds Network.headerDecoder 0 := by
  have hrest : InBounds (do
      let version ← Checked.u32
      if version ≠ 1 then Decoder.reject
      else
        let networkId ← Checked.fixed 32
        let thingHash ← Checked.fixed 32
        pure (NetworkID.mk networkId, ContentHash.mk thingHash)) 0 := by
    refine Checked.u32_inBounds.bind fun version => ?_
    split
    · exact InBounds.reject 0
    · refine (Checked.fixed_inBounds 32).bind fun _ => ?_
      exact (Checked.fixed_inBounds 32).bind fun _ => InBounds.pure _ 0
  apply InBounds.require_bind
  refine InBounds.take_bind (m := 4) (n := 4 + 32 + 32) fun found _ => ?_
  split
  · exact InBounds.reject _
  · exact hrest.mono (Nat.zero_le _)

theorem body_inBounds (networkId : NetworkID) (thingHash : ContentHash) :
    InBounds (Network.bodyDecoder networkId thingHash) 0 := by
  refine Checked.u32_inBounds.bind fun _ => ?_
  refine Checked.u32_inBounds.bind fun _ => ?_
  refine Checked.u32_inBounds.bind fun _ => ?_
  refine Checked.u64_inBounds.bind fun _ => ?_
  refine Checked.u32_inBounds.bind fun memberCount => ?_
  refine (InBounds.replicate member_inBounds memberCount.toNat).bind fun _ => ?_
  refine Checked.u32_inBounds.bind fun pendingCount => ?_
  exact (InBounds.replicate invitation_inBounds pendingCount.toNat).bind fun _ =>
    InBounds.pure _ 0

/-! ## Both directions -/

/-- **Networks as bytes.** Every network whose quorum values and counts are below `2 ^ 32`
is read back with all its fields, and no input makes `deserialize` leave it. -/
theorem network_codec :
    (∀ n : Network, n.Fits → Network.deserialize n.serialize = .value n) ∧
    ∀ data : Bytes, Network.deserialize data ≠ .outOfBounds := by
  refine ⟨?_, ?_⟩
  · intro n hfits
    exact (Network.deserialize_serialize_iff n).mpr hfits
  · intro data
    exact (header_inBounds.bind fun header => body_inBounds header.1 header.2).run

/-- A network with two members and an invitation. -/
def sampleNetwork : Network where
  networkId := ⟨sampleHash [1]⟩
  thingHash := ⟨sampleHash [2]⟩
  members := [
    NetworkMember.create (sampleNode 1) (samplePublicKey 1) (.listed .founder),
    { NetworkMember.create (sampleNode 2) (samplePublicKey 2) (.listed .full) with
      hasCompleteReplica := true }]
  quorum := {}
  createdTimestamp := 1200
  pendingInvitations := [{
    invitation := {
      networkId := ⟨sampleHash [1]⟩
      inviterId := sampleNode 1
      inviteeId := sampleNode 3
      inviterPublicKey := samplePublicKey 1
      proposedRole := .listed .observer
      expiresTimestamp := 2400
      signature := FixedBytes.zero }
    createdTimestamp := 1200 }]

theorem sampleNetwork_read_back :
    sampleNetwork.Fits ∧
      Network.deserialize sampleNetwork.serialize = .value sampleNetwork := by
  have hfits : sampleNetwork.Fits :=
    ⟨by decide, by decide, by decide, by decide, by decide⟩
  exact ⟨hfits, network_codec.1 sampleNetwork hfits⟩

end Cashew.Theorems.NetworkCodec
