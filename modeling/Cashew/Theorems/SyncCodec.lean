import Cashew.Network.LedgerSync

/-!
# The sync message format

`deserialize` undoes `serialize` for every message with events. A message
without events is 53 bytes long — type, two epochs, hash, count — while
`deserialize` asks for 57, counting four bytes of a first event that is not
there. So checkpoints, sync requests and empty responses are never read back.
-/

namespace Cashew.Theorems.SyncCodec

open Cashew Cashew.Lib LedgerSyncMessage

/-- The receiver gets the message that was sent. -/
def RoundTrips (m : LedgerSyncMessage) : Prop := deserialize m.serialize = .value m

/-- The bytes in front of the events. -/
def headerSize : Nat := 1 + 8 + 8 + 32 + 4

theorem serialize_length (m : LedgerSyncMessage) :
    m.serialize.length = headerSize + (m.events.flatMap eventField).length := by
  simp only [serialize, headerSize, List.length_append, List.length_singleton, u64Bytes_length,
    leBytes_length, FixedBytes.size]
  omega

/-- An event alone is longer than the four bytes the size test has to spare. -/
theorem eventField_length (e : LedgerEvent) : 4 < (eventField e).length := by
  rw [eventField, List.length_append, leBytes_length, LedgerEvent.toBytes_length]
  have hmin : LedgerEvent.minSize = 181 := rfl
  omega

/-- Every read of `deserialize` is covered by a size test. -/
theorem deserialize_inBounds (data : Bytes) : deserialize data ≠ .outOfBounds := by
  have hevent : InBounds eventDecoder 0 := by
    apply InBounds.require_bind
    refine InBounds.le_bind (n := 0) fun eventSize _ => ?_
    apply InBounds.require_bind
    exact InBounds.nested (LedgerEvent.decoder_inBounds 0)
  refine InBounds.run (InBounds.require_bind ?_)
  refine InBounds.byte_bind (n := 8 + 8 + 32 + 4 + 4) fun _ => ?_
  refine InBounds.u64_bind (n := 8 + 32 + 4 + 4) fun _ => ?_
  refine InBounds.u64_bind (n := 32 + 4 + 4) fun _ => ?_
  refine FixedBytes.decoder_inBounds (m := 4 + 4) fun _ => ?_
  refine InBounds.le_bind (n := 4) fun eventCount _ => ?_
  refine InBounds.mono ?_ (Nat.zero_le 4)
  exact (InBounds.replicate hevent eventCount).bind fun _ => InBounds.pure _ 0

/-- One event is read back from its field. -/
theorem eventDecoder_decodes {e : LedgerEvent} (h : e.toBytes.length < 2 ^ 32) :
    Decodes eventDecoder (eventField e) e := by
  have hfield := eventField_length e
  have hdata : e.data.length < 2 ^ 32 := by
    rw [LedgerEvent.toBytes_length] at h
    omega
  apply Decodes.require_bind (Nat.le_of_lt hfield)
  refine (Decodes.le h).bind ?_
  apply Decodes.require_bind (Nat.le_refl _)
  exact Decodes.nested rfl (e.fromBytes_toBytes hdata)

/-- Past the size test, the header is read back and the events are left: as
many of them as the truncated count says. -/
theorem decoder_serialize (m : LedgerSyncMessage) (hsize : minSize ≤ m.serialize.length) :
    decoder m.serialize =
      (Decoder.replicate eventDecoder (m.events.length % 256 ^ 4) >>= fun events =>
        pure { m with events }) (m.events.flatMap eventField) := by
  unfold decoder
  rw [Decoder.bind_apply, Decoder.require, if_neg (Nat.not_lt.mpr hsize)]
  unfold serialize
  dsimp only
  rw [(Decodes.byte _).bind_append, (Decodes.u64 _).bind_append, (Decodes.u64 _).bind_append,
    (FixedBytes.decodes _).bind_append, (Decodes.le_mod 4 _).bind_append, Wire.ofByte_toByte]

/-- Without events the size test fails. -/
theorem deserialize_of_nil {m : LedgerSyncMessage} (h : m.events = []) :
    deserialize m.serialize = .rejected := by
  have hlen : m.serialize.length < minSize := by
    rw [serialize_length, h]
    decide
  unfold deserialize decoder Decoder.run
  rw [Decoder.bind_apply, Decoder.require, if_pos hlen]

theorem minSize_le_of_ne_nil {m : LedgerSyncMessage} (h : m.events ≠ []) :
    minSize ≤ m.serialize.length := by
  obtain ⟨e, rest, hevents⟩ := List.exists_cons_of_ne_nil h
  have hfield := eventField_length e
  have hhead : headerSize = 53 := rfl
  have hmin : minSize = 57 := rfl
  rw [serialize_length, hevents, List.flatMap_cons, List.length_append]
  omega

/-- **The round trip** works exactly for the messages that carry an event, as
far as their number fits the four bytes of the count. -/
theorem roundTrips_iff (m : LedgerSyncMessage)
    (hsizes : ∀ e ∈ m.events, e.toBytes.length < 2 ^ 32) :
    RoundTrips m ↔ 0 < m.events.length ∧ m.events.length < 2 ^ 32 := by
  constructor
  · intro hround
    have hne : m.events ≠ [] := by
      intro hnil
      rw [RoundTrips, deserialize_of_nil hnil] at hround
      cases hround
    refine ⟨List.length_pos_iff.mpr hne, ?_⟩
    -- the decoder returns as many events as the truncated count says
    obtain ⟨rest, hrest⟩ := Decoder.run_eq_value hround
    rw [decoder_serialize m (minSize_le_of_ne_nil hne)] at hrest
    obtain ⟨events, mid, hevents, hpure⟩ := Decoder.bind_eq_value hrest
    have hsame : events = m.events := by
      have hpair : Outcome.value ({ m with events }, mid) = .value (m, rest) := hpure
      injection hpair with hpair
      exact congrArg (fun p => p.1.events) hpair
    have hcount := Decoder.length_of_replicate hevents
    rw [hsame] at hcount
    have hlt : m.events.length % 256 ^ 4 < 256 ^ 4 := Nat.mod_lt _ (by decide)
    omega
  · rintro ⟨hpos, hlt⟩
    have hne : m.events ≠ [] := List.length_pos_iff.mp hpos
    have hmod : m.events.length % 256 ^ 4 = m.events.length := Nat.mod_eq_of_lt hlt
    have hevents : Decodes (Decoder.replicate eventDecoder m.events.length)
        (m.events.flatMap eventField) m.events :=
      Decodes.replicate fun e he => eventDecoder_decodes (hsizes e he)
    have hall := hevents.bind_pure (f := fun events => { m with events }) []
    rw [List.append_nil] at hall
    unfold RoundTrips deserialize Decoder.run
    rw [decoder_serialize m (minSize_le_of_ne_nil hne), hmod, hall]

/-- The checkpoint of a fresh node is not read back. -/
theorem checkpoint_not_roundTrips :
    ¬ RoundTrips ((LedgerGossipBridge.fresh (sampleNode 1)).checkpointMessage 2) := by
  intro hround
  rw [RoundTrips, deserialize_of_nil rfl] at hround
  cases hround

/-- A broadcast of one event is. -/
theorem event_broadcast_roundTrips :
    RoundTrips ((LedgerGossipBridge.fresh (sampleNode 1)).eventMessage sampleJoin) := by
  refine (roundTrips_iff _ ?_).mpr ⟨by decide, by decide⟩
  intro e he
  rw [List.mem_singleton.mp he]
  decide +kernel

end Cashew.Theorems.SyncCodec
