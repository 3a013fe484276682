import Cashew.Network.PeerMessages

/-!
# Reading peer messages inside their bytes

All three decoders test a minimum size first. The answer of a NAT traversal tests
once more, for the address and everything behind it. The other two test the
address alone: a timestamp that follows is read without a test of its own. So an
address that ends inside the message but leaves too few bytes sends the reads past
the end — for an announcement once, for a peer list at any of its entries.
-/

namespace Cashew.Theorems.PeerCodec

open Cashew Cashew.Lib

/-! ## The sizes that are safe -/

/-- The `uint16_t` at an offset. -/
def field16 (data : Bytes) (offset : Nat) : Nat := beNat ((data.drop offset).take 2)

/-- An announcement that is refused in front of its timestamp, or has the
timestamp and the capabilities' length behind its address. -/
def AnnouncementSized (data : Bytes) : Prop :=
  data.length < 140 ∨ data[0]? ≠ some 0x01 ∨
    data.length < 35 + field16 data 33 ∨ 45 + field16 data 33 ≤ data.length

/-- Where the `i`-th entry begins, the first one at `first`: each takes 42 bytes
and its address. -/
def entryStart (data : Bytes) (first : Nat) : Nat → Nat
  | 0 => first
  | i + 1 => entryStart data first i + 42 + field16 data (entryStart data first i + 32)

/-- The entry at `start` is refused in front of its timestamp, or has the
timestamp behind its address. -/
def EntrySized (data : Bytes) (start : Nat) : Prop :=
  data.length < start + 42 ∨ data.length < start + 34 + field16 data (start + 32) ∨
    start + 42 + field16 data (start + 32) ≤ data.length

/-- A peer list that is refused in front of its entries, or whose entries are all
so. -/
def ResponseSized (data : Bytes) : Prop :=
  data.length < 107 ∨ data[0]? ≠ some 0x03 ∨
    ∀ i < field16 data 33, EntrySized data (entryStart data 35 i)

theorem field16_drop (data : Bytes) (n offset : Nat) :
    field16 (data.drop n) offset = field16 data (n + offset) := by
  rw [field16, field16, List.drop_drop]

/-! ## Announcements -/

/-- The signature is covered by the test of the capabilities' length. -/
theorem capabilities_inBounds (parseCapabilities : Bytes → Option (Bool × Bool × Bool))
    (nodeId : NodeID) (listenAddress : Text) (timestamp : UInt64) (capsLen : Nat) :
    InBounds (PeerAnnouncementMessage.capabilitiesDecoder parseCapabilities nodeId listenAddress
      timestamp capsLen) 0 := by
  apply InBounds.require_bind
  refine InBounds.take_bind fun caps _ => ?_
  cases parseCapabilities caps with
  | none => exact InBounds.reject 64
  | some flags => exact FixedBytes.decoder_inBounds (m := 0) fun _ => InBounds.pure _ 0

/-- Behind the address ten bytes are read untested. -/
theorem announcement_overruns_iff (parseCapabilities : Bytes → Option (Bool × Bool × Bool))
    (data : Bytes) :
    Overruns (PeerAnnouncementMessage.decoder parseCapabilities) data ↔
      ¬ AnnouncementSized data := by
  have htail (nodeId : Hash256) (address s : Bytes) : Overruns (do
      let timestamp ← Decoder.beU64
      let capsLen ← Decoder.be 2
      PeerAnnouncementMessage.capabilitiesDecoder parseCapabilities ⟨nodeId⟩ ⟨address⟩ timestamp
        capsLen) s ↔ s.length < 10 := by
    refine (Overruns.beU64_bind fun timestamp => Overruns.be_bind.trans (or_iff_left fun h =>
      capabilities_inBounds _ _ _ _ _ _ (Nat.zero_le _) h)).trans ?_
    rw [List.length_drop]
    omega
  unfold PeerAnnouncementMessage.decoder
  rw [Overruns.require_bind, Overruns.tag_bind, FixedBytes.decoder_overruns fun nodeId =>
    Overruns.be_bind.trans (or_congr_right (Overruns.require_bind.trans (and_congr_right fun _ =>
      Overruns.take_bind.trans (or_congr_right (htail nodeId _ _)))))]
  unfold AnnouncementSized field16
  simp only [List.length_drop, List.drop_drop, Nat.reduceAdd]
  by_cases htag : data[0]? = some 0x01
  · simp only [htag, true_and, not_true_eq_false, false_or, ne_eq]
    omega
  · simp only [htag, false_and, not_false_eq_true, true_or, or_true, ne_eq, not_true_eq_false,
      or_false, iff_false]
    omega

/-! ## Peer lists -/

/-- Everything an entry reads is there: the next one begins behind its address
and its timestamp. -/
theorem entry_value {s : Bytes} (h : 42 + field16 s 32 ≤ s.length) :
    ∃ entry, PeerEntry.decoder s = .value (entry, s.drop (42 + field16 s 32)) := by
  unfold PeerEntry.decoder
  rw [Decoder.require_bind_of_le (by omega), FixedBytes.decoder_bind_of_le (by omega),
    Decoder.be_bind_of_le (by rw [List.length_drop]; omega)]
  unfold field16 at h ⊢
  rw [Decoder.require_bind_of_le (by simp only [List.length_drop]; omega),
    Decoder.take_bind_of_le (by simp only [List.length_drop]; omega), Decoder.beU64, bind_assoc,
    Decoder.be_bind_of_le (by simp only [List.length_drop]; omega)]
  simp only [List.drop_drop]
  refine ⟨_, congrArg Outcome.value (Prod.ext rfl ?_)⟩
  show s.drop _ = s.drop _
  congr 1
  omega

/-- An address that does not end inside the message is refused. -/
theorem entry_rejected {s : Bytes} (h : s.length < 42 ∨ s.length < 34 + field16 s 32) :
    PeerEntry.decoder s = .rejected := by
  unfold PeerEntry.decoder
  by_cases hmin : s.length < 42
  · exact Decoder.require_bind_of_lt hmin
  · have haddr := h.resolve_left hmin
    unfold field16 at haddr
    rw [Decoder.require_bind_of_le (by omega), FixedBytes.decoder_bind_of_le (by omega),
      Decoder.be_bind_of_le (by rw [List.length_drop]; omega),
      Decoder.require_bind_of_lt (by simp only [List.length_drop]; omega)]

theorem entry_overruns_iff (s : Bytes) :
    Overruns PeerEntry.decoder s ↔
      42 ≤ s.length ∧ 34 + field16 s 32 ≤ s.length ∧ s.length < 42 + field16 s 32 := by
  unfold PeerEntry.decoder
  rw [Overruns.require_bind, FixedBytes.decoder_overruns fun nodeId =>
    Overruns.be_bind.trans (or_congr_right (Overruns.require_bind.trans (and_congr_right fun _ =>
      Overruns.take_bind.trans (or_congr_right (Overruns.beU64_bind fun _ =>
        iff_of_false (Overruns.not_pure _) id)))))]
  unfold field16
  simp only [List.length_drop, List.drop_drop, or_false]
  omega

/-- **One entry.** The reading goes on behind it when all of it is there. -/
theorem entry_value_iff {s rest : Bytes} :
    (∃ entry, PeerEntry.decoder s = .value (entry, rest)) ↔
      42 + field16 s 32 ≤ s.length ∧ rest = s.drop (42 + field16 s 32) := by
  constructor
  · rintro ⟨entry, hentry⟩
    by_cases hlen : 42 + field16 s 32 ≤ s.length
    · obtain ⟨entry', hentry'⟩ := entry_value hlen
      rw [hentry'] at hentry
      cases hentry
      exact ⟨hlen, rfl⟩
    · -- otherwise the entry is refused or leaves the message
      by_cases haddr : s.length < 42 ∨ s.length < 34 + field16 s 32
      · rw [entry_rejected haddr] at hentry
        cases hentry
      · have hover : PeerEntry.decoder s = .outOfBounds := (entry_overruns_iff s).mpr (by omega)
        rw [hover] at hentry
        cases hentry
  · rintro ⟨hlen, rfl⟩
    exact entry_value hlen

theorem entryStart_succ (data : Bytes) (first i : Nat) :
    entryStart data (first + 42 + field16 data (first + 32)) i = entryStart data first (i + 1) := by
  induction i with
  | zero => rfl
  | succ i ih =>
    rw [entryStart, ih]
    rfl

/-- Entries begin one behind the other. -/
theorem le_entryStart (data : Bytes) (first i : Nat) : first ≤ entryStart data first i := by
  induction i with
  | zero => exact Nat.le_refl _
  | succ i ih =>
    rw [entryStart]
    omega

/-- **The loop.** It goes too far when one of its entries does; an entry that has
its 42 bytes is reached, since the ones in front of it end inside the message. -/
theorem entries_overrun_iff (data : Bytes) : ∀ (count first : Nat),
    Overruns (Decoder.replicate PeerEntry.decoder count) (data.drop first) ↔
      ∃ i < count, ¬ EntrySized data (entryStart data first i)
  | 0, first => by
    refine iff_of_false (Overruns.not_pure _) ?_
    rintro ⟨i, hi, -⟩
    exact absurd hi (Nat.not_lt_zero i)
  | count + 1, first => by
    have hnext : (data.drop first).drop (42 + field16 (data.drop first) 32) =
        data.drop (first + 42 + field16 data (first + 32)) := by
      rw [field16_drop, List.drop_drop, Nat.add_assoc]
    have hrest := entries_overrun_iff data count (first + 42 + field16 data (first + 32))
    simp only [entryStart_succ] at hrest
    rw [Overruns.replicate_succ, entry_overruns_iff, field16_drop, List.length_drop]
    constructor
    · -- the first entry goes too far, or one of the rest
      rintro (hentry | ⟨entry, rest, hentry, hover⟩)
      · refine ⟨0, Nat.succ_pos _, ?_⟩
        unfold EntrySized entryStart
        omega
      · obtain ⟨-, rfl⟩ := entry_value_iff.mp ⟨entry, hentry⟩
        rw [hnext, hrest] at hover
        obtain ⟨i, hi, hsize⟩ := hover
        exact ⟨i + 1, Nat.succ_lt_succ hi, hsize⟩
    · rintro ⟨i, hi, hsize⟩
      cases i with
      | zero =>
        unfold EntrySized entryStart at hsize
        exact .inl (by omega)
      | succ i =>
        -- a later entry that has its 42 bytes begins behind the whole of this one
        have hle := le_entryStart data (first + 42 + field16 data (first + 32)) i
        rw [entryStart_succ] at hle
        have hreached : 42 + field16 (data.drop first) 32 ≤ (data.drop first).length := by
          unfold EntrySized at hsize
          rw [field16_drop, List.length_drop]
          omega
        obtain ⟨entry, hentry⟩ := entry_value hreached
        refine .inr ⟨entry, _, hentry, ?_⟩
        rw [hnext, hrest]
        exact ⟨i, Nat.lt_of_succ_lt_succ hi, hsize⟩

theorem tail_inBounds (responderId : NodeID) (peers : List PeerEntry) :
    InBounds (PeerResponseMessage.tailDecoder responderId peers) 0 := by
  apply InBounds.require_bind
  refine InBounds.beU64_bind (n := 64) fun _ => ?_
  exact FixedBytes.decoder_inBounds (m := 0) fun _ => InBounds.pure _ 0

theorem response_overruns_iff (data : Bytes) :
    Overruns PeerResponseMessage.decoder data ↔ ¬ ResponseSized data := by
  unfold PeerResponseMessage.decoder
  rw [Overruns.require_bind, Overruns.tag_bind, FixedBytes.decoder_overruns fun responderId =>
    Overruns.be_bind.trans (or_congr_right (Overruns.bind_inBounds fun peers =>
      tail_inBounds ⟨responderId⟩ peers))]
  simp only [List.length_drop, List.drop_drop, Nat.reduceAdd, entries_overrun_iff]
  unfold ResponseSized
  rw [not_or, not_or, not_not, Nat.not_lt]
  simp only [not_forall, exists_prop]
  refine and_congr_right fun hmin => ?_
  rw [or_iff_right (by omega), or_iff_right (by omega), or_iff_right (by omega)]
  rfl

/-! ## NAT traversal -/

/-- One test covers the address and all that stands behind it. -/
theorem natResponse_inBounds : InBounds NATTraversalResponse.decoder 0 := by
  apply InBounds.require_bind
  refine InBounds.tag_bind (n := 2 + 10) ?_
  refine InBounds.be_bind (n := 10) fun addrLen _ => ?_
  apply InBounds.require_bind
  refine InBounds.take_bind (n := 10) fun _ _ => ?_
  refine InBounds.be_bind (n := 8) fun _ _ => ?_
  exact InBounds.beU64_bind (n := 0) fun _ => InBounds.pure _ 0

/-! ## All three -/

/-- **Reads inside the input.** The three decoders stay inside a byte string just
when it is no announcement and no peer list with an address that ends inside it
and leaves no room for the fixed fields behind. -/
theorem reads_inside_iff (parseCapabilities : Bytes → Option (Bool × Bool × Bool))
    (data : Bytes) :
    (PeerAnnouncementMessage.fromBytes parseCapabilities data ≠ .outOfBounds ∧
        PeerResponseMessage.fromBytes data ≠ .outOfBounds ∧
        NATTraversalResponse.fromBytes data ≠ .outOfBounds) ↔
      AnnouncementSized data ∧ ResponseSized data := by
  refine and_congr ?_ ?_
  · exact not_iff_comm.mp
      ((announcement_overruns_iff parseCapabilities data).symm.trans Overruns.run_iff.symm)
  · have hnat : NATTraversalResponse.fromBytes data ≠ .outOfBounds := natResponse_inBounds.run
    rw [and_iff_left hnat]
    exact not_iff_comm.mp ((response_overruns_iff data).symm.trans Overruns.run_iff.symm)

/-- An announcement of 140 bytes that is all address, behind which nothing is
left, and a peer list of 107 bytes whose only entry is so. -/
theorem address_to_the_end_overruns :
    PeerAnnouncementMessage.fromBytes (fun _ => none)
        (0x01 :: List.replicate 32 0 ++ [0, 105] ++ List.replicate 105 0) = .outOfBounds ∧
      PeerResponseMessage.fromBytes
        (0x03 :: List.replicate 32 0 ++ [0, 1] ++ List.replicate 32 0 ++ [0, 38] ++
          List.replicate 38 0) = .outOfBounds := by
  decide +kernel

end Cashew.Theorems.PeerCodec
