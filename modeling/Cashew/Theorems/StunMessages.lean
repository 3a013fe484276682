import Cashew.Network.NatTraversal

/-!
# What the walk over STUN attributes reads

The length that is tested covers the eight bytes of an IPv4 address, and an IPv6 address
is copied behind the same test. Everything else is read inside the message, so the walk
leaves the datagram just where it comes to such an address that is cut off
(`datagram_reads_inside_iff`). The walk itself ends: every attribute moves the offset on.
-/

namespace Cashew.Theorems.StunMessages

open Cashew Cashew.Lib STUNMessage

/-! ## The attributes -/

section Attributes

variable (attributes : Bytes) (offset : Nat)

/-- The type of the attribute at the offset. -/
def attributeType : UInt16 := UInt16.ofNat (numberAt attributes offset 2)

/-- The length it gives for its value. -/
def attributeLength : UInt16 := UInt16.ofNat (numberAt attributes (offset + 2) 2)

/-- The address family, if it is an address. -/
def addressFamily : Nat := numberAt attributes (offset + 5) 1

def IsAddress : Prop :=
  attributeType attributes offset = attrXorMappedAddress ∨
    attributeType attributes offset = attrMappedAddress

/-- The message has all of the attribute. -/
def Whole : Prop :=
  offset + 4 ≤ attributes.length ∧
    offset + 4 + (attributeLength attributes offset).toNat ≤ attributes.length

/-- The walk passes over the attribute: it is no address, or one of another family. -/
def PassesOver : Prop :=
  Whole attributes offset ∧
    (IsAddress attributes offset →
      8 ≤ attributeLength attributes offset ∧ addressFamily attributes offset ≠ 1 ∧
        addressFamily attributes offset ≠ 2)

/-- An IPv6 address that passes the length test. -/
def Ipv6At : Prop :=
  Whole attributes offset ∧ IsAddress attributes offset ∧
    8 ≤ attributeLength attributes offset ∧ addressFamily attributes offset = 2

/-- The step of the walk to the attribute behind. -/
def Advances (next : Nat) : Prop :=
  PassesOver attributes offset ∧ next = nextOffset (attributeLength attributes offset) offset

/-- The walk from the first attribute comes to the one at the offset. -/
def Walked : Prop := Relation.ReflTransGen (Advances attributes) 0 offset

end Attributes

/-! ## One attribute -/

variable {inet : InetNtop} {msg : STUNMessage} {offset : Nat}

theorem readUint16_of_le {data : Bytes} (h : offset + 2 ≤ data.length) :
    readUint16 data offset = .value (UInt16.ofNat (numberAt data offset 2)) := by
  rw [readUint16, readNumber_of_le h]
  rfl

theorem readUint32_of_le {data : Bytes} (h : offset + 4 ≤ data.length) :
    readUint32 data offset = .value (UInt32.ofNat (numberAt data offset 4)) := by
  rw [readUint32, readNumber_of_le h]
  rfl

/-- Behind the length test all but an IPv6 address is inside the message. -/
theorem addressAt_eq (inet : InetNtop) (attrType : UInt16) {attrLength : UInt16}
    (hlength : 8 ≤ attrLength)
    (hsize : offset + 4 + attrLength.toNat ≤ msg.attributes.length) :
    ∃ ipv4 ipv6, msg.addressAt inet attrType attrLength offset =
      if addressFamily msg.attributes offset = 1 then .value (some ipv4)
      else if addressFamily msg.attributes offset = 2 then
        if offset + 24 ≤ msg.attributes.length then .value (some ipv6) else .outOfBounds
      else .value none := by
  have hlong : 8 ≤ attrLength.toNat := UInt16.le_iff_toNat_le.mp hlength
  unfold addressAt
  rw [if_neg (UInt16.not_lt.mpr hlength), readNumber_of_le (by omega), readUint16_of_le (by omega),
    readUint32_of_le (by omega)]
  simp only [Outcome.value_bind, Outcome.pure_eq]
  by_cases hfits : offset + 24 ≤ msg.attributes.length
  · have hread := readAt_of_le (n := 16) (show offset + 8 + 16 ≤ msg.attributes.length by omega)
    rw [hread]
    simp only [if_pos hfits]
    exact ⟨_, _, rfl⟩
  · have hread := readAt_of_gt (n := 16) (show msg.attributes.length < offset + 8 + 16 by omega)
    rw [hread]
    simp only [if_neg hfits]
    exact ⟨_, ⟨[], 0, .any⟩, rfl⟩

theorem addressAt_of_short {attrType attrLength : UInt16} (h : ¬ 8 ≤ attrLength) :
    msg.addressAt inet attrType attrLength offset = .rejected := by
  unfold addressAt
  rw [if_pos (UInt16.not_le.mp h)]

/-! ## The walk -/

/-- An attribute that the message does not have ends the walk. -/
theorem mappedAddressFrom_of_not_whole (h : ¬ Whole msg.attributes offset) :
    msg.mappedAddressFrom inet offset = .rejected := by
  rw [mappedAddressFrom]
  by_cases hheader : offset + 4 ≤ msg.attributes.length
  · have hcut : msg.attributes.length <
        offset + 4 + (attributeLength msg.attributes offset).toNat := by
      by_contra hfits
      exact h ⟨hheader, Nat.le_of_not_lt hfits⟩
    rw [if_pos hheader, readUint16_of_le (by omega), readUint16_of_le (by omega)]
    exact if_pos hcut
  · exact if_neg hheader

/-- What becomes of one that it has. -/
theorem mappedAddressFrom_of_whole (h : Whole msg.attributes offset) :
    (IsAddress msg.attributes offset →
      msg.mappedAddressFrom inet offset =
        (msg.addressAt inet (attributeType msg.attributes offset)
          (attributeLength msg.attributes offset) offset >>= fun
          | some address => .value address
          | none => msg.mappedAddressFrom inet
              (nextOffset (attributeLength msg.attributes offset) offset))) ∧
    (¬ IsAddress msg.attributes offset →
      msg.mappedAddressFrom inet offset = msg.mappedAddressFrom inet
        (nextOffset (attributeLength msg.attributes offset) offset)) := by
  obtain ⟨hheader, hsize⟩ := h
  constructor
  · intro haddress
    rw [mappedAddressFrom, if_pos hheader, readUint16_of_le (by omega),
      readUint16_of_le (by omega)]
    exact (if_neg (Nat.not_lt_of_le hsize)).trans (if_pos haddress)
  · intro hother
    rw [mappedAddressFrom, if_pos hheader, readUint16_of_le (by omega),
      readUint16_of_le (by omega)]
    exact (if_neg (Nat.not_lt_of_le hsize)).trans (if_neg hother)

theorem mappedAddressFrom_of_passesOver (h : PassesOver msg.attributes offset) :
    msg.mappedAddressFrom inet offset = msg.mappedAddressFrom inet
      (nextOffset (attributeLength msg.attributes offset) offset) := by
  obtain ⟨hwhole, hother⟩ := h
  by_cases haddress : IsAddress msg.attributes offset
  · obtain ⟨hlength, hv4, hv6⟩ := hother haddress
    obtain ⟨ipv4, ipv6, heq⟩ := addressAt_eq inet (attributeType msg.attributes offset)
      hlength hwhole.2
    rw [(mappedAddressFrom_of_whole hwhole).1 haddress, heq, if_neg hv4, if_neg hv6]
    rfl
  · exact (mappedAddressFrom_of_whole hwhole).2 haddress

/-- Where it does not pass over an attribute, the walk ends, and outside the message only
for an IPv6 address that is cut off. -/
theorem mappedAddressFrom_of_not_passesOver (h : ¬ PassesOver msg.attributes offset) :
    msg.mappedAddressFrom inet offset = .outOfBounds ↔
      Ipv6At msg.attributes offset ∧ msg.attributes.length < offset + 24 := by
  by_cases hwhole : Whole msg.attributes offset
  · have haddress : IsAddress msg.attributes offset := by
      by_contra hother
      exact h ⟨hwhole, fun haddress => absurd haddress hother⟩
    rw [(mappedAddressFrom_of_whole hwhole).1 haddress]
    by_cases hlength : 8 ≤ attributeLength msg.attributes offset
    · obtain ⟨ipv4, ipv6, heq⟩ := addressAt_eq inet (attributeType msg.attributes offset)
        hlength hwhole.2
      rw [heq]
      by_cases hv4 : addressFamily msg.attributes offset = 1
      · rw [if_pos hv4]
        refine iff_of_false (fun heq => nomatch heq) fun ⟨⟨_, _, _, hv6⟩, _⟩ => ?_
        omega
      · rw [if_neg hv4]
        by_cases hv6 : addressFamily msg.attributes offset = 2
        · rw [if_pos hv6]
          split
          · rename_i hfits
            exact iff_of_false (fun heq => nomatch heq) fun hcut => by omega
          · rename_i hcut
            exact iff_of_true rfl ⟨⟨hwhole, haddress, hlength, hv6⟩, Nat.lt_of_not_le hcut⟩
        · exact absurd ⟨hwhole, fun _ => ⟨hlength, hv4, hv6⟩⟩ h
    · rw [addressAt_of_short hlength]
      exact iff_of_false (fun heq => nomatch heq) fun hv6 => hlength hv6.1.2.2.1
  · rw [mappedAddressFrom_of_not_whole hwhole]
    exact iff_of_false (fun heq => nomatch heq) fun hv6 => hwhole hv6.1.1

theorem mappedAddressFrom_eq_outOfBounds_iff (inet : InetNtop) (msg : STUNMessage) (offset : Nat) :
    msg.mappedAddressFrom inet offset = .outOfBounds ↔
      ∃ o, Relation.ReflTransGen (Advances msg.attributes) offset o ∧
        Ipv6At msg.attributes o ∧ msg.attributes.length < o + 24 := by
  by_cases hpasses : PassesOver msg.attributes offset
  · have hlater := mappedAddressFrom_eq_outOfBounds_iff inet msg
      (nextOffset (attributeLength msg.attributes offset) offset)
    rw [mappedAddressFrom_of_passesOver hpasses, hlater]
    constructor
    · rintro ⟨o, hwalk, hcut⟩
      exact ⟨o, .head ⟨hpasses, rfl⟩ hwalk, hcut⟩
    · rintro ⟨o, hwalk, hv6, hcut⟩
      rcases Relation.ReflTransGen.cases_head hwalk with rfl | ⟨next, ⟨-, rfl⟩, hrest⟩
      · exact absurd hv6.2.2.2 (hpasses.2 hv6.2.1).2.2
      · exact ⟨o, hrest, hv6, hcut⟩
  · rw [mappedAddressFrom_of_not_passesOver hpasses]
    constructor
    · exact fun hcut => ⟨offset, .refl, hcut⟩
    · rintro ⟨o, hwalk, hcut⟩
      rcases Relation.ReflTransGen.cases_head hwalk with rfl | ⟨next, ⟨hthere, -⟩, -⟩
      · exact hcut
      · exact absurd hthere hpasses
termination_by msg.attributes.length - offset
decreasing_by
  have hheader := hpasses.1.1
  unfold nextOffset
  omega

/-! ## The datagram -/

/-- The datagram is long enough and has the cookie. -/
def IsStun (data : Bytes) : Prop :=
  20 ≤ data.length ∧ UInt32.ofNat (numberAt data 4 4) = expectedCookie

/-- The header is read inside the datagram. -/
theorem fromBytes_spec (data : Bytes) :
    (IsStun data → ∃ msg, fromBytes data = .value msg ∧ msg.attributes = data.drop 20) ∧
      (¬ IsStun data → fromBytes data = .rejected) := by
  unfold fromBytes IsStun
  by_cases hsize : 20 ≤ data.length
  · rw [if_neg (Nat.not_lt_of_le hsize), readUint16_of_le (by omega), readUint16_of_le (by omega),
      readUint32_of_le (by omega)]
    simp only [Outcome.value_bind]
    refine ⟨fun ⟨_, hcookie⟩ => ?_, fun hnot => ?_⟩
    · rw [if_neg (not_not.mpr hcookie), readArray, dif_pos (by omega)]
      exact ⟨_, rfl, rfl⟩
    · exact if_pos fun hcookie => hnot ⟨hsize, hcookie⟩
  · exact ⟨fun h => absurd h.1 hsize, fun _ => if_pos (Nat.lt_of_not_le hsize)⟩

/-- **STUN responses.** The walk over a datagram reads nothing outside it just when every
IPv6 address it comes to, in a message with the cookie, has its sixteen bytes there. -/
theorem datagram_reads_inside_iff (inet : InetNtop) (data : Bytes) :
    mappedAddressOf inet data ≠ .outOfBounds ↔
      (IsStun data → ∀ offset, Walked (data.drop 20) offset → Ipv6At (data.drop 20) offset →
        offset + 24 ≤ (data.drop 20).length) := by
  unfold mappedAddressOf
  by_cases hstun : IsStun data
  · obtain ⟨msg, hmsg, hattributes⟩ := (fromBytes_spec data).1 hstun
    have hwalk := mappedAddressFrom_eq_outOfBounds_iff inet msg 0
    rw [hattributes] at hwalk
    rw [hmsg, Outcome.value_bind, getMappedAddress, Ne, hwalk]
    unfold Walked
    push Not
    exact ⟨fun h _ => h, fun h => h hstun⟩
  · rw [(fromBytes_spec data).2 hstun]
    exact iff_of_true (fun heq => nomatch heq) fun h => absurd h hstun

/-! ## A response that is read past its end -/

/-- A header, and a mapped address of the IPv6 family with eight bytes in all. -/
def cutOffAddress : Bytes :=
  [1, 1, 0, 12, 0x21, 0x12, 0xa4, 0x42] ++ List.replicate 12 0 ++
    [0, 0x20, 0, 8, 0, 2, 0, 0, 0, 0, 0, 0]

theorem cutOffAddress_ipv6At : Ipv6At (cutOffAddress.drop 20) 0 := by
  unfold Ipv6At Whole IsAddress
  decide

theorem cut_off_address_read : ¬ ∀ inet data, mappedAddressOf inet data ≠ .outOfBounds := by
  intro h
  obtain ⟨msg, hmsg, hattributes⟩ := (fromBytes_spec cutOffAddress).1 (by unfold IsStun; decide)
  refine h ⟨fun _ => [], fun _ => []⟩ cutOffAddress ?_
  unfold mappedAddressOf
  rw [hmsg, Outcome.value_bind, getMappedAddress, mappedAddressFrom_eq_outOfBounds_iff, hattributes]
  exact ⟨0, .refl, cutOffAddress_ipv6At, by decide⟩

end Cashew.Theorems.StunMessages
