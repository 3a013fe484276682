import Cashew.Lib.BigEndian
import Cashew.Network.Connection

/-!
# STUN messages

`STUNMessage` of `network/nat_traversal.cpp`: a header of twenty bytes and the attributes
behind it. The walk over the attributes advances by their lengths, up to a multiple of four.
`inet_ntop` is a parameter, the text it makes of an address.
-/

namespace Cashew

open Cashew.Lib

/-- `inet_ntop` for an IPv4 address and for the bytes of an IPv6 address. -/
structure InetNtop where
  ipv4 : UInt32 → Bytes
  ipv6 : Bytes → Bytes

/-- `STUNMessage`. -/
structure STUNMessage where
  messageType : UInt16
  messageLength : UInt16
  magicCookie : UInt32
  transactionId : FixedBytes 12
  attributes : Bytes

namespace STUNMessage

def attrMappedAddress : UInt16 := 0x0001
def attrXorMappedAddress : UInt16 := 0x0020
def expectedCookie : UInt32 := 0x2112A442

/-- `read_uint16`. -/
def readUint16 (data : Bytes) (offset : Nat) : Outcome UInt16 := do
  let n ← readNumber data offset 2
  pure (UInt16.ofNat n)

/-- `read_uint32`. -/
def readUint32 (data : Bytes) (offset : Nat) : Outcome UInt32 := do
  let n ← readNumber data offset 4
  pure (UInt32.ofNat n)

/-- Copying an array out of a buffer. -/
def readArray (data : Bytes) (offset n : Nat) : Outcome (FixedBytes n) :=
  if h : offset + n ≤ data.length then .value ⟨bytesAt data offset n, bytesAt_length h⟩
  else .outOfBounds

/-- `STUNMessage::from_bytes`. -/
def fromBytes (data : Bytes) : Outcome STUNMessage := do
  if data.length < 20 then .rejected
  else
    let messageType ← readUint16 data 0
    let messageLength ← readUint16 data 2
    let magicCookie ← readUint32 data 4
    if magicCookie ≠ expectedCookie then .rejected
    else
      let transactionId ← readArray data 8 12
      pure { messageType, messageLength, magicCookie, transactionId, attributes := data.drop 20 }

variable (inet : InetNtop) (msg : STUNMessage)

/-- The body of the branch for an address: the attribute is at the offset. It ends with no
address for another family. -/
def addressAt (attrType attrLength : UInt16) (offset : Nat) : Outcome (Option SocketAddress) := do
  if attrLength < 8 then .rejected
  else
    let xor := attrType = attrXorMappedAddress
    let family ← readNumber msg.attributes (offset + 5) 1
    let port ← readUint16 msg.attributes (offset + 6)
    let port := if xor then port ^^^ (msg.magicCookie >>> 16).toUInt16 else port
    if family = 1 then
      let addr ← readUint32 msg.attributes (offset + 8)
      let addr := if xor then addr ^^^ msg.magicCookie else addr
      pure (some { host := inet.ipv4 addr, port })
    else if family = 2 then
      let addrBytes ← readAt msg.attributes (offset + 8) 16
      let addrBytes :=
        if xor then
          addrBytes.zipWith (· ^^^ ·) (beU32Bytes msg.magicCookie ++ msg.transactionId.bytes)
        else addrBytes
      pure (some { host := inet.ipv6 addrBytes, port })
    else pure none

/-- The offset behind an attribute, moved to a multiple of four from its beginning. -/
def nextOffset (attrLength : UInt16) (offset : Nat) : Nat :=
  offset + 4 + attrLength.toNat +
    if attrLength.toNat % 4 = 0 then 0 else 4 - attrLength.toNat % 4

/-- The loop of `get_mapped_address`. -/
def mappedAddressFrom (offset : Nat) : Outcome SocketAddress := do
  if offset + 4 ≤ msg.attributes.length then
    let attrType ← readUint16 msg.attributes offset
    let attrLength ← readUint16 msg.attributes (offset + 2)
    if msg.attributes.length < offset + 4 + attrLength.toNat then .rejected
    else if attrType = attrXorMappedAddress ∨ attrType = attrMappedAddress then
      match ← msg.addressAt inet attrType attrLength offset with
      | some address => pure address
      | none => mappedAddressFrom (nextOffset attrLength offset)
    else mappedAddressFrom (nextOffset attrLength offset)
  else .rejected
termination_by msg.attributes.length - offset
decreasing_by all_goals (unfold nextOffset; omega)

/-- `STUNMessage::get_mapped_address`. -/
def getMappedAddress : Outcome SocketAddress := msg.mappedAddressFrom inet 0

end STUNMessage

/-- A datagram that is received as a response: `from_bytes`, then `get_mapped_address`. -/
def mappedAddressOf (inet : InetNtop) (data : Bytes) : Outcome SocketAddress := do
  let msg ← STUNMessage.fromBytes data
  msg.getMappedAddress inet

end Cashew
