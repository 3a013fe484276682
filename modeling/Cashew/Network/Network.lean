import Cashew.Common
import Cashew.Lib.Machine
import Cashew.Lib.Wire

/-!
# Networks

`Network` of `network/network.cpp`: the nodes that host one Thing, and the
invitations by which they get in. An invitation is a signed record; accepting it
checks the record and the list of members, rejecting it drops the network's note
of it.

Reliability scores are floats; they are kept as their 32 bits. Health and
replication are left out, and so are log lines.
-/

namespace Cashew

open Cashew.Lib

/-- `network::NetworkID`. -/
structure NetworkID where
  id : Hash256
  deriving DecidableEq

/-- `MemberRole : uint8_t`. -/
inductive MemberRole where
  | founder
  | full
  | pending
  | observer
  deriving DecidableEq

instance : Enumeration MemberRole where
  all := [.founder, .full, .pending, .observer]
  code
    | .founder => 0
    | .full => 1
    | .pending => 2
    | .observer => 3
  complete e := by cases e <;> decide
  codes_nodup := by decide

/-- `NetworkMember`. -/
structure NetworkMember where
  nodeId : NodeID
  publicKey : PublicKey
  role : Wire MemberRole
  joinedTimestamp : UInt64
  lastSeenTimestamp : UInt64
  hasCompleteReplica : Bool
  reliabilityScore : UInt32
  deriving DecidableEq

/-- `NetworkMember(id, key, role)`; the score is `1.0f`. -/
def NetworkMember.create (nodeId : NodeID) (publicKey : PublicKey) (role : Wire MemberRole) :
    NetworkMember where
  nodeId
  publicKey
  role
  joinedTimestamp := 0
  lastSeenTimestamp := 0
  hasCompleteReplica := false
  reliabilityScore := 0x3F800000

/-- `NetworkInvitation`. -/
structure NetworkInvitation where
  networkId : NetworkID
  inviterId : NodeID
  inviteeId : NodeID
  inviterPublicKey : PublicKey
  proposedRole : Wire MemberRole
  expiresTimestamp : UInt64
  signature : Signature
  deriving DecidableEq

/-- `NetworkInvitation::to_bytes`, which is what the inviter signs. -/
def NetworkInvitation.toBytes (i : NetworkInvitation) : Bytes :=
  i.networkId.id.bytes ++ (i.inviterId.id.bytes ++ (i.inviteeId.id.bytes ++
    (i.inviterPublicKey.bytes ++ ([i.proposedRole.toByte] ++ u64Bytes i.expiresTimestamp))))

/-- `NetworkQuorum`. -/
structure NetworkQuorum where
  minReplicas : UInt64 := 3
  targetReplicas : UInt64 := 5
  maxReplicas : UInt64 := 10
  deriving DecidableEq

/-- `NetworkQuorum::at_capacity`. -/
def NetworkQuorum.atCapacity (q : NetworkQuorum) (currentReplicas : Nat) : Bool :=
  q.maxReplicas.toNat ≤ currentReplicas

/-- `Network::PendingInvitation`. -/
structure PendingInvitation where
  invitation : NetworkInvitation
  createdTimestamp : UInt64
  deriving DecidableEq

/-- A note of an invitation of the same invitee to the same network. -/
def PendingInvitation.isFor (p : PendingInvitation) (i : NetworkInvitation) : Bool :=
  p.invitation.inviteeId = i.inviteeId ∧ p.invitation.networkId.id = i.networkId.id

/-- `Network`. -/
structure Network where
  networkId : NetworkID
  thingHash : ContentHash
  members : List NetworkMember
  quorum : NetworkQuorum
  createdTimestamp : UInt64
  pendingInvitations : List PendingInvitation
  deriving DecidableEq

namespace Network

/-- `Network(id, thing_hash)`; `ticks` is the clock in its own unit. -/
def create (networkId : NetworkID) (thingHash : ContentHash) (ticks : UInt64) : Network where
  networkId
  thingHash
  members := []
  quorum := {}
  createdTimestamp := ticks
  pendingInvitations := []

/-! ## Members -/

/-- `Network::get_member`. -/
def getMember (n : Network) (nodeId : NodeID) : Option NetworkMember :=
  n.members.find? (·.nodeId = nodeId)

/-- `Network::add_member`. -/
def addMember (n : Network) (member : NetworkMember) : Network × Bool :=
  if n.members.any (·.nodeId = member.nodeId) then (n, false)
  else if n.quorum.atCapacity n.members.length then (n, false)
  else ({ n with members := n.members ++ [member] }, true)

/-- `Network::remove_member`. -/
def removeMember (n : Network) (nodeId : NodeID) : Network × Bool :=
  if n.members.all (·.nodeId ≠ nodeId) then (n, false)
  else ({ n with members := n.members.filter (·.nodeId ≠ nodeId) }, true)

/-! ## Invitations -/

/-- `Network::create_invitation`. The sum of the reading and the duration is
converted to `uint64_t`. -/
def createInvitation (ed : Ed25519) (n : Network) (now : Time) (inviterId inviteeId : NodeID)
    (inviterPublicKey : PublicKey) (inviterSecretKey : SecretKey) (role : Wire MemberRole)
    (validDuration : Int) : Network × NetworkInvitation :=
  let unsigned : NetworkInvitation :=
    { networkId := n.networkId, inviterId, inviteeId, inviterPublicKey, proposedRole := role,
      expiresTimestamp := UInt64.ofInt (now.secs.toNat + validDuration)
      signature := FixedBytes.zero }
  let invitation := { unsigned with signature := ed.sign unsigned.toBytes inviterSecretKey }
  ({ n with
      pendingInvitations := n.pendingInvitations ++ [⟨invitation, now.secs⟩] }, invitation)

/-- `Network::verify_invitation`. -/
def verifyInvitation (ed : Ed25519) (n : Network) (now : Time) (i : NetworkInvitation) : Bool :=
  if i.networkId.id ≠ n.networkId.id then false
  else if i.expiresTimestamp < now.secs then false
  else
    match n.getMember i.inviterId with
    | none => false
    | some inviter =>
      if inviter.publicKey ≠ i.inviterPublicKey then false
      else ed.verify i.toBytes i.signature i.inviterPublicKey

/-- `Network::accept_invitation`: reading 0 of the clock checks the invitation,
reading 1 dates the member. -/
def acceptInvitation (ed : Ed25519) (n : Network) (clock : Clock) (i : NetworkInvitation) :
    Network × Bool :=
  if !n.verifyInvitation ed (clock.read 0) i then (n, false)
  else
    n.addMember
      { NetworkMember.create i.inviteeId FixedBytes.zero i.proposedRole with
        joinedTimestamp := (clock.read 1).secs
        lastSeenTimestamp := (clock.read 1).secs }

/-- `Network::reject_invitation`. -/
def rejectInvitation (n : Network) (i : NetworkInvitation) : Network × Bool :=
  if n.pendingInvitations.all fun p => !p.isFor i then (n, false)
  else
    ({ n with
        pendingInvitations :=
          n.pendingInvitations.filter fun p => !p.isFor i }, true)

/-- `Network::cleanup_expired_invitations`. -/
def cleanupExpiredInvitations (n : Network) (now : Time) : Network :=
  { n with
    pendingInvitations := n.pendingInvitations.filter fun p =>
      !(p.invitation.expiresTimestamp < now.secs) }

end Network

/-! ## Runs -/

/-- The calls that change members and invitations. -/
inductive NetworkInput where
  | addMember (member : NetworkMember)
  | removeMember (nodeId : NodeID)
  | createInvitation (inviterId inviteeId : NodeID) (inviterPublicKey : PublicKey)
      (inviterSecretKey : SecretKey) (role : Wire MemberRole) (validDuration : Int)
  | acceptInvitation (i : NetworkInvitation)
  | rejectInvitation (i : NetworkInvitation)
  | cleanupExpiredInvitations

/-- What became of an invitation. -/
inductive InvitationEvent where
  | admitted (i : NetworkInvitation)
  | rejected (i : NetworkInvitation)
  deriving DecidableEq

/-- One call, with the clock readings made during it. -/
def Network.call (ed : Ed25519) (n : Network) (clock : Clock) :
    NetworkInput → Network × List InvitationEvent
  | .addMember member => ((n.addMember member).1, [])
  | .removeMember nodeId => ((n.removeMember nodeId).1, [])
  | .createInvitation inviterId inviteeId publicKey secretKey role validDuration =>
    ((n.createInvitation ed (clock.read 0) inviterId inviteeId publicKey secretKey role
      validDuration).1, [])
  | .acceptInvitation i =>
    let (next, admitted) := n.acceptInvitation ed clock i
    (next, if admitted then [.admitted i] else [])
  | .rejectInvitation i =>
    let (next, rejected) := n.rejectInvitation i
    (next, if rejected then [.rejected i] else [])
  | .cleanupExpiredInvitations => (n.cleanupExpiredInvitations (clock.read 0), [])

/-- A network driven by calls; it shows the invitations accepted and rejected. -/
def networkMachine (ed : Ed25519) : Machine Network (Clock × NetworkInput) InvitationEvent where
  step n input := n.call ed input.1 input.2

end Cashew
