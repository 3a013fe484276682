import Cashew.Network.PeerManager

/-!
# Exchanging peers

A node asks a peer it is connected to for other peers. The answer goes through
`to_bytes` and `from_bytes` and is taken up by `handle_peer_response`. Three things
go wrong on the way. The signature is never assigned, and the receiver ignores an
answer whose signature is zero. The capabilities are not written, and the receiver
stores default ones, also over those of a peer it knows. And a responder whose only
fresh peer is itself has nothing to choose from, which the shuffle does not survive.
-/

namespace Cashew.Theorems.PeerExchange

open Cashew Cashew.Lib

/-! ## One exchange -/

/-- The responder's answer to an honest request that arrives without delay. -/
def answer (responder : PeerManager) (now : Time) (draws : Nat → UInt64) (unassigned : Signature)
    (requesterId : NodeID) (maxPeers : UInt32) (signature : Signature) : PeerAnswer :=
  responder.handlePeerRequest (Clock.still now) draws unassigned requesterId
    { requesterId, maxPeers, timestamp := now.secs, signature }

/-- The requester after the answer has come through the wire, unless the reading
of it went out of bounds. -/
def deliver (requester : PeerManager) (now : Time) (m : PeerResponseMessage) :
    Option PeerManager :=
  match PeerResponseMessage.fromBytes m.toBytes with
  | .value received => some (requester.handlePeerResponse (Clock.still now) received)
  | .rejected => some requester
  | .outOfBounds => none

/-- Every listed peer is known with what the responder holds for it, and no known
peer has capabilities that neither of the two held. -/
structure Taught (responder requester after : PeerManager) (m : PeerResponseMessage) : Prop where
  listed : ∀ entry ∈ m.peers, entry.nodeId ≠ requester.localNodeId →
    ∃ held info, responder.discovery.getPeerInfo entry.nodeId = some held ∧
      after.discovery.getPeerInfo entry.nodeId = some info ∧
      info.address = held.address ∧ info.capabilities = held.capabilities
  known : ∀ p before, requester.discovery.getPeerInfo p = some before →
    ∃ info, after.discovery.getPeerInfo p = some info ∧
      (info.capabilities = before.capabilities ∨
        ∃ held, responder.discovery.getPeerInfo p = some held ∧
          info.capabilities = held.capabilities)

/-- The exchange works for every requester of this id and whatever is drawn. -/
def ExchangeWorks (responder : PeerManager) (now : Time) (unassigned : Signature)
    (requesterId : NodeID) (maxPeers : UInt32) (signature : Signature) : Prop :=
  ∀ (draws : Nat → UInt64) (requester : PeerManager), requester.localNodeId = requesterId →
    requester.isConnected responder.localNodeId = true →
    ∃ m after, answer responder now draws unassigned requesterId maxPeers signature = .response m ∧
      deliver requester now m = some after ∧ Taught responder requester after m

/-- A fresh peer besides the requester. -/
def HasFreshPeer (responder : PeerManager) (now : Time) (requesterId : NodeID) : Prop :=
  ∃ p held, responder.discovery.getPeerInfo p = some held ∧ held.isStale now = false ∧
    p ≠ requesterId

/-- A peer the responder may list: fresh, and neither of the two. -/
def Eligible (responder : PeerManager) (now : Time) (requesterId p : NodeID) (held : PeerInfo) :
    Prop :=
  responder.discovery.getPeerInfo p = some held ∧ held.isStale now = false ∧ p ≠ requesterId ∧
    p ≠ responder.localNodeId

/-! ## The answer on the wire -/

/-- An address that fits its length field comes back, and with it all but the
capabilities. -/
theorem entry_decodes {entry : PeerEntry} (haddr : entry.address.bytes.length < 2 ^ 16)
    (hcaps : entry.capabilities = {}) : Decodes PeerEntry.decoder entry.toBytes entry := by
  have hlen : 42 ≤ entry.toBytes.length := by
    simp only [PeerEntry.toBytes, List.length_append, FixedBytes.size, beBytes_length,
      beU64Bytes_length]
    omega
  apply Decodes.require_bind hlen
  refine (FixedBytes.decodes _).bind ?_
  refine (Decodes.be haddr).bind ?_
  apply Decodes.require_bind (by simp)
  refine (Decodes.take rfl).bind ?_
  obtain ⟨nodeId, address, capabilities, lastSeen⟩ := entry
  obtain rfl : capabilities = {} := hcaps
  exact (Decodes.beU64 lastSeen).bind_pure
    (f := fun lastSeen => { nodeId, address, lastSeen : PeerEntry })

theorem response_roundTrip {m : PeerResponseMessage} (hcount : m.peers.length < 2 ^ 16)
    (hpeers : ∀ entry ∈ m.peers,
      entry.address.bytes.length < 2 ^ 16 ∧ entry.capabilities = {}) :
    PeerResponseMessage.fromBytes m.toBytes = .value m := by
  have hentries : Decodes (Decoder.replicate PeerEntry.decoder m.peers.length)
      (m.peers.flatMap PeerEntry.toBytes) m.peers :=
    Decodes.replicate fun entry hentry =>
      entry_decodes (hpeers entry hentry).1 (hpeers entry hentry).2
  have hlen : 107 ≤ m.toBytes.length := by
    simp only [PeerResponseMessage.toBytes, List.length_append, List.length_singleton,
      FixedBytes.size, beBytes_length, beU64Bytes_length]
    omega
  refine Decodes.run (Decodes.require_bind hlen ?_)
  refine (Decodes.tag _).bind ?_
  refine (FixedBytes.decodes _).bind ?_
  refine (Decodes.be hcount).bind ?_
  refine hentries.bind ?_
  apply Decodes.require_bind (by simp [FixedBytes.size])
  refine (Decodes.beU64 _).bind ?_
  exact (FixedBytes.decodes m.signature).bind_pure (f := fun signature => { m with signature })

/-- Whatever the bytes, a received entry has the default capabilities and a short
address. -/
theorem received_entries {data : Bytes} {m : PeerResponseMessage}
    (h : PeerResponseMessage.fromBytes data = .value m) :
    ∀ entry ∈ m.peers, entry.address.bytes.length < 2 ^ 16 ∧ entry.capabilities = {} := by
  have hentry : Yields PeerEntry.decoder fun entry =>
      entry.address.bytes.length < 2 ^ 16 ∧ entry.capabilities = {} := by
    refine Yields.skip fun _ => Yields.skip fun _ => ?_
    refine Yields.bind (Yields.be 2) fun addrLen haddr => Yields.skip fun _ => ?_
    refine Yields.bind (Yields.take addrLen) fun address hlen => Yields.skip fun _ => ?_
    exact Yields.pure ⟨hlen ▸ haddr, rfl⟩
  refine Yields.run (P := fun m : PeerResponseMessage => ∀ entry ∈ m.peers,
    entry.address.bytes.length < 2 ^ 16 ∧ entry.capabilities = {}) ?_ h
  refine Yields.skip fun _ => Yields.skip fun _ => Yields.skip fun _ => Yields.skip fun count => ?_
  refine Yields.bind (hentry.replicate count) fun peers hpeers => ?_
  exact Yields.skip fun _ => Yields.skip fun _ => Yields.skip fun _ => Yields.pure hpeers.2

/-! ## Taking an answer up -/

/-- One entry replaces the address and the capabilities of its peer. -/
theorem addEntry_getPeerInfo (m : PeerManager) (d : PeerDiscovery) (now : Time) (entry : PeerEntry)
    (j : NodeID) :
    if entry.nodeId = j ∧ j ≠ m.localNodeId then
      ∃ info, (m.addEntry d now entry).getPeerInfo j = some info ∧
        info.address = entry.address ∧ info.capabilities = entry.capabilities
    else (m.addEntry d now entry).getPeerInfo j = d.getPeerInfo j := by
  unfold PeerManager.addEntry
  by_cases hlocal : entry.nodeId = m.localNodeId
  · rw [if_pos hlocal, if_neg (fun h => h.2 (h.1 ▸ hlocal))]
  rw [if_neg hlocal, PeerDiscovery.getPeerInfo_updatePeerCapabilities,
    PeerDiscovery.getPeerInfo_addDiscoveredPeer, if_pos rfl]
  by_cases hj : entry.nodeId = j
  · subst hj
    rw [if_pos ⟨rfl, hlocal⟩, if_pos rfl]
    exact ⟨_, rfl, rfl, rfl⟩
  · rw [if_neg (fun h => hj h.1), if_neg hj, PeerDiscovery.getPeerInfo_addDiscoveredPeer, if_neg hj]

/-- **All entries.** A peer that is named has what its last entry says; any other
one is left alone, and so is the node itself. -/
theorem addEntries_getPeerInfo (m : PeerManager) (clock : Clock) (j : NodeID)
    (entries : List (PeerEntry × Nat)) (d : PeerDiscovery) :
    let after := entries.foldl (fun d e => m.addEntry d (clock.read (e.2 + 1)) e.1) d
    (∃ e ∈ entries, e.1.nodeId = j ∧ ∃ info, after.getPeerInfo j = some info ∧
        info.address = e.1.address ∧ info.capabilities = e.1.capabilities) ∨
      (∀ e ∈ entries, e.1.nodeId = j → j = m.localNodeId) ∧
        after.getPeerInfo j = d.getPeerInfo j := by
  induction entries generalizing d with
  | nil => exact .inr ⟨(fun _ h => nomatch h), rfl⟩
  | cons e rest ih =>
    rcases ih (m.addEntry d (clock.read (e.2 + 1)) e.1) with ⟨e', hmem, hinfo⟩ | ⟨hnone, hkeep⟩
    · exact .inl ⟨e', List.mem_cons_of_mem e hmem, hinfo⟩
    · -- no later entry names the peer, so the first one decides
      have hone := addEntry_getPeerInfo m d (clock.read (e.2 + 1)) e.1 j
      by_cases hid : e.1.nodeId = j ∧ j ≠ m.localNodeId
      · rw [if_pos hid] at hone
        obtain ⟨info, hinfo, hfields⟩ := hone
        exact .inl ⟨e, List.mem_cons_self, hid.1, info, hkeep.trans hinfo, hfields⟩
      · rw [if_neg hid] at hone
        refine .inr ⟨List.forall_mem_cons.mpr ⟨fun h => ?_, hnone⟩, hkeep.trans hone⟩
        exact not_not.mp fun hlocal => hid ⟨h, hlocal⟩

theorem all_zero_iff (signature : Signature) :
    signature.bytes.all (· == 0) = true ↔ signature = FixedBytes.zero := by
  rw [List.all_eq_true]
  constructor
  · intro h
    refine FixedBytes.ext ?_
    have hbytes := List.eq_replicate_of_mem fun b hb => beq_iff_eq.mp (h b hb)
    rwa [signature.size] at hbytes
  · rintro rfl b hb
    exact beq_iff_eq.mpr (List.eq_of_mem_replicate hb)

theorem timeDiff_self (a : UInt64) : ¬ 300 < timeDiff a a := by
  have hzero : timeDiff a a = 0 := by
    unfold timeDiff
    rw [if_neg (UInt64.lt_irrefl a), UInt64.sub_self]
  rw [hzero]
  decide

theorem forall_mem_of_zipIdx {α : Type} {l : List α} {P : α → Prop}
    (h : ∀ e ∈ l.zipIdx, P e.1) : ∀ a ∈ l, P a := by
  intro a ha
  obtain ⟨i, hi⟩ := List.getElem?_of_mem ha
  exact h (a, i) (List.mk_mem_zipIdx_iff_getElem?.mpr hi)

/-- What is known after an answer was known before or stands in it. -/
theorem handlePeerResponse_from {m : PeerManager} {clock : Clock} {msg : PeerResponseMessage}
    {j : NodeID} {info : PeerInfo}
    (h : (m.handlePeerResponse clock msg).discovery.getPeerInfo j = some info) :
    m.discovery.getPeerInfo j = some info ∨
      ∃ entry ∈ msg.peers, info.address = entry.address ∧
        info.capabilities = entry.capabilities := by
  unfold PeerManager.handlePeerResponse at h
  split_ifs at h
  · exact .inl h
  · exact .inl h
  · exact .inl h
  rcases addEntries_getPeerInfo m clock j msg.peers.zipIdx m.discovery with
    ⟨e, hmem, -, info', hinfo', hfields⟩ | ⟨-, hkeep⟩
  · obtain rfl : info' = info := Option.some.inj (hinfo'.symm.trans h)
    exact .inr ⟨e.1, List.fst_mem_of_mem_zipIdx hmem, hfields⟩
  · exact .inl (hkeep.symm.trans h)

/-- An answer without a signature is ignored. -/
theorem handlePeerResponse_unsigned {m : PeerManager} {msg : PeerResponseMessage} (clock : Clock)
    (h : msg.signature = FixedBytes.zero) : m.handlePeerResponse clock msg = m := by
  unfold PeerManager.handlePeerResponse
  rw [if_pos ((all_zero_iff _).mpr h)]

/-- Any other one that comes at once from a connected peer is taken up. -/
theorem handlePeerResponse_signed {m : PeerManager} (msg : PeerResponseMessage) {now : Time}
    (htime : msg.timestamp = now.secs) (hsig : msg.signature ≠ FixedBytes.zero)
    (hconn : m.isConnected msg.responderId = true) (j : NodeID) :
    (∃ entry ∈ msg.peers, entry.nodeId = j ∧ ∃ info,
        (m.handlePeerResponse (Clock.still now) msg).discovery.getPeerInfo j = some info ∧
        info.address = entry.address ∧ info.capabilities = entry.capabilities) ∨
      (∀ entry ∈ msg.peers, entry.nodeId = j → j = m.localNodeId) ∧
        (m.handlePeerResponse (Clock.still now) msg).discovery.getPeerInfo j =
          m.discovery.getPeerInfo j := by
  have htimely : ¬ 300 < timeDiff msg.timestamp ((Clock.still now).read 0).secs := by
    rw [htime]
    exact timeDiff_self _
  unfold PeerManager.handlePeerResponse
  rw [if_neg (mt (all_zero_iff _).mp hsig), hconn, if_neg (by decide), if_neg htimely]
  rcases addEntries_getPeerInfo m (Clock.still now) j msg.peers.zipIdx m.discovery with
    ⟨e, hmem, hinfo⟩ | ⟨hnone, hkeep⟩
  · exact .inl ⟨e.1, List.fst_mem_of_mem_zipIdx hmem, hinfo⟩
  · exact .inr ⟨forall_mem_of_zipIdx hnone, hkeep⟩

/-! ## The peers in the answer -/

/-- What there is to choose from. -/
def available (responder : PeerManager) (now : Time) (requesterId : NodeID) : List NodeID :=
  responder.discovery.availablePeers (Clock.still now) [requesterId, responder.localNodeId]

theorem mem_available {responder : PeerManager} {now : Time} {requesterId p : NodeID} :
    p ∈ available responder now requesterId ↔
      ∃ held, Eligible responder now requesterId p held := by
  unfold available Eligible
  rw [PeerDiscovery.mem_availablePeers_still]
  simp only [List.mem_cons, List.not_mem_nil, or_false, not_or]
  constructor
  · rintro ⟨⟨hreq, hloc⟩, held, hheld, hfresh⟩
    exact ⟨held, hheld, hfresh, hreq, hloc⟩
  · rintro ⟨held, hheld, hfresh, hreq, hloc⟩
    exact ⟨⟨hreq, hloc⟩, held, hheld, hfresh⟩

/-- The answer, when there is someone to choose. -/
def listing (responder : PeerManager) (now : Time) (draws : Nat → UInt64) (unassigned : Signature)
    (requesterId : NodeID) (maxPeers : UInt32) : PeerResponseMessage where
  responderId := responder.localNodeId
  timestamp := now.secs
  signature := unassigned
  peers := ((shuffle draws (available responder now requesterId)).take
    (min maxPeers.toNat 20)).filterMap responder.peerEntry

section Answer

variable {responder : PeerManager} {now : Time} {draws : Nat → UInt64} {unassigned : Signature}
  {requesterId : NodeID} {maxPeers : UInt32} {signature : Signature}

theorem answer_eq :
    answer responder now draws unassigned requesterId maxPeers signature =
      if (available responder now requesterId).isEmpty then .divisionByZero
      else .response (listing responder now draws unassigned requesterId maxPeers) := by
  have htimely : ¬ 300 < timeDiff now.secs ((Clock.still now).read 0).secs := timeDiff_self _
  have hselect : responder.discovery.selectRandomPeers ((Clock.still now).after 1) draws
      (min maxPeers.toNat 20) [requesterId, responder.localNodeId] =
      if (available responder now requesterId).isEmpty then none
      else some ((shuffle draws (available responder now requesterId)).take
        (min maxPeers.toNat 20)) := rfl
  unfold answer PeerManager.handlePeerRequest
  rw [if_neg (not_not.mpr rfl), if_neg htimely]
  dsimp only
  rw [hselect]
  split_ifs <;> rfl

/-- Who is listed is eligible, and listed with what the responder holds. -/
theorem listed_eligible {entry : PeerEntry}
    (h : entry ∈ (listing responder now draws unassigned requesterId maxPeers).peers) :
    ∃ held, Eligible responder now requesterId entry.nodeId held ∧
      entry.address = held.address ∧ entry.capabilities = held.capabilities := by
  obtain ⟨p, hp, hentry⟩ := List.mem_filterMap.mp h
  obtain ⟨held, hheld, rfl⟩ := Option.map_eq_some_iff.mp hentry
  have hmem : p ∈ available responder now requesterId :=
    (shuffle_perm draws _).mem_iff.mp (List.mem_of_mem_take hp)
  obtain ⟨held', heligible⟩ := mem_available.mp hmem
  obtain rfl : held' = held := Option.some.inj (heligible.1.symm.trans hheld)
  exact ⟨held', heligible, rfl, rfl⟩

theorem listed_count :
    (listing responder now draws unassigned requesterId maxPeers).peers.length < 2 ^ 16 := by
  have hle := List.length_filterMap_le responder.peerEntry
    ((shuffle draws (available responder now requesterId)).take (min maxPeers.toNat 20))
  rw [List.length_take] at hle
  show (List.filterMap responder.peerEntry _).length < _
  omega

/-- Every eligible peer is listed under some draws. -/
theorem exists_listed (unassigned : Signature) {p : NodeID} {held : PeerInfo}
    (h : Eligible responder now requesterId p held) (hmax : maxPeers ≠ 0) :
    ∃ draws, ∃ entry ∈ (listing responder now draws unassigned requesterId maxPeers).peers,
      entry.nodeId = p := by
  -- some draws bring the peer to the front
  obtain ⟨draws, hfront⟩ := exists_shuffle_front (mem_available.mpr ⟨held, h⟩)
  have hpos : 0 < min maxPeers.toNat 20 := by
    have hne : maxPeers.toNat ≠ 0 := fun hzero => hmax (UInt32.toNat_inj.mp hzero)
    omega
  have hmem : p ∈ (shuffle draws (available responder now requesterId)).take
      (min maxPeers.toNat 20) := by
    refine List.mem_of_getElem? (i := 0) ?_
    rw [List.getElem?_take_of_lt hpos, hfront]
  obtain ⟨entry, hentry, hid⟩ : ∃ entry, responder.peerEntry p = some entry ∧ entry.nodeId = p := by
    unfold PeerManager.peerEntry
    rw [h.1]
    exact ⟨_, rfl, rfl⟩
  exact ⟨draws, entry, List.mem_filterMap.mpr ⟨p, hmem, hentry⟩, hid⟩

end Answer

/-! ## When the exchange works -/

/-- A requester that knows nobody. -/
def stranger (requesterId responderId : NodeID) : PeerManager where
  localNodeId := requesterId
  activeConnections := OrdMap.empty.insert responderId
    { peerId := responderId, session := 0, connectedAt := 0, lastActivity := 0 }

theorem stranger_isConnected (requesterId responderId : NodeID) :
    (stranger requesterId responderId).isConnected responderId = true := by
  unfold PeerManager.isConnected stranger OrdMap.contains
  rw [OrdMap.find?_insert_self]
  rfl

/-- What the stranger learns of a peer has come through the wire. -/
theorem stranger_learns {after : PeerManager} {now : Time} {requesterId responderId p : NodeID}
    {m : PeerResponseMessage} {info : PeerInfo}
    (h : deliver (stranger requesterId responderId) now m = some after)
    (hinfo : after.discovery.getPeerInfo p = some info) :
    info.address.bytes.length < 2 ^ 16 ∧ info.capabilities = {} := by
  unfold deliver at h
  cases hreceived : PeerResponseMessage.fromBytes m.toBytes with
  | value received =>
    rw [hreceived] at h
    cases h
    rcases handlePeerResponse_from hinfo with hknown | ⟨entry, hentry, haddr, hcaps⟩
    · cases hknown
    · rw [haddr, hcaps]
      exact received_entries hreceived entry hentry
  | rejected =>
    -- nothing is taken up, and the stranger knew nobody
    rw [hreceived] at h
    cases h
    cases hinfo
  | outOfBounds =>
    rw [hreceived] at h
    cases h

section Works

variable {responder requester : PeerManager} {now : Time} {draws : Nat → UInt64}
  {unassigned : Signature} {requesterId : NodeID} {maxPeers : UInt32} {signature : Signature}

/-- What is held of a peer that can be sent as it is. -/
def Sendable (held : PeerInfo) : Prop :=
  held.address.bytes.length < 2 ^ 16 ∧ held.capabilities = {}

/-- An answer whose peers are all sendable arrives as it was made. -/
theorem deliver_listing
    (h : ∀ entry ∈ (listing responder now draws unassigned requesterId maxPeers).peers,
      entry.address.bytes.length < 2 ^ 16 ∧ entry.capabilities = {}) :
    deliver requester now (listing responder now draws unassigned requesterId maxPeers) =
      some (requester.handlePeerResponse (Clock.still now)
        (listing responder now draws unassigned requesterId maxPeers)) := by
  unfold deliver
  rw [response_roundTrip listed_count h]

/-- A signed answer teaches what it lists. -/
theorem taught_of_signed (hsig : unassigned ≠ FixedBytes.zero)
    (hconn : requester.isConnected responder.localNodeId = true) :
    Taught responder requester
      (requester.handlePeerResponse (Clock.still now)
        (listing responder now draws unassigned requesterId maxPeers))
      (listing responder now draws unassigned requesterId maxPeers) := by
  have htime : (listing responder now draws unassigned requesterId maxPeers).timestamp = now.secs :=
    rfl
  have hafter := handlePeerResponse_signed _ htime hsig hconn
  refine ⟨?_, ?_⟩
  · -- the last entry of the peer counts, and it says what is held
    intro entry hentry hne
    rcases hafter entry.nodeId with ⟨entry', hentry', hid, info, hinfo, haddr, hcaps⟩ | ⟨hlocal, -⟩
    · obtain ⟨held, heligible, haddr', hcaps'⟩ := listed_eligible hentry'
      rw [hid] at heligible
      exact ⟨held, info, heligible.1, hinfo, haddr.trans haddr', hcaps.trans hcaps'⟩
    · exact absurd (hlocal entry hentry rfl) hne
  · intro p before hbefore
    rcases hafter p with ⟨entry', hentry', hid, info, hinfo, -, hcaps⟩ | ⟨-, hkeep⟩
    · obtain ⟨held, heligible, -, hcaps'⟩ := listed_eligible hentry'
      rw [hid] at heligible
      exact ⟨info, hinfo, .inr ⟨held, heligible.1, hcaps.trans hcaps'⟩⟩
    · exact ⟨before, hkeep.trans hbefore, .inl rfl⟩

/-- An unsigned one teaches nothing, which is enough for an empty list. -/
theorem taught_of_unsigned (hsig : unassigned = FixedBytes.zero)
    (hnone : (listing responder now draws unassigned requesterId maxPeers).peers = []) :
    Taught responder requester
      (requester.handlePeerResponse (Clock.still now)
        (listing responder now draws unassigned requesterId maxPeers))
      (listing responder now draws unassigned requesterId maxPeers) := by
  rw [handlePeerResponse_unsigned _ hsig]
  refine ⟨?_, ?_⟩
  · intro entry hentry
    rw [hnone] at hentry
    cases hentry
  · intro p before hbefore
    exact ⟨before, hbefore, .inl rfl⟩

/-- If the exchange works there is someone to choose, and the answer is the list. -/
theorem works_answer (h : ExchangeWorks responder now unassigned requesterId maxPeers signature)
    (draws : Nat → UInt64) :
    (∃ p held, Eligible responder now requesterId p held) ∧
      ∃ after, deliver (stranger requesterId responder.localNodeId) now
          (listing responder now draws unassigned requesterId maxPeers) = some after ∧
        Taught responder (stranger requesterId responder.localNodeId) after
          (listing responder now draws unassigned requesterId maxPeers) := by
  obtain ⟨m, after, hanswer, hdeliver, htaught⟩ :=
    h draws (stranger requesterId responder.localNodeId) rfl (stranger_isConnected _ _)
  rw [answer_eq] at hanswer
  split_ifs at hanswer with hempty
  obtain rfl := PeerAnswer.response.inj hanswer
  refine ⟨?_, after, hdeliver, htaught⟩
  -- the list was not empty, or the answer would have been a division by zero
  obtain ⟨p, hp⟩ := List.exists_mem_of_ne_nil _ (fun hnil => hempty (List.isEmpty_iff.mpr hnil))
  exact ⟨p, mem_available.mp hp⟩

/-- What may be listed must be sendable: some draws list it to the stranger. -/
theorem sendable_of_works
    (h : ExchangeWorks responder now unassigned requesterId maxPeers signature)
    (hmax : maxPeers ≠ 0) {p : NodeID} {held : PeerInfo}
    (hp : Eligible responder now requesterId p held) : Sendable held := by
  obtain ⟨draws, entry, hentry, rfl⟩ := exists_listed unassigned hp hmax
  obtain ⟨-, after, hdeliver, htaught⟩ := works_answer h draws
  obtain ⟨held', info, hheld', hinfo, haddr, hcaps⟩ := htaught.listed entry hentry hp.2.2.1
  obtain rfl : held' = held := Option.some.inj (hheld'.symm.trans hp.1)
  have hlearnt := stranger_learns hdeliver hinfo
  rw [haddr, hcaps] at hlearnt
  exact hlearnt

/-- Nothing is listed when nothing is asked for. -/
theorem listed_none (hmax : maxPeers = 0) :
    (listing responder now draws unassigned requesterId maxPeers).peers = [] := by
  subst hmax
  rfl

theorem listed_sendable (draws : Nat → UInt64) (unassigned : Signature)
    (h : maxPeers = 0 ∨ ∀ p held, Eligible responder now requesterId p held → Sendable held) :
    ∀ entry ∈ (listing responder now draws unassigned requesterId maxPeers).peers,
      entry.address.bytes.length < 2 ^ 16 ∧ entry.capabilities = {} := by
  intro entry hentry
  rcases h with hmax | h
  · rw [listed_none hmax] at hentry
    cases hentry
  · obtain ⟨held, heligible, haddr, hcaps⟩ := listed_eligible hentry
    rw [haddr, hcaps]
    exact h _ held heligible

end Works

/-- **Peer exchange.** With a fresh peer besides the requester, the exchange works
for every requester just when there is one besides the responder as well, and
either nothing is asked for or the unassigned signature happens not to be zero and
every peer that may be listed has the default capabilities and an address that fits
its length field. -/
theorem exchange_works_iff (responder : PeerManager) (now : Time) (unassigned : Signature)
    (requesterId : NodeID) (maxPeers : UInt32) (signature : Signature) :
    (HasFreshPeer responder now requesterId →
        ExchangeWorks responder now unassigned requesterId maxPeers signature) ↔
      (HasFreshPeer responder now requesterId →
        (∃ p held, Eligible responder now requesterId p held) ∧
          (maxPeers = 0 ∨ unassigned ≠ FixedBytes.zero ∧
            ∀ p held, Eligible responder now requesterId p held → Sendable held)) := by
  refine imp_congr_right fun _ => ⟨?_, ?_⟩
  · intro h
    obtain ⟨⟨p, held, hp⟩, -⟩ := works_answer h fun _ => 0
    refine ⟨⟨p, held, hp⟩, or_iff_not_imp_left.mpr fun hmax => ⟨?_, ?_⟩⟩
    · -- an unsigned answer teaches the stranger nothing of a peer that is listed
      intro hzero
      obtain ⟨draws, entry, hentry, rfl⟩ := exists_listed unassigned hp hmax
      obtain ⟨-, after, hdeliver, htaught⟩ := works_answer h draws
      rw [deliver_listing (listed_sendable _ _ (.inr fun p held hp => sendable_of_works h hmax hp)),
        handlePeerResponse_unsigned _ hzero] at hdeliver
      cases hdeliver
      obtain ⟨held', info, -, hinfo, -⟩ := htaught.listed entry hentry hp.2.2.1
      cases hinfo
    · exact fun p held hp => sendable_of_works h hmax hp
  · rintro ⟨⟨p, held, hp⟩, hcond⟩ draws requester hid hconn
    -- the answer is a list: an unsigned one is refused whole, a signed one is learnt
    have hsome : (available responder now requesterId).isEmpty ≠ true := by
      intro hempty
      have hmem := mem_available.mpr ⟨held, hp⟩
      rw [List.isEmpty_iff.mp hempty] at hmem
      cases hmem
    have hsendable := listed_sendable draws unassigned (hcond.imp id And.right)
    refine ⟨_, _, answer_eq.trans (if_neg hsome), deliver_listing hsendable, ?_⟩
    by_cases hzero : unassigned = FixedBytes.zero
    · exact taught_of_unsigned hzero
        (listed_none (hcond.resolve_right fun hsigned => hsigned.1 hzero))
    · exact taught_of_signed hzero hconn

/-- A peer that does not offer storage. -/
def storageless : PeerInfo where
  nodeId := sampleNode 3
  address := Text.ofString "10.0.0.3:4000"
  lastSeen := sampleTime.secs
  capabilities := { canProvideStorage := false }

/-- A responder that knows only this peer. -/
def sampleResponder : PeerManager where
  localNodeId := sampleNode 2
  discovery := { discoveredPeers := OrdMap.empty.insert (sampleNode 3) storageless }

theorem storageless_eligible :
    Eligible sampleResponder sampleTime (sampleNode 1) (sampleNode 3) storageless := by
  refine ⟨OrdMap.find?_insert_self _ _ _, ?_, ?_, ?_⟩
  · decide
  · decide
  · decide

/-- Whatever the signature, nobody learns that the peer does not offer storage. -/
theorem exchange_fails_for_storageless :
    HasFreshPeer sampleResponder sampleTime (sampleNode 1) ∧
      ∀ unassigned, ¬ ExchangeWorks sampleResponder sampleTime unassigned (sampleNode 1) 20
        FixedBytes.zero := by
  refine ⟨?_, ?_⟩
  · obtain ⟨hheld, hfresh, hne, -⟩ := storageless_eligible
    exact ⟨sampleNode 3, storageless, hheld, hfresh, hne⟩
  · intro unassigned h
    have hcaps := (sendable_of_works h (by decide) storageless_eligible).2
    exact absurd hcaps (by decide)

end Cashew.Theorems.PeerExchange
