import Cashew.Network.LedgerSync

/-!
# Gossip ids of sync traffic

A node drops a gossip message when it has seen the message's id. The four
senders of the bridge build that id from different parts of what they send: an
event's id, the ledger's latest hash, the requested epochs, the bytes of a
response. Neither the sender nor the rest of the payload goes in, so two nodes
that ask for the same epochs use one id. `separated_iff` says exactly which
pairs of messages the ids keep apart.
-/

namespace Cashew.Theorems.GossipIds

open Cashew Cashew.Lib

/-! ## Sends -/

/-- A call that creates a gossip message. -/
inductive SyncCall where
  | broadcastEvent (e : LedgerEvent)
  | broadcastCheckpoint (epoch : UInt64)
  | requestSync (peerId : NodeID) (startEpoch endEpoch : UInt64)
  | handleSyncRequest (peerId : NodeID) (startEpoch endEpoch : UInt64)

/-- A call on some node's bridge at some time. -/
structure Sent where
  node : LedgerGossipBridge
  now : Time
  call : SyncCall

namespace Sent

variable (H : Bytes → Hash256) (x : Sent)

/-- What the bridge hands to the gossip protocol. -/
def send : GossipSend :=
  match x.call with
  | .broadcastEvent e => (x.node.broadcastEvent x.now e).2
  | .broadcastCheckpoint epoch => (x.node.broadcastCheckpoint x.now epoch).2
  | .requestSync peerId s t => (x.node.requestSync H x.now peerId s t).2
  | .handleSyncRequest peerId s t => x.node.handleSyncRequest H x.now peerId s t

/-- The gossip message. -/
def message : GossipMessage :=
  match x.send H with
  | .broadcast m => m
  | .direct _ m => m

/-- The node it comes from. -/
def sender : NodeID := x.node.ledger.localNodeId

end Sent

/-- The ids keep two messages apart: if they differ in payload or sender, their
ids differ, and a node that has not seen the second one's id does not count it
as seen after receiving the first. -/
def Separated (H : Bytes → Hash256) (x y : Sent) : Prop :=
  (x.message H).payload ≠ (y.message H).payload ∨ x.sender ≠ y.sender →
    (x.message H).messageId ≠ (y.message H).messageId ∧
    ∀ (g : GossipProtocol) (clock : Clock) (draws : Nat → UInt32),
      g.hasSeenMessage (y.message H).messageId = false →
      (g.receiveMessage clock draws (x.message H)).1.hasSeenMessage
        (y.message H).messageId = false

/-! ## What an id is made of -/

/-- The part of a message its id is made of. -/
inductive IdSource where
  | plain (hash : Hash256)
  | range (startEpoch endEpoch : UInt64)
  | reply (payload : Bytes)

/-- An event broadcast is named by the event's id, a checkpoint by the latest
hash, a request by its epochs and a response by its bytes. -/
def Sent.idSource (x : Sent) : IdSource :=
  match x.call with
  | .broadcastEvent e => .plain e.eventId
  | .broadcastCheckpoint _ => .plain x.node.ledger.latestHash
  | .requestSync _ s t => .range s t
  | .handleSyncRequest _ s t => .reply (x.node.responseMessage s t).serialize

/-- Two sources yield one id. Epochs and responses are hashed, from strings of
different lengths; event ids and latest hashes are used as they are and may be
any hash. -/
def Clash (H : Bytes → Hash256) : IdSource → IdSource → Prop
  | .plain h, .plain h' => h = h'
  | .plain h, .range s t => h = H (requestIdData s t)
  | .range s t, .plain h => H (requestIdData s t) = h
  | .plain h, .reply p => h = H p
  | .reply p, .plain h => H p = h
  | .range s t, .range s' t' => s = s' ∧ t = t'
  | .range _ _, .reply _ => False
  | .reply _, .range _ _ => False
  | .reply p, .reply p' => p = p'

/-- The byte strings hashed for an id. -/
def IdSource.hashed : IdSource → Set Bytes
  | .plain _ => ∅
  | .range s t => {requestIdData s t}
  | .reply p => {p}

/-- The id itself. -/
def IdSource.id (H : Bytes → Hash256) : IdSource → Hash256
  | .plain h => h
  | .range s t => H (requestIdData s t)
  | .reply p => H p

theorem message_messageId (H : Bytes → Hash256) (x : Sent) :
    (x.message H).messageId = x.idSource.id H := by
  obtain ⟨node, now, call⟩ := x
  cases call with
  | broadcastEvent => rfl
  | broadcastCheckpoint => rfl
  | requestSync => rfl
  | handleSyncRequest => rfl

/-! ## The strings that are hashed -/

theorem interleave_length :
    ∀ {as bs : Bytes}, as.length = bs.length → (interleave as bs).length = 2 * as.length
  | [], [], _ => rfl
  | [], _ :: _, h => by cases h
  | _ :: _, [], h => by cases h
  | a :: as, b :: bs, h => by
    have hlen : as.length = bs.length := Nat.succ.inj h
    have ih := interleave_length hlen
    simp only [interleave, List.length_cons, ih]
    omega

theorem interleave_inj :
    ∀ {as bs as' bs' : Bytes}, as.length = bs.length → as'.length = bs'.length →
      interleave as bs = interleave as' bs' → as = as' ∧ bs = bs'
  | [], [], [], [], _, _, _ => ⟨rfl, rfl⟩
  | [], [], _ :: _, _ :: _, _, _, h => by cases h
  | _ :: _, _ :: _, [], [], _, _, h => by cases h
  | [], _ :: _, _, _, h, _, _ => by cases h
  | _ :: _, [], _, _, h, _, _ => by cases h
  | _, _, [], _ :: _, _, h, _ => by cases h
  | _, _, _ :: _, [], _, h, _ => by cases h
  | a :: as, b :: bs, a' :: as', b' :: bs', hlen, hlen', h => by
    simp only [interleave, List.cons.injEq] at h
    obtain ⟨rfl, rfl, h⟩ := h
    obtain ⟨rfl, rfl⟩ := interleave_inj (Nat.succ.inj hlen) (Nat.succ.inj hlen') h
    exact ⟨rfl, rfl⟩

theorem requestIdData_length (s t : UInt64) : (requestIdData s t).length = 16 := by
  rw [requestIdData, interleave_length (by simp), u64Bytes_length]

theorem requestIdData_inj {s t s' t' : UInt64} (h : requestIdData s t = requestIdData s' t') :
    s = s' ∧ t = t' := by
  obtain ⟨hs, ht⟩ := interleave_inj (by simp) (by simp) h
  exact ⟨u64Bytes_injective hs, u64Bytes_injective ht⟩

/-- The bytes of a response are longer than those of an epoch range. -/
theorem serialize_ne_requestIdData (m : LedgerSyncMessage) (s t : UInt64) :
    m.serialize ≠ requestIdData s t := by
  intro h
  have hlen := congrArg List.length h
  rw [requestIdData_length] at hlen
  simp only [LedgerSyncMessage.serialize, List.length_append, List.length_singleton,
    u64Bytes_length, leBytes_length, FixedBytes.size] at hlen
  omega

/-! ## When ids coincide -/

/-- A source that comes from a call hashes a response only in full. -/
def IdSource.FromCall : IdSource → Prop
  | .reply p => ∃ m : LedgerSyncMessage, p = m.serialize
  | _ => True

theorem idSource_fromCall (x : Sent) : x.idSource.FromCall := by
  obtain ⟨node, now, call⟩ := x
  cases call with
  | broadcastEvent => exact trivial
  | broadcastCheckpoint => exact trivial
  | requestSync => exact trivial
  | handleSyncRequest peerId s t => exact ⟨node.responseMessage s t, rfl⟩

/-- Without a collision among the strings hashed for the two ids, they coincide
exactly when their sources clash. -/
theorem id_eq_iff_clash {H : Bytes → Hash256} {a b : IdSource} (ha : a.FromCall)
    (hb : b.FromCall) (hinj : Set.InjOn H (a.hashed ∪ b.hashed)) :
    a.id H = b.id H ↔ Clash H a b := by
  cases a with
  -- ids of different make never clash, by definition
  | plain h =>
    cases b with
    | plain h' => exact Iff.rfl
    | range s' t' => exact Iff.rfl
    | reply p' => exact Iff.rfl
  | range s t =>
    cases b with
    | plain h' => exact Iff.rfl
    | range s' t' =>
      -- two requests are hashed from their ranges
      constructor
      · intro h
        exact requestIdData_inj (hinj (.inl rfl) (.inr rfl) h)
      · rintro ⟨rfl, rfl⟩
        rfl
    | reply p' =>
      obtain ⟨m, rfl⟩ := hb
      constructor
      · intro h
        exact serialize_ne_requestIdData m s t (hinj (.inl rfl) (.inr rfl) h).symm
      · exact False.elim
  -- a reply is hashed from its payload, which is longer than any range
  | reply p =>
    cases b with
    | plain h' => exact Iff.rfl
    | range s' t' =>
      obtain ⟨m, rfl⟩ := ha
      constructor
      · intro h
        exact serialize_ne_requestIdData m s' t' (hinj (.inl rfl) (.inr rfl) h)
      · exact False.elim
    | reply p' =>
      constructor
      · intro h
        exact hinj (.inl rfl) (.inr rfl) h
      · rintro rfl
        rfl

/-- Receiving one message hides another only if they share the id. -/
theorem receiveMessage_hides {g : GossipProtocol} {clock : Clock} {draws : Nat → UInt32}
    {m : GossipMessage} {id : Hash256} (hne : m.messageId ≠ id)
    (h : g.hasSeenMessage id = false) :
    (g.receiveMessage clock draws m).1.hasSeenMessage id = false := by
  unfold GossipProtocol.receiveMessage
  split
  · exact h
  · cases hseen : (g.markAsSeen (clock.read 1) m.messageId).hasSeenMessage id with
    | false => rfl
    | true =>
      rcases GossipProtocol.hasSeenMessage_markAsSeen hseen with hold | hsame
      · rw [h] at hold
        cases hold
      · exact absurd hsame hne

/-- **Which messages the ids keep apart**: those that are the same message from
the same node, and those whose id sources do not clash. -/
theorem separated_iff (H : Bytes → Hash256) (x y : Sent)
    (hinj : Set.InjOn H (x.idSource.hashed ∪ y.idSource.hashed)) :
    Separated H x y ↔
      ((x.message H).payload = (y.message H).payload ∧ x.sender = y.sender) ∨
        ¬ Clash H x.idSource y.idSource := by
  have hids : (x.message H).messageId = (y.message H).messageId ↔
      Clash H x.idSource y.idSource := by
    rw [message_messageId, message_messageId]
    exact id_eq_iff_clash (idSource_fromCall x) (idSource_fromCall y) hinj
  constructor
  · intro hsep
    by_cases hsame : (x.message H).payload = (y.message H).payload ∧ x.sender = y.sender
    · exact .inl hsame
    · have hdiffer : (x.message H).payload ≠ (y.message H).payload ∨ x.sender ≠ y.sender := by
        by_cases hpayload : (x.message H).payload = (y.message H).payload
        · exact .inr fun hsender => hsame ⟨hpayload, hsender⟩
        · exact .inl hpayload
      exact .inr fun hclash => (hsep hdiffer).1 (hids.mpr hclash)
  · rintro (⟨hpayload, hsender⟩ | hclash) hdiffer
    · rcases hdiffer with hne | hne
      · exact absurd hpayload hne
      · exact absurd hsender hne
    · have hne : (x.message H).messageId ≠ (y.message H).messageId :=
        fun heq => hclash (hids.mp heq)
      exact ⟨hne, fun g clock draws hseen => receiveMessage_hides hne hseen⟩

/-- Node `n`, with an empty ledger, asks node 3 for the given epochs. -/
def asks (n : Nat) (startEpoch endEpoch : UInt64) : Sent where
  node := LedgerGossipBridge.fresh (sampleNode n)
  now := sampleTime
  call := .requestSync (sampleNode 3) startEpoch endEpoch

/-- Nodes 1 and 2 ask node 3 for epoch 2: the second request is taken for the
first. -/
theorem same_range_not_separated :
    Set.InjOn sampleHash ((asks 1 2 2).idSource.hashed ∪ (asks 2 2 2).idSource.hashed) ∧
      ¬ Separated sampleHash (asks 1 2 2) (asks 2 2 2) := by
  refine ⟨?_, ?_⟩
  · rintro a (rfl | rfl) b (rfl | rfl) _
    all_goals rfl
  · intro hsep
    have hsenders : (asks 1 2 2).sender ≠ (asks 2 2 2).sender := by decide
    exact (hsep (.inr hsenders)).1 rfl

/-- Asked for different epochs, the two requests are kept apart. -/
theorem different_ranges_separated : Separated sampleHash (asks 1 2 2) (asks 2 3 3) := by
  refine (separated_iff sampleHash (asks 1 2 2) (asks 2 3 3) ?_).mpr (.inr ?_)
  · have hne : sampleHash (requestIdData 2 2) ≠ sampleHash (requestIdData 3 3) := by
      decide
    rintro a (rfl | rfl) b (rfl | rfl) h
    · rfl
    · exact absurd h hne
    · exact absurd h.symm hne
    · rfl
  · rintro ⟨h, _⟩
    exact absurd h (by decide)

end Cashew.Theorems.GossipIds
