import Cashew.Logic.Gossip

/-!
# Flooding

Any number of nodes pass one message on. Every copy ever sent may be delivered
again at any time, or never. The nodes' other traffic, cleanups and changes of
peers go on in between, each node on a clock of its own.

A node that has sent the message on remembers it for as long as the message is
acceptable, so it does not send it on again, and the number of copies is bounded
by the number of nodes times the fanout (`flood_bounded`). For the node the message
starts from this takes a timestamp that is not far ahead of its clock: a message
dated into the future outlives the entry in the cache.
-/

namespace Cashew.Theorems.GossipFlooding

open Cashew Cashew.Lib Cashew.GossipProtocol

/-! ## The network -/

/-- One step in which a node sent the message, and what it sent. -/
structure Relay where
  node : NodeID
  copies : List (NodeID × GossipMessage)

/-- The nodes, the last reading of each node's clock, whether the message has
been broadcast, and the steps in which it was sent. -/
structure Flood where
  node : NodeID → GossipProtocol
  latest : NodeID → Nat
  broadcast : Bool
  relays : List Relay

/-- What can happen. Calls that do not concern the message are `other`. -/
inductive FloodInput where
  | broadcast (n : NodeID) (draws : Nat → UInt32)
  | deliver (k : Nat) (draws : Nat → UInt32)
  | other (n : NodeID) (input : GossipInput)
  | addPeer (n peer : NodeID)
  | removePeer (n peer : NodeID)

/-- The sends among the effects of a call. -/
def sends (effects : List GossipEffect) : List (NodeID × GossipMessage) :=
  effects.filterMap fun
    | .send peer m => some (peer, m)
    | .handle _ => none

namespace Flood

/-- Nodes that have just been constructed. -/
def fresh (fanout : Nat) (capacity : NodeID → Nat)
    (handlers : NodeID → List (Wire GossipMessageType)) : Flood where
  node n :=
    { localNodeId := n, handlers := handlers n, fanout, maxSeenMessages := capacity n }
  latest _ := 0
  broadcast := false
  relays := []

/-- Every copy that was ever sent, with the node it is for. -/
def inFlight (f : Flood) : List (NodeID × GossipMessage) := f.relays.flatMap (·.copies)

def setNode (f : Flood) (n : NodeID) (g : GossipProtocol) : Flood :=
  { f with node := Function.update f.node n g }

/-- A call on a node is over. -/
def advance (f : Flood) (n : NodeID) (clock : Clock) (g : GossipProtocol) : Flood :=
  { f.setNode n g with latest := Function.update f.latest n (clock.read 1).secs.toNat }

/-- A call on a node that may have sent the message. -/
def relay (f : Flood) (n : NodeID) (clock : Clock)
    (result : GossipProtocol × List GossipEffect) : Flood :=
  { f.advance n clock result.1 with
    relays :=
      if (sends result.2).isEmpty then f.relays
      else f.relays ++ [{ node := n, copies := sends result.2 }] }

end Flood

def floodMachine (m : GossipMessage) : Machine Flood (Clock × FloodInput) Empty where
  step f input :=
    (match input.2 with
     | .broadcast n draws =>
       { f.relay n input.1 ((f.node n).broadcastMessage (input.1.read 0) draws m) with
         broadcast := true }
     | .deliver k draws =>
       match f.inFlight[k]? with
       | none => f
       | some (n, copy) => f.relay n input.1 ((f.node n).receiveMessage input.1 draws copy)
     | .other n call => f.advance n input.1 ((f.node n).call input.1 call).1
     | .addPeer n peer => f.setNode n ((f.node n).addPeer peer)
     | .removePeer n peer => f.setNode n ((f.node n).removePeer peer), [])

/-! ## Copies, and who has sent them on -/

/-- A copy of the message, up to the hops it has made. -/
def IsCopy (m m' : GossipMessage) : Prop := { m' with hopCount := m.hopCount } = m

instance (m m' : GossipMessage) : Decidable (IsCopy m m') := inferInstanceAs (Decidable (_ = _))

/-- A call that does not receive or broadcast a copy of the message. -/
def Unrelated (m : GossipMessage) : GossipInput → Prop
  | .receiveMessage _ m' => ¬ IsCopy m m'
  | .broadcastMessage _ m' => ¬ IsCopy m m'
  | .cleanupOldSeenMessages => True

/-- A call on a node: the node is one of the members, its clock does not go back,
and if it marks an id, the cache has room. -/
structure Orderly (members : Finset NodeID) (f : Flood) (n : NodeID) (clock : Clock)
    (input : GossipInput) : Prop where
  member : n ∈ members
  ahead : f.latest n ≤ (clock.read 0).secs.toNat
  forward : (clock.read 0).secs.toNat ≤ (clock.read 1).secs.toNat
  room : (f.node n).marked clock input ≠ none →
    (f.node n).seenMessages.length < (f.node n).maxSeenMessages

/-- The runs considered: orderly calls of members, one broadcast of the message,
and other calls that do not broadcast or make up copies of it. -/
def Admissible (members : Finset NodeID) (m : GossipMessage) (f : Flood)
    (input : Clock × FloodInput) : Prop :=
  match input.2 with
  | .broadcast n draws =>
    Orderly members f n input.1 (.broadcastMessage draws m) ∧ f.broadcast = false
  | .deliver k draws =>
    ∀ copy ∈ f.inFlight[k]?, Orderly members f copy.1 input.1 (.receiveMessage draws copy.2)
  | .other n call => Orderly members f n input.1 call ∧ Unrelated m call
  | .addPeer _ _ => True
  | .removePeer _ _ => True

instance (members : Finset NodeID) (f : Flood) (n : NodeID) (clock : Clock)
    (input : GossipInput) : Decidable (Orderly members f n clock input) :=
  decidable_of_iff (n ∈ members ∧ f.latest n ≤ (clock.read 0).secs.toNat ∧
      (clock.read 0).secs.toNat ≤ (clock.read 1).secs.toNat ∧
      ((f.node n).marked clock input ≠ none →
        (f.node n).seenMessages.length < (f.node n).maxSeenMessages))
    ⟨fun h => ⟨h.1, h.2.1, h.2.2.1, h.2.2.2⟩,
      fun h => ⟨h.member, h.ahead, h.forward, h.room⟩⟩

instance (m : GossipMessage) : ∀ input, Decidable (Unrelated m input)
  | .receiveMessage _ m' => inferInstanceAs (Decidable (¬ IsCopy m m'))
  | .broadcastMessage _ m' => inferInstanceAs (Decidable (¬ IsCopy m m'))
  | .cleanupOldSeenMessages => instDecidableTrue

instance (members : Finset NodeID) (m : GossipMessage) (f : Flood) :
    ∀ input, Decidable (Admissible members m f input)
  | (_, .broadcast _ _) => inferInstanceAs (Decidable (_ ∧ _))
  | (clock, .deliver k draws) =>
    inferInstanceAs (Decidable (∀ copy ∈ f.inFlight[k]?,
      Orderly members f copy.1 clock (.receiveMessage draws copy.2)))
  | (_, .other _ _) => inferInstanceAs (Decidable (_ ∧ _))
  | (_, .addPeer _ _) => instDecidableTrue
  | (_, .removePeer _ _) => instDecidableTrue

/-- The message is dated at most five minutes ahead of the clock of the node that
broadcasts it. -/
def Current (m : GossipMessage) (_ : Flood) (input : Clock × FloodInput) : Prop :=
  match input.2 with
  | .broadcast _ _ => m.timestamp.toNat ≤ (input.1.read 0).secs.toNat + 300
  | _ => True

instance (m : GossipMessage) (f : Flood) : ∀ input, Decidable (Current m f input)
  | (clock, .broadcast _ _) =>
    inferInstanceAs (Decidable (m.timestamp.toNat ≤ (clock.read 0).secs.toNat + 300))
  | (_, .deliver _ _) => instDecidableTrue
  | (_, .other _ _) => instDecidableTrue
  | (_, .addPeer _ _) => instDecidableTrue
  | (_, .removePeer _ _) => instDecidableTrue

/-- Each node has sent the message in at most one step, to at most `fanout`
distinct peers; no copy has made more than `MAX_HOPS` hops; and there are at most
`fanout` copies for each node. -/
structure Bounded (members : Finset NodeID) (fanout : Nat) (f : Flood) : Prop where
  once : (f.relays.map (·.node)).Nodup
  distinct : ∀ r ∈ f.relays, (r.copies.map (·.1)).Nodup ∧ r.copies.length ≤ fanout
  hops : ∀ copy ∈ f.inFlight, copy.2.hopCount ≤ GossipMessage.maxHops
  total : f.inFlight.length ≤ members.card * fanout

/-! ## What a node remembers -/

/-- The node will refuse every copy of the message, from `t` on. -/
def Remembers (m : GossipMessage) (g : GossipProtocol) (t : Nat) : Prop :=
  ∃ lo k, lo ≤ t ∧ m.Expires lo ∧ Settled g m.messageId lo t k

section Node

variable {m : GossipMessage} {g : GossipProtocol} {t : Nat}

theorem IsCopy.messageId {m' : GossipMessage} (h : IsCopy m m') : m'.messageId = m.messageId := by
  rw [← h]

theorem IsCopy.isTooOld {m' : GossipMessage} (h : IsCopy m m') (now : Time) :
    m'.isTooOld now = m.isTooOld now := by
  rw [← h]
  rfl

theorem Remembers.mono {t' : Nat} (h : Remembers m g t) (hle : t ≤ t') : Remembers m g t' := by
  obtain ⟨lo, k, hlo, hexpires, hsettled⟩ := h
  exact ⟨lo, k, by omega, hexpires, hsettled.mono hle (le_refl k)⟩

theorem Remembers.of_seenMessages {g' : GossipProtocol} (h : Remembers m g t)
    (hseen : g'.seenMessages = g.seenMessages) : Remembers m g' t := by
  unfold Remembers Settled at h ⊢
  rwa [hseen]

theorem remembers_markAsSeen {now : Time} {t : Nat} (hexpires : m.Expires now.secs.toNat)
    (hle : now.secs.toNat ≤ t) : Remembers m (g.markAsSeen now m.messageId) t := by
  have hnow : Remembers m (g.markAsSeen now m.messageId) now.secs.toNat :=
    ⟨now.secs.toNat, 0, le_refl _, hexpires, settled_markAsSeen now m.messageId (le_refl _)⟩
  exact hnow.mono hle

theorem Remembers.refused (h : Remembers m g t) {copy : GossipMessage} (hcopy : IsCopy m copy)
    {now : Time} (hnow : t ≤ now.secs.toNat) : g.shouldPropagate now copy = false := by
  obtain ⟨lo, k, _, hexpires, hsettled⟩ := h
  refine hsettled.refused hcopy.messageId ?_ hnow
  intro later hlater
  rw [hcopy.isTooOld]
  exact hexpires later hlater

/-- No call with room in the cache makes a node forget. -/
theorem Remembers.call (h : Remembers m g t) {clock : Clock} (input : GossipInput)
    (hahead : t ≤ (clock.read 0).secs.toNat)
    (hforward : (clock.read 0).secs.toNat ≤ (clock.read 1).secs.toNat)
    (hroom : g.marked clock input ≠ none → g.seenMessages.length < g.maxSeenMessages) :
    Remembers m (g.call clock input).1 (clock.read 1).secs.toNat := by
  obtain ⟨lo, k, hlo, hexpires, hsettled⟩ := h
  refine ⟨lo, _, by omega, hexpires, hsettled.call hlo (clock, input) hahead hforward ?_⟩
  intro hother
  refine .inl (hroom ?_)
  intro hnone
  simp [marksOther, hnone] at hother

/-- A call does not change the peers or the fanout. -/
theorem call_topology (g : GossipProtocol) (clock : Clock) (input : GossipInput) :
    (g.call clock input).1.peers = g.peers ∧ (g.call clock input).1.fanout = g.fanout := by
  rcases call_cases g clock input with ⟨_, _, h⟩ | ⟨_, h | h⟩
  · rw [h]
    exact ⟨rfl, rfl⟩
  · rw [h]
    exact ⟨rfl, rfl⟩
  · rw [h]
    exact ⟨rfl, rfl⟩

theorem addPeer_nodup (h : g.peers.Nodup) (peer : NodeID) : (g.addPeer peer).peers.Nodup := by
  unfold addPeer
  split
  · exact h
  · rename_i hnew
    simp at hnew
    simp [List.nodup_append, h]
    intro a ha heq
    exact hnew (heq ▸ ha)

theorem addPeer_frame (g : GossipProtocol) (peer : NodeID) :
    (g.addPeer peer).fanout = g.fanout ∧ (g.addPeer peer).seenMessages = g.seenMessages := by
  unfold addPeer
  split
  · exact ⟨rfl, rfl⟩
  · exact ⟨rfl, rfl⟩

/-- What is sent goes to distinct peers, at most `fanout` of them. -/
theorem sends_map_send (peers : List NodeID) (copy : GossipMessage) :
    sends (peers.map fun peer => .send peer copy) = peers.map fun peer => (peer, copy) := by
  simp [sends, List.filterMap_map]

theorem sends_broadcast (now : Time) (draws : Nat → UInt32) :
    sends (g.broadcastMessage now draws m).2 =
      (getRandomPeers g.peers g.fanout draws).map fun peer => (peer, m) :=
  sends_map_send _ m

/-- A node sends a received message on only when it accepts it, one hop further. -/
theorem sends_receive (clock : Clock) (draws : Nat → UInt32) (copy : GossipMessage) :
    sends (g.receiveMessage clock draws copy).2 =
      if g.shouldPropagate (clock.read 0) copy then
        (getRandomPeers g.peers g.fanout draws).map fun peer =>
          (peer, { copy with hopCount := copy.hopCount + 1 })
      else [] := by
  unfold receiveMessage
  cases g.shouldPropagate (clock.read 0) copy with
  | false => rfl
  | true =>
    simp only [Bool.not_true, Bool.false_eq_true, if_false, if_true]
    unfold sends
    rw [List.filterMap_append, List.filterMap_map]
    have hnone : (g.handlers.filter (· = copy.type)).filterMap
        ((fun | .send peer m => some (peer, m) | .handle _ => none) ∘
          fun _ => GossipEffect.handle copy) = ([] : List (NodeID × GossipMessage)) := by
      simp
    rw [hnone, List.nil_append]
    exact sends_map_send _ _

end Node

/-! ## The invariant -/

/-- What a step in which the message was sent looks like. -/
structure RelayOk (members : Finset NodeID) (fanout : Nat) (m : GossipMessage) (r : Relay) :
    Prop where
  member : r.node ∈ members
  distinct : (r.copies.map (·.1)).Nodup
  few : r.copies.length ≤ fanout
  copies : ∀ copy ∈ r.copies, IsCopy m copy.2 ∧ copy.2.hopCount ≤ GossipMessage.maxHops

/-- Every node that has sent the message remembers it. -/
structure Inv (members : Finset NodeID) (fanout : Nat) (m : GossipMessage) (f : Flood) :
    Prop where
  peers : ∀ n, (f.node n).peers.Nodup
  uniform : ∀ n, (f.node n).fanout = fanout
  unsent : f.broadcast = false → f.relays = []
  once : (f.relays.map (·.node)).Nodup
  relays : ∀ r ∈ f.relays, RelayOk members fanout m r
  remembers : ∀ r ∈ f.relays, Remembers m (f.node r.node) (f.latest r.node)

section Steps

variable {members : Finset NodeID} {fanout : Nat} {m : GossipMessage} {f : Flood} {n : NodeID}
  {clock : Clock}

/-- A call on one node leaves the others alone. -/
theorem Inv.advance (h : Inv members fanout m f) {g : GossipProtocol}
    (hpeers : g.peers = (f.node n).peers) (hfanout : g.fanout = (f.node n).fanout)
    (hremembers : Remembers m (f.node n) (f.latest n) →
      Remembers m g (clock.read 1).secs.toNat) : Inv members fanout m (f.advance n clock g) := by
  refine ⟨?_, ?_, h.unsent, h.once, h.relays, ?_⟩
  · intro other
    by_cases heq : other = n
    · subst heq
      simpa [Flood.advance, Flood.setNode, hpeers] using h.peers other
    · simpa [Flood.advance, Flood.setNode, heq] using h.peers other
  · intro other
    by_cases heq : other = n
    · subst heq
      simpa [Flood.advance, Flood.setNode, hfanout] using h.uniform other
    · simpa [Flood.advance, Flood.setNode, heq] using h.uniform other
  · intro r hr
    have hbefore := h.remembers r hr
    by_cases heq : r.node = n
    · rw [heq] at hbefore
      simpa [Flood.advance, Flood.setNode, heq] using hremembers hbefore
    · simpa [Flood.advance, Flood.setNode, heq] using hbefore

/-- A change of a node's peers. -/
theorem Inv.setNode (h : Inv members fanout m f) {g : GossipProtocol} (hpeers : g.peers.Nodup)
    (hfanout : g.fanout = (f.node n).fanout)
    (hseen : g.seenMessages = (f.node n).seenMessages) :
    Inv members fanout m (f.setNode n g) := by
  refine ⟨?_, ?_, h.unsent, h.once, h.relays, ?_⟩
  · intro other
    by_cases heq : other = n
    · subst heq
      simpa [Flood.setNode] using hpeers
    · simpa [Flood.setNode, heq] using h.peers other
  · intro other
    by_cases heq : other = n
    · subst heq
      simpa [Flood.setNode, hfanout] using h.uniform other
    · simpa [Flood.setNode, heq] using h.uniform other
  · intro r hr
    have hbefore := h.remembers r hr
    by_cases heq : r.node = n
    · rw [heq] at hbefore
      simpa [Flood.setNode, heq] using hbefore.of_seenMessages hseen
    · simpa [Flood.setNode, heq] using hbefore

theorem Inv.relay_nothing (h : Inv members fanout m f)
    {result : GossipProtocol × List GossipEffect} (hpeers : result.1.peers = (f.node n).peers)
    (hfanout : result.1.fanout = (f.node n).fanout) (hsends : sends result.2 = [])
    (hremembers : Remembers m (f.node n) (f.latest n) →
      Remembers m result.1 (clock.read 1).secs.toNat) :
    Inv members fanout m (f.relay n clock result) := by
  have hrelay : f.relay n clock result = f.advance n clock result.1 := by
    simp [Flood.relay, hsends]
    rfl
  rw [hrelay]
  exact h.advance hpeers hfanout hremembers

/-- A node that has not sent the message before sends it. -/
theorem Inv.relay_copies (h : Inv members fanout m f) (hbroadcast : f.broadcast = true)
    {result : GossipProtocol × List GossipEffect} (hpeers : result.1.peers = (f.node n).peers)
    (hfanout : result.1.fanout = (f.node n).fanout) (hnew : ∀ r ∈ f.relays, r.node ≠ n)
    (hok : RelayOk members fanout m { node := n, copies := sends result.2 })
    (hremembers : Remembers m result.1 (clock.read 1).secs.toNat) :
    Inv members fanout m (f.relay n clock result) := by
  by_cases hsends : sends result.2 = []
  · exact h.relay_nothing hpeers hfanout hsends fun _ => hremembers
  · have hadvance : Inv members fanout m (f.advance n clock result.1) :=
      h.advance hpeers hfanout fun _ => hremembers
    have hrelays : (f.relay n clock result).relays =
        f.relays ++ [{ node := n, copies := sends result.2 }] := by
      simp [Flood.relay, hsends]
    refine ⟨hadvance.peers, hadvance.uniform, ?_, ?_, ?_, ?_⟩
    · intro hnot
      cases hbroadcast.symm.trans hnot
    · rw [hrelays, List.map_append, List.map_singleton, List.nodup_append]
      refine ⟨h.once, by simp, ?_⟩
      intro a ha b hb heq
      obtain ⟨r, hr, rfl⟩ := List.mem_map.mp ha
      exact hnew r hr (heq.trans (List.mem_singleton.mp hb))
    · intro r hr
      rw [hrelays] at hr
      rcases List.mem_append.mp hr with hold | hnow
      · exact h.relays r hold
      · rw [List.mem_singleton.mp hnow]
        exact hok
    · intro r hr
      rw [hrelays] at hr
      rcases List.mem_append.mp hr with hold | hnow
      · exact hadvance.remembers r hold
      · rw [List.mem_singleton.mp hnow]
        simpa [Flood.relay, Flood.advance, Flood.setNode] using hremembers

/-- The node the message starts from. -/
theorem Inv.broadcast (h : Inv members fanout m f) (hhops : m.hopCount = 0)
    {draws : Nat → UInt32} (horderly : Orderly members f n clock (.broadcastMessage draws m))
    (hfirst : f.broadcast = false)
    (hcurrent : m.timestamp.toNat ≤ (clock.read 0).secs.toNat + 300) :
    Inv members fanout m
      { f.relay n clock ((f.node n).broadcastMessage (clock.read 0) draws m) with
        broadcast := true } := by
  have hempty := h.unsent hfirst
  have hstart : Inv members fanout m { f with broadcast := true } :=
    ⟨h.peers, h.uniform, fun hnot => (by cases hnot), h.once, h.relays, h.remembers⟩
  refine hstart.relay_copies rfl rfl rfl ?_ ?_ ?_
  · simp [hempty]
  · refine ⟨horderly.member, ?_, ?_, ?_⟩
    · rw [sends_broadcast, List.map_map]
      simpa [Function.comp_def] using getRandomPeers_nodup (h.peers n) _ draws
    · rw [sends_broadcast, List.length_map, ← h.uniform n]
      exact getRandomPeers_length_le ..
    · intro copy hcopy
      rw [sends_broadcast] at hcopy
      obtain ⟨peer, _, rfl⟩ := List.mem_map.mp hcopy
      exact ⟨rfl, by simp [hhops]⟩
  · exact remembers_markAsSeen (GossipMessage.expires_of_le hcurrent) horderly.forward

/-- A copy below the limit does not exceed it after one hop more. -/
theorem hopCount_succ_le {copy : GossipMessage} (h : copy.hasExceededHops = false) :
    copy.hopCount + 1 ≤ GossipMessage.maxHops := by
  have hlimit : GossipMessage.maxHops.toNat = 10 := by decide
  have hbelow : copy.hopCount.toNat < 10 := by
    simpa [GossipMessage.hasExceededHops, UInt8.le_iff_toNat_le, hlimit] using h
  rw [UInt8.le_iff_toNat_le, hlimit, UInt8.toNat_add]
  simp
  omega

/-- A node that gets a copy. -/
theorem Inv.deliver (h : Inv members fanout m f) {copy : GossipMessage} {draws : Nat → UInt32}
    (hsent : (n, copy) ∈ f.inFlight)
    (horderly : Orderly members f n clock (.receiveMessage draws copy)) :
    Inv members fanout m (f.relay n clock ((f.node n).receiveMessage clock draws copy)) := by
  obtain ⟨sender, hsender, hin⟩ := List.mem_flatMap.mp hsent
  have hcopy : IsCopy m copy := ((h.relays sender hsender).copies _ hin).1
  have htopology := call_topology (f.node n) clock (.receiveMessage draws copy)
  have hcall := fun hbefore : Remembers m (f.node n) (f.latest n) =>
    hbefore.call (.receiveMessage draws copy) horderly.ahead horderly.forward horderly.room
  cases haccept : (f.node n).shouldPropagate (clock.read 0) copy with
  | false =>
    refine h.relay_nothing htopology.1 htopology.2 ?_ hcall
    rw [sends_receive, haccept]
    rfl
  | true =>
    obtain ⟨_, hyoung, hhops⟩ := shouldPropagate_iff.mp haccept
    have hbroadcast : f.broadcast = true := by
      rw [← Bool.not_eq_false]
      intro hnot
      rw [h.unsent hnot] at hsender
      cases hsender
    refine h.relay_copies hbroadcast htopology.1 htopology.2 ?_ ?_ ?_
    · -- a node that has sent it before refuses the copy
      rintro r hr rfl
      cases haccept.symm.trans ((h.remembers r hr).refused hcopy horderly.ahead)
    · refine ⟨horderly.member, ?_, ?_, ?_⟩
      · rw [sends_receive, haccept, if_pos rfl, List.map_map]
        simpa [Function.comp_def] using getRandomPeers_nodup (h.peers n) _ draws
      · rw [sends_receive, haccept, if_pos rfl, List.length_map, ← h.uniform n]
        exact getRandomPeers_length_le ..
      · intro sent hmem
        rw [sends_receive, haccept, if_pos rfl] at hmem
        obtain ⟨peer, _, rfl⟩ := List.mem_map.mp hmem
        exact ⟨hcopy, hopCount_succ_le hhops⟩
    · have hresult : ((f.node n).receiveMessage clock draws copy).1 =
          (f.node n).markAsSeen (clock.read 1) m.messageId := by
        simp [receiveMessage, haccept, hcopy.messageId]
      rw [hresult]
      refine remembers_markAsSeen (GossipMessage.expires_of_fresh ?_ horderly.forward) (le_refl _)
      rw [← hcopy.isTooOld]
      exact hyoung

theorem Inv.step (h : Inv members fanout m f) (hhops : m.hopCount = 0)
    {input : Clock × FloodInput} (hadmissible : Admissible members m f input)
    (hcurrent : Current m f input) : Inv members fanout m ((floodMachine m).step f input).1 := by
  obtain ⟨clock, input⟩ := input
  cases input with
  | broadcast n draws => exact h.broadcast hhops hadmissible.1 hadmissible.2 hcurrent
  | deliver k draws =>
    cases hcopy : f.inFlight[k]? with
    | none => simpa only [floodMachine, hcopy] using h
    | some copy =>
      have hnext := h.deliver (List.mem_of_getElem? hcopy) (hadmissible copy hcopy)
      simpa only [floodMachine, hcopy] using hnext
  | other n call =>
    have horderly := hadmissible.1
    have htopology := call_topology (f.node n) clock call
    exact h.advance htopology.1 htopology.2 fun hbefore =>
      hbefore.call _ horderly.ahead horderly.forward horderly.room
  | addPeer n peer =>
    have hframe := addPeer_frame (f.node n) peer
    exact h.setNode (addPeer_nodup (h.peers n) peer) hframe.1 hframe.2
  | removePeer n peer => exact h.setNode ((h.peers n).filter _) rfl rfl

theorem fresh_inv (members : Finset NodeID) (fanout : Nat) (m : GossipMessage)
    (capacity : NodeID → Nat) (handlers : NodeID → List (Wire GossipMessageType)) :
    Inv members fanout m (Flood.fresh fanout capacity handlers) := by
  refine ⟨fun n => List.nodup_nil, fun n => rfl, fun _ => rfl, List.nodup_nil, ?_, ?_⟩
  · intro r hr
    cases hr
  · intro r hr
    cases hr

theorem Inv.bounded (h : Inv members fanout m f) : Bounded members fanout f := by
  refine ⟨h.once, ?_, ?_, ?_⟩
  · intro r hr
    exact ⟨(h.relays r hr).distinct, (h.relays r hr).few⟩
  · intro copy hcopy
    obtain ⟨r, hr, hin⟩ := List.mem_flatMap.mp hcopy
    exact ((h.relays r hr).copies copy hin).2
  · have hmembers : f.relays.length ≤ members.card := by
      have hsub : (f.relays.map (·.node)).toFinset ⊆ members := by
        intro n hn
        obtain ⟨r, hr, rfl⟩ := List.mem_map.mp (List.mem_toFinset.mp hn)
        exact (h.relays r hr).member
      have hcard := Finset.card_le_card hsub
      rwa [List.toFinset_card_of_nodup h.once, List.length_map] at hcard
    have hcopies : f.inFlight.length ≤ f.relays.length * fanout := by
      unfold Flood.inFlight
      rw [List.length_flatMap]
      refine (List.sum_le_card_nsmul _ fanout ?_).trans (by simp)
      intro length hlength
      obtain ⟨r, hr, rfl⟩ := List.mem_map.mp hlength
      exact (h.relays r hr).few
    exact hcopies.trans (Nat.mul_le_mul_right fanout hmembers)

end Steps

/-- **Bounded flooding.** In every admissible run of fresh nodes, a message that
is broadcast once with no hops, dated at most five minutes ahead of the clock of
the node that broadcasts it, is sent by each node in at most one step, to at most
`fanout` distinct peers; no copy makes more than `MAX_HOPS` hops; and the number
of copies is at most the number of nodes times the fanout. -/
theorem flood_bounded (members : Finset NodeID) (fanout : Nat) (capacity : NodeID → Nat)
    (handlers : NodeID → List (Wire GossipMessageType)) (m : GossipMessage)
    (hhops : m.hopCount = 0) (inputs : List (Clock × FloodInput))
    (hadmissible : (floodMachine m).StepsMeet (Admissible members m)
      (Flood.fresh fanout capacity handlers) inputs)
    (hcurrent : (floodMachine m).StepsMeet (Current m) (Flood.fresh fanout capacity handlers)
      inputs) :
    Bounded members fanout
      ((floodMachine m).run (Flood.fresh fanout capacity handlers) inputs).1 := by
  have hmeet := hadmissible.and hcurrent
  have hinv := Machine.StepsMeet.invariant (P := Inv members fanout m)
    (fun f input h hboth => h.step hhops hboth.1 hboth.2) hmeet
    (fresh_inv members fanout m capacity handlers)
  exact hinv.bounded

/-- Nodes 1 and 2, with the defaults of the constructor. -/
def twoNodes : Flood := Flood.fresh 3 (fun _ => 10000) fun _ => []

/-- A message with the given timestamp. -/
def dated (timestamp : UInt64) : GossipMessage where
  type := .listed .networkStateUpdate
  messageId := FixedBytes.zero
  payload := []
  timestamp
  hopCount := 0

/-- Nodes 1 and 2 get to know each other; node 1 broadcasts at 1000 s and cleans
up some time later; then node 2 gets its copy, and node 1 the one node 2 sends
back, twice. -/
def thereAndBack (cleanup delivery : Time) : List (Clock × FloodInput) :=
  [(.still ⟨1000, by decide⟩, .addPeer (sampleNode 1) (sampleNode 2)),
    (.still ⟨1000, by decide⟩, .addPeer (sampleNode 2) (sampleNode 1)),
    (.still ⟨1000, by decide⟩, .broadcast (sampleNode 1) fun _ => 0),
    (.still cleanup, .other (sampleNode 1) .cleanupOldSeenMessages),
    (.still delivery, .deliver 0 fun _ => 0),
    (.still delivery, .deliver 1 fun _ => 0),
    (.still delivery, .deliver 1 fun _ => 0)]

theorem thereAndBack_bounded :
    Bounded {sampleNode 1, sampleNode 2} 3
      ((floodMachine (dated 1000)).run twoNodes (thereAndBack ⟨1100, by decide⟩ sampleTime)).1 :=
  flood_bounded _ 3 _ _ (dated 1000) rfl _ (by decide) (by decide)

/-- Dated one second beyond the five minutes, the message comes back to node 1
after its entry was cleaned up, and node 1 sends it a second time. -/
theorem future_message_not_bounded :
    (floodMachine (dated 1301)).StepsMeet (Admissible {sampleNode 1, sampleNode 2} (dated 1301))
        twoNodes (thereAndBack ⟨1601, by decide⟩ ⟨1601, by decide⟩) ∧
      ¬ Bounded {sampleNode 1, sampleNode 2} 3 ((floodMachine (dated 1301)).run twoNodes
        (thereAndBack ⟨1601, by decide⟩ ⟨1601, by decide⟩)).1 := by
  refine ⟨by decide, ?_⟩
  intro h
  have hrelays : ((floodMachine (dated 1301)).run twoNodes
      (thereAndBack ⟨1601, by decide⟩ ⟨1601, by decide⟩)).1.relays.map (·.node) =
        [sampleNode 1, sampleNode 2, sampleNode 1] := by
    decide
  have honce := h.once
  rw [hrelays] at honce
  exact absurd honce (by decide)

end Cashew.Theorems.GossipFlooding
