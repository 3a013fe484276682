import Cashew.Logic.Gossip

/-!
# Which gossip messages are handled

A message is handled at most once: its id is remembered for longer than the
message stays acceptable, and only a full turn of the cache can push it out
earlier (`handled_at_most_once`).

The id is a field of the message that nobody checks. So whoever sends a message
with another one's id first decides that the other is never handled
(`unsuppressed_iff`).
-/

namespace Cashew.Theorems.GossipDelivery

open Cashew Cashew.Lib Cashew.GossipProtocol

/-! ## At most once -/

/-- The two are copies of one message, up to the hops they have made. -/
def Copies (m m' : GossipMessage) : Prop :=
  m'.messageId = m.messageId ∧ m'.timestamp = m.timestamp

instance (m m' : GossipMessage) : Decidable (Copies m m') :=
  inferInstanceAs (Decidable (_ ∧ _))

/-- The call receives a copy of the message. -/
def ReceivesCopy (m : GossipMessage) (input : Clock × GossipInput) : Prop :=
  ∃ draws m', input.2 = .receiveMessage draws m' ∧ Copies m m'

/-- The step runs a handler on a copy of the message. -/
def handlesCopy (m : GossipMessage) (g : GossipProtocol) (input : Clock × GossipInput) : Bool :=
  (gossipMachine.step g input).2.any fun
    | .handle m' => Copies m m'
    | .send _ _ => false

/-- Handlers only run on a message that is received and passes the filter. -/
theorem accepted_of_handlesCopy {m : GossipMessage} {g : GossipProtocol} {clock : Clock}
    {input : GossipInput} (h : handlesCopy m g (clock, input) = true) :
    ∃ draws m', input = .receiveMessage draws m' ∧ Copies m m' ∧
      g.shouldPropagate (clock.read 0) m' = true := by
  obtain ⟨effect, heffect, hhandle⟩ := List.any_eq_true.mp h
  cases input with
  | receiveMessage draws m' =>
    cases haccept : g.shouldPropagate (clock.read 0) m' with
    | false => simp [gossipMachine, call, receiveMessage, haccept] at heffect
    | true =>
      simp [gossipMachine, call, receiveMessage, haccept] at heffect
      rcases heffect with ⟨_, rfl⟩ | ⟨_, _, rfl⟩
      · exact ⟨draws, m', rfl, of_decide_eq_true hhandle, haccept⟩
      · cases hhandle
  | broadcastMessage draws m' =>
    simp [gossipMachine, call, broadcastMessage] at heffect
    obtain ⟨_, _, rfl⟩ := heffect
    cases hhandle
  | cleanupOldSeenMessages => simp [gossipMachine, call] at heffect

theorem Copies.expires {m m₁ m₂ : GossipMessage} (h₁ : Copies m m₁) (h₂ : Copies m m₂) {lo : Nat}
    (h : m₁.Expires lo) : m₂.Expires lo := by
  intro now hnow
  have hold := h now hnow
  unfold GossipMessage.isTooOld at hold ⊢
  rwa [h₂.2, ← h₁.2]

/-- After a copy was accepted, no copy is for as long as the cache has not been
turned over. -/
theorem refused_after_accepted {m : GossipMessage} {g : GossipProtocol} {clock : Clock}
    {draws : Nat → UInt32} {m₁ : GossipMessage} (hcopy : Copies m m₁)
    (haccept : g.shouldPropagate (clock.read 0) m₁ = true) {t : Nat}
    {mid back : List (Clock × GossipInput)} {later : Clock} {input : GossipInput}
    (hclock : ClockFrom t ((clock, .receiveMessage draws m₁) :: (mid ++ (later, input) :: back)))
    (hmarks : gossipMachine.countSteps (marksOther m.messageId)
      (gossipMachine.step g (clock, .receiveMessage draws m₁)).1 mid < g.maxSeenMessages)
    {m₂ : GossipMessage} (hcopy₂ : Copies m m₂) :
    (gossipMachine.run g ((clock, .receiveMessage draws m₁) :: mid)).1.shouldPropagate
      (later.read 0) m₂ = false := by
  obtain ⟨_, hend, hrest⟩ := hclock
  have hstep : (gossipMachine.step g (clock, .receiveMessage draws m₁)).1 =
      g.markAsSeen (clock.read 1) m.messageId := by
    simp [gossipMachine, call, receiveMessage, haccept, hcopy.1]
  rw [hstep] at hmarks
  obtain ⟨hi, k, hsettled, hlater⟩ := (settled_markAsSeen (g := g) (k := 0) (clock.read 1)
    m.messageId (le_refl _)).run mid (le_refl _) hrest (by simpa using hmarks)
  have hexpires : m₁.Expires (clock.read 1).secs.toNat :=
    GossipMessage.expires_of_fresh (shouldPropagate_iff.mp haccept).2.1 hend
  show (gossipMachine.run (gossipMachine.step g _).1 mid).1.shouldPropagate _ _ = false
  rw [hstep]
  exact hsettled.refused hcopy₂.1 (hcopy.expires hcopy₂ hexpires) hlater.1

/-- **At most once.** In every run of receptions, broadcasts and cleanups on a
clock that does not go back, the handlers run for at most one copy of a message,
provided that fewer other ids than the cache holds are marked between any two
receptions of it. -/
theorem handled_at_most_once (g : GossipProtocol) (m : GossipMessage)
    (inputs : List (Clock × GossipInput)) (hclock : ClockFrom 0 inputs)
    (hmarks : ∀ front first mid second back,
      inputs = front ++ first :: (mid ++ second :: back) →
      ReceivesCopy m first → ReceivesCopy m second →
      gossipMachine.countSteps (marksOther m.messageId)
        (gossipMachine.run g (front ++ [first])).1 mid < g.maxSeenMessages) :
    gossipMachine.countSteps (handlesCopy m) g inputs ≤ 1 := by
  by_contra hmany
  obtain ⟨front, ⟨clock, i⟩, mid, ⟨later, j⟩, back, rfl, hfirst, hsecond⟩ :=
    gossipMachine.exists_pair_of_countSteps (not_le.mp hmany)
  obtain ⟨draws, m₁, rfl, hcopy₁, haccept₁⟩ := accepted_of_handlesCopy hfirst
  obtain ⟨draws', m₂, rfl, hcopy₂, haccept₂⟩ := accepted_of_handlesCopy hsecond
  obtain ⟨t, hfrom⟩ := hclock.append
  have hfew := hmarks front _ mid _ back rfl ⟨draws, m₁, rfl, hcopy₁⟩ ⟨draws', m₂, rfl, hcopy₂⟩
  rw [Machine.run_append, ← run_maxSeenMessages g front] at hfew
  have hrefused := refused_after_accepted hcopy₁ haccept₁ hfrom hfew hcopy₂
  rw [Machine.run_append] at haccept₂
  cases hrefused.symm.trans haccept₂

/-- Node 1, which handles network state updates. -/
def sampleGossip : GossipProtocol :=
  { localNodeId := sampleNode 1, peers := [sampleNode 2]
    handlers := [.listed .networkStateUpdate] }

/-- A network state update with the given id and payload, made at 1200 s. -/
def sampleUpdate (messageId : Hash256) (payload : Bytes) (hopCount : UInt8) : GossipMessage where
  type := .listed .networkStateUpdate
  messageId
  payload
  timestamp := 1200
  hopCount

/-- An update is received, a cleanup and a broadcast follow, and the update is
received again. -/
def receivedTwice : List (Clock × GossipInput) :=
  [.receiveMessage (fun _ => 0) (sampleUpdate FixedBytes.zero [1] 0), .cleanupOldSeenMessages,
    .broadcastMessage (fun _ => 0) (sampleUpdate (sampleHash [2]) [2] 0),
    .receiveMessage (fun _ => 0) (sampleUpdate FixedBytes.zero [1] 3)].map
    fun input => (.still sampleTime, input)

theorem receivedTwice_handled_once :
    gossipMachine.countSteps (handlesCopy (sampleUpdate FixedBytes.zero [1] 0)) sampleGossip
      receivedTwice ≤ 1 := by
  refine handled_at_most_once sampleGossip _ receivedTwice ?_ ?_
  · simp [receivedTwice, ClockFrom]
  · intro front first mid second back hsplit _ _
    have hlength : mid.length < receivedTwice.length := by
      rw [hsplit]
      simp
      omega
    have hcount := gossipMachine.countSteps_le_length
      (marksOther (sampleUpdate FixedBytes.zero [1] 0).messageId)
      (gossipMachine.run sampleGossip (front ++ [first])).1 mid
    have hshort : receivedTwice.length < sampleGossip.maxSeenMessages := by decide
    omega

/-! ## Whose id it is -/

/-- A message received at some time. -/
structure Reception where
  clock : Clock
  draws : Nat → UInt32
  message : GossipMessage

def Reception.input (r : Reception) : Clock × GossipInput :=
  (r.clock, .receiveMessage r.draws r.message)

/-- The message passes the checks that do not look at the cache. -/
def Reception.Passes (r : Reception) : Prop :=
  r.message.isTooOld (r.clock.read 0) = false ∧ r.message.hasExceededHops = false

/-- The state after receiving a list of messages. -/
def afterReceiving (g : GossipProtocol) (received : List Reception) : GossipProtocol :=
  (gossipMachine.run g (received.map Reception.input)).1

def GossipEffect.isHandle : GossipEffect → Bool
  | .handle _ => true
  | .send _ _ => false

/-- After the others, a message does not count as seen, and receiving it runs
every handler for its type. -/
def Unsuppressed (g : GossipProtocol) (received : List Reception) (r : Reception) : Prop :=
  (afterReceiving g received).hasSeenMessage r.message.messageId = false ∧
    ((afterReceiving g received).receiveMessage r.clock r.draws r.message).2.filter
        GossipEffect.isHandle =
      (g.handlers.filter (· = r.message.type)).map fun _ => .handle r.message

/-- A reception marks the id of the message, or leaves the state alone. -/
theorem receive_cases (g : GossipProtocol) (r : Reception) :
    (g.shouldPropagate (r.clock.read 0) r.message = true ∧
      (gossipMachine.step g r.input).1 = g.markAsSeen (r.clock.read 1) r.message.messageId) ∨
    (g.shouldPropagate (r.clock.read 0) r.message = false ∧
      (gossipMachine.step g r.input).1 = g) := by
  cases haccept : g.shouldPropagate (r.clock.read 0) r.message with
  | true => simp [gossipMachine, call, Reception.input, receiveMessage, haccept]
  | false => simp [gossipMachine, call, Reception.input, receiveMessage, haccept]

theorem afterReceiving_cons (g : GossipProtocol) (r : Reception) (rest : List Reception) :
    afterReceiving g (r :: rest) = afterReceiving (gossipMachine.step g r.input).1 rest := rfl

theorem afterReceiving_handlers (g : GossipProtocol) (received : List Reception) :
    (afterReceiving g received).handlers = g.handlers := by
  induction received generalizing g with
  | nil => rfl
  | cons r rest ih =>
    rw [afterReceiving_cons, ih]
    rcases receive_cases g r with ⟨_, h⟩ | ⟨_, h⟩
    · rw [h]
      rfl
    · rw [h]

/-- An entry for the id is not pushed out by fewer receptions than the cache
holds. -/
theorem seen_of_recent {id : Hash256} (received : List Reception) {g : GossipProtocol} {k : Nat}
    (h : Recent (fun seen => seen.messageId = id) k g.seenMessages)
    (hroom : k + received.length < g.maxSeenMessages) :
    (afterReceiving g received).hasSeenMessage id = true := by
  induction received generalizing g k with
  | nil => exact hasSeenMessage_iff.mpr h.exists_mem
  | cons r rest ih =>
    rw [List.length_cons] at hroom
    rw [afterReceiving_cons]
    rcases receive_cases g r with ⟨_, hstep⟩ | ⟨_, hstep⟩
    · rw [hstep]
      refine ih (k := k + 1) (h.push (.inr (by omega)) _) ?_
      rw [markAsSeen_maxSeenMessages]
      omega
    · rw [hstep]
      exact ih h (by omega)

/-- An unseen id is seen afterwards exactly when a message with it got through
the other checks. -/
theorem seen_iff {id : Hash256} (received : List Reception) {g : GossipProtocol}
    (hunseen : g.hasSeenMessage id = false) (hroom : received.length < g.maxSeenMessages) :
    (afterReceiving g received).hasSeenMessage id = true ↔
      ∃ r ∈ received, r.message.messageId = id ∧ r.Passes := by
  induction received generalizing g with
  | nil => simp [afterReceiving, Machine.run, hunseen]
  | cons r rest ih =>
    rw [List.length_cons] at hroom
    rw [afterReceiving_cons]
    simp only [List.mem_cons, exists_eq_or_imp]
    rcases receive_cases g r with ⟨haccept, hstep⟩ | ⟨hrefuse, hstep⟩
    · have hpasses : r.Passes := (shouldPropagate_iff.mp haccept).2
      rw [hstep]
      by_cases hid : r.message.messageId = id
      · have hrecent : Recent (fun seen => seen.messageId = id) 0
            (g.markAsSeen (r.clock.read 1) r.message.messageId).seenMessages :=
          Recent.push_self hid
        have hseen := seen_of_recent rest hrecent (by rw [markAsSeen_maxSeenMessages]; omega)
        exact iff_of_true hseen (.inl ⟨hid, hpasses⟩)
      · have hstill : (g.markAsSeen (r.clock.read 1) r.message.messageId).hasSeenMessage id =
            false := by
          rw [← Bool.not_eq_true]
          intro hseen
          rcases hasSeenMessage_markAsSeen hseen with hold | hsame
          · cases hunseen.symm.trans hold
          · exact hid hsame
        rw [ih hstill (by rw [markAsSeen_maxSeenMessages]; omega)]
        simp [hid]
    · have hnot : ¬ (r.message.messageId = id ∧ r.Passes) := by
        rintro ⟨rfl, hyoung, hhops⟩
        cases hrefuse.symm.trans (shouldPropagate_iff.mpr ⟨hunseen, hyoung, hhops⟩)
      rw [hstep, ih hunseen (by omega)]
      simp [hnot]

/-- A message whose id none of those that got through had is handled. -/
theorem unsuppressed_of_new {g : GossipProtocol} {received : List Reception} {r : Reception}
    (hunseen : g.hasSeenMessage r.message.messageId = false)
    (hroom : received.length < g.maxSeenMessages) (hpasses : r.Passes)
    (hnew : ∀ earlier ∈ received, earlier.Passes →
      earlier.message.messageId ≠ r.message.messageId) : Unsuppressed g received r := by
  have hstill : (afterReceiving g received).hasSeenMessage r.message.messageId = false := by
    rw [← Bool.not_eq_true, seen_iff received hunseen hroom]
    rintro ⟨earlier, hmem, hid, hearlier⟩
    exact hnew earlier hmem hearlier hid
  have haccept : (afterReceiving g received).shouldPropagate (r.clock.read 0) r.message = true :=
    shouldPropagate_iff.mpr ⟨hstill, hpasses⟩
  refine ⟨hstill, ?_⟩
  simp [receiveMessage, haccept, afterReceiving_handlers, List.filter_map, Function.comp_def,
    GossipEffect.isHandle]

/-- **Whose id it is.** A message whose id is new to the node, received fresh and
below the hop limit after fewer others than the cache holds, is not suppressed
exactly when none of the others that got through had taken its id. -/
theorem unsuppressed_iff (g : GossipProtocol) (received : List Reception) (r : Reception)
    (hunseen : g.hasSeenMessage r.message.messageId = false)
    (hroom : received.length < g.maxSeenMessages) (hpasses : r.Passes) :
    Unsuppressed g received r ↔
      ∀ earlier ∈ received, earlier.Passes → earlier.message.messageId ≠ r.message.messageId := by
  constructor
  · rintro ⟨hstill, _⟩ earlier hmem hearlier hid
    have hseen := (seen_iff received hunseen hroom).mpr ⟨earlier, hmem, hid, hearlier⟩
    cases hstill.symm.trans hseen
  · exact unsuppressed_of_new hunseen hroom hpasses

/-- The update with payload `b`, with the id it is made with, received at 1200 s. -/
def honest (b : UInt8) : Reception where
  clock := .still sampleTime
  draws _ := 0
  message := sampleUpdate ((sampleUpdate FixedBytes.zero [b] 0).computeId sampleHash) [b] 0

/-- Another payload under the same id. -/
def forged (b : UInt8) : Reception :=
  { honest b with message := { (honest b).message with payload := [b + 1] } }

/-- Updates with their own ids do not disturb each other. -/
theorem honest_unsuppressed : Unsuppressed sampleGossip [honest 1] (honest 2) := by
  refine (unsuppressed_iff sampleGossip [honest 1] (honest 2) rfl (by decide) ?_).mpr ?_
  · exact ⟨by decide, by decide⟩
  · intro earlier hmem _
    rw [List.mem_singleton.mp hmem]
    decide

/-- Two messages have the same type, payload and timestamp. -/
structure SameContent (m m' : GossipMessage) : Prop where
  type : m.type = m'.type
  payload : m.payload = m'.payload
  timestamp : m.timestamp = m'.timestamp

/-- The message got its id from `compute_id`, called on the draft of it: before it
had made any hop, with whatever stood in the id field then. -/
structure MadeFrom (H : Bytes → Hash256) (draft m : GossipMessage) : Prop where
  messageId : m.messageId = draft.computeId H
  content : SameContent draft m
  hopCount : draft.hopCount = 0

/-- The encoding fixes the content. -/
theorem sameContent_of_toBytes {m m' : GossipMessage} (h : m.toBytes = m'.toBytes) :
    SameContent m m' := by
  simp only [GossipMessage.toBytes] at h
  have hlength : m.payload.length = m'.payload.length := by
    have := congrArg List.length h
    simp [m.messageId.size, m'.messageId.size] at this
    omega
  obtain ⟨htype, hrest⟩ := List.append_inj h rfl
  obtain ⟨_, hrest⟩ := List.append_inj hrest (by rw [m.messageId.size, m'.messageId.size])
  obtain ⟨_, hrest⟩ := List.append_inj hrest (by simp)
  obtain ⟨hpayload, hrest⟩ := List.append_inj hrest hlength
  obtain ⟨hstamp, _⟩ := List.append_inj hrest (by simp)
  exact ⟨Wire.toByte_injective (List.singleton_injective htype), hpayload,
    u64Bytes_injective hstamp⟩

theorem SameContent.symm {m m' : GossipMessage} (h : SameContent m m') : SameContent m' m :=
  ⟨h.type.symm, h.payload.symm, h.timestamp.symm⟩

theorem SameContent.trans {m m' m'' : GossipMessage} (h : SameContent m m')
    (h' : SameContent m' m'') : SameContent m m'' :=
  ⟨h.type.trans h'.type, h.payload.trans h'.payload, h.timestamp.trans h'.timestamp⟩

/-- Among messages that were all made by `compute_id`, none suppresses one with
another content. -/
theorem unsuppressed_of_made {H : Bytes → Hash256} {drafts : Set GossipMessage}
    (hinj : Set.InjOn H (GossipMessage.toBytes '' drafts)) (g : GossipProtocol)
    (received : List Reception) (r : Reception)
    (hunseen : g.hasSeenMessage r.message.messageId = false)
    (hroom : received.length < g.maxSeenMessages) (hpasses : r.Passes)
    (hmade : ∃ draft ∈ drafts, MadeFrom H draft r.message)
    (hothers : ∀ earlier ∈ received, (∃ draft ∈ drafts, MadeFrom H draft earlier.message) ∧
      ¬ SameContent earlier.message r.message) : Unsuppressed g received r := by
  refine unsuppressed_of_new hunseen hroom hpasses ?_
  intro earlier hmem _ hid
  obtain ⟨draft, hdraft, hfrom⟩ := hmade
  obtain ⟨⟨draft', hdraft', hfrom'⟩, hdiffers⟩ := hothers earlier hmem
  have hhash : H draft'.toBytes = H draft.toBytes :=
    hfrom'.messageId.symm.trans (hid.trans hfrom.messageId)
  have hbytes : draft'.toBytes = draft.toBytes :=
    hinj (Set.mem_image_of_mem _ hdraft') (Set.mem_image_of_mem _ hdraft) hhash
  have hsame := sameContent_of_toBytes hbytes
  exact hdiffers (hfrom'.content.symm.trans (hsame.trans hfrom.content))

/-- The id of an update is taken by a message with another payload: the update
was made by `compute_id`, is fresh and new to the node, and is dropped. -/
theorem forged_suppresses :
    MadeFrom sampleHash (sampleUpdate FixedBytes.zero [1] 0) (honest 1).message ∧
      (forged 1).message.payload ≠ (honest 1).message.payload ∧ (honest 1).Passes ∧
      sampleGossip.hasSeenMessage (honest 1).message.messageId = false ∧
      ¬ Unsuppressed sampleGossip [forged 1] (honest 1) := by
  refine ⟨⟨rfl, ⟨rfl, rfl, rfl⟩, rfl⟩, by decide, ⟨by decide, by decide⟩, rfl, ?_⟩
  rintro ⟨hstill, _⟩
  have hseen : (afterReceiving sampleGossip [forged 1]).hasSeenMessage
      (honest 1).message.messageId = true := by
    decide
  cases hstill.symm.trans hseen

end Cashew.Theorems.GossipDelivery
