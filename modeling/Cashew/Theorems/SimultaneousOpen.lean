import Cashew.Network.SessionManager
import Cashew.Logic.Session

/-!
# Two nodes that open towards each other

Two session managers, the inits and the responses in flight between them. A
manager that holds a session for the sender of an init ignores the init, also
when that session is itself still waiting for an answer. So inits that cross
leave both sides waiting for good; `agreed_iff_not_crossing` says that nothing
else does.

Up to the timing of messages, the pair goes through the phases of `Phase`:
idle, one side calling, the other answering and having answered, agreed; and
crossed, which is never left.
-/

namespace Cashew.Theorems.SimultaneousOpen

open Cashew Cashew.Lib

variable {c : SessionCrypto}

/-! ## The pair -/

inductive Side where
  | left
  | right
  deriving DecidableEq

instance : Fintype Side := ⟨{.left, .right}, fun x => by cases x <;> decide⟩

def Side.other : Side → Side
  | .left => .right
  | .right => .left

@[simp] theorem Side.other_other (x : Side) : x.other.other = x := by
  cases x <;> rfl

@[simp] theorem Side.other_ne (x : Side) : x.other ≠ x := by
  cases x <;> simp [Side.other]

@[simp] theorem Side.ne_other (x : Side) : x ≠ x.other := (Side.other_ne x).symm

theorem Side.eq_or_other (x y : Side) : y = x ∨ y = x.other := by
  cases x <;> cases y <;> simp [Side.other]

theorem Side.forall_iff (x : Side) {P : Side → Prop} : (∀ y, P y) ↔ P x ∧ P x.other := by
  constructor
  · intro h
    exact ⟨h x, h x.other⟩
  · rintro ⟨hx, hother⟩ y
    rcases Side.eq_or_other x y with rfl | rfl
    · exact hx
    · exact hother

/-- The two managers and, for each side, the messages in flight towards it. -/
structure Pair where
  manager : Side → SessionManager
  inits : Side → List HandshakeMessage
  responses : Side → List HandshakeMessage

/-- Two managers that have not done anything yet. -/
def Pair.fresh (node : Side → NodeID) : Pair where
  manager x := { localNodeId := node x }
  inits _ := []
  responses _ := []

namespace Pair

def node (p : Pair) (x : Side) : NodeID := (p.manager x).localNodeId

def setManager (p : Pair) (x : Side) (m : SessionManager) : Pair :=
  { p with manager := Function.update p.manager x m }

/-- `create_outbound_session` towards the other side and `initiate_handshake` on
the session it returns; the init is sent if that succeeded. -/
def initiate (c : SessionCrypto) (p : Pair) (clock : Clock) (x : Side) (secret : SecretKey) :
    Pair :=
  let created := (p.manager x).createOutboundSession (clock.read 0) (p.node x.other)
  let called := created.1.withSession created.2 fun s =>
    s.initiateHandshake c (clock.read 1) secret
  match called.2 with
  | none => p.setManager x called.1
  | some s =>
    { p.setManager x called.1 with
      inits := Function.update p.inits x.other (p.inits x.other ++ [s.lastHandshake]) }

/-- One of the inits in flight is given to `handle_inbound_handshake`. -/
def deliverInit (c : SessionCrypto) (p : Pair) (clock : Clock) (x : Side) (n : Nat)
    (secret : SecretKey) : Pair :=
  match (p.inits x)[n]? with
  | none => p
  | some init =>
    { p.setManager x ((p.manager x).handleInboundHandshake c clock secret init).1 with
      inits := Function.update p.inits x ((p.inits x).eraseIdx n) }

/-- The session for the other side sends its response, if it has one to send. -/
def respond (c : SessionCrypto) (p : Pair) (clock : Clock) (x : Side) : Pair :=
  match (p.manager x).getSession (p.node x.other) with
  | none => p
  | some (ref, _) =>
    let called := (p.manager x).withSession ref fun s => s.sendHandshakeResponse c clock
    match called.2 with
    | none => p.setManager x called.1
    | some s =>
      { p.setManager x called.1 with
        responses := Function.update p.responses x.other
          (p.responses x.other ++ [s.lastHandshake]) }

/-- One of the responses in flight is handled by the session for the other side. -/
def deliverResponse (c : SessionCrypto) (p : Pair) (clock : Clock) (x : Side) (n : Nat) : Pair :=
  match (p.responses x)[n]?, (p.manager x).getSession (p.node x.other) with
  | some response, some (ref, _) =>
    { p.setManager x ((p.manager x).withSession ref fun s =>
        s.handleHandshakeResponse c clock response).1 with
      responses := Function.update p.responses x ((p.responses x).eraseIdx n) }
  | _, _ => p

end Pair

/-- What can happen, in any order and any number of times. -/
inductive PairInput where
  | initiate (x : Side) (secret : SecretKey)
  | deliverInit (x : Side) (n : Nat) (secret : SecretKey)
  | respond (x : Side)
  | deliverResponse (x : Side) (n : Nat)
  deriving DecidableEq

def pairMachine (c : SessionCrypto) : Machine Pair (Clock × PairInput) Empty where
  step p input :=
    (match input.2 with
     | .initiate x secret => p.initiate c input.1 x secret
     | .deliverInit x n secret => p.deliverInit c input.1 x n secret
     | .respond x => p.respond c input.1 x
     | .deliverResponse x n => p.deliverResponse c input.1 x n, [])

/-! ## Agreement of the two sides -/

/-- Nothing is in flight and no session has a response to send. -/
structure Quiescent (p : Pair) : Prop where
  inits : ∀ x, p.inits x = []
  responses : ∀ x, p.responses x = []
  answered : ∀ x, ∀ entry ∈ (p.manager x).held, entry.2.state ≠ .handshakeResponse

/-- Both managers hold an established session for the other, with matching keys. -/
def Agreed (p : Pair) : Prop :=
  ∃ refL sL refR sR,
    (p.manager .left).getSession (p.node .right) = some (refL, sL) ∧
    (p.manager .right).getSession (p.node .left) = some (refR, sR) ∧
    sL.state = .established ∧ sR.state = .established ∧
    sL.keys.txKey = sR.keys.rxKey ∧ sL.keys.rxKey = sR.keys.txKey

/-- Both managers hold a session that waits for a response, and nothing else. -/
def Stuck (p : Pair) : Prop :=
  ∀ x, ∃ s, (p.manager x).held.map (·.2) = [s] ∧ s.state = .handshakeInit

/-- Messages are handled while they are fresh, and no session has timed out by
the time an init arrives. -/
def Timely (p : Pair) (input : Clock × PairInput) : Prop :=
  match input.2 with
  | .deliverInit x n _ =>
    (∀ init ∈ (p.inits x)[n]?, init.tooOld (input.1.read 2) = false) ∧
      ∀ entry ∈ (p.manager x).held, entry.2.hasTimedOut (input.1.read 0) = false
  | .deliverResponse x n =>
    ∀ response ∈ (p.responses x)[n]?, response.tooOld (input.1.read 0) = false
  | _ => True

instance (p : Pair) (input : Clock × PairInput) : Decidable (Timely p input) :=
  match input with
  | (_, .initiate _ _) => instDecidableTrue
  | (clock, .deliverInit x n _) =>
    inferInstanceAs (Decidable ((∀ init ∈ (p.inits x)[n]?, init.tooOld (clock.read 2) = false) ∧
      ∀ entry ∈ (p.manager x).held, entry.2.hasTimedOut (clock.read 0) = false))
  | (_, .respond _) => instDecidableTrue
  | (clock, .deliverResponse x n) =>
    inferInstanceAs (Decidable (∀ response ∈ (p.responses x)[n]?,
      response.tooOld (clock.read 0) = false))

/-- No side opens while the other's init is on its way to it. -/
def NotCrossing (p : Pair) (input : Clock × PairInput) : Prop :=
  match input.2 with
  | .initiate x _ => p.inits x = []
  | _ => True

instance (p : Pair) (input : Clock × PairInput) : Decidable (NotCrossing p input) :=
  match input with
  | (_, .initiate x _) => inferInstanceAs (Decidable (p.inits x = []))
  | (_, .deliverInit _ _ _) => instDecidableTrue
  | (_, .respond _) => instDecidableTrue
  | (_, .deliverResponse _ _) => instDecidableTrue

/-! ## Managers with at most one session -/

/-- A manager whose only session is `s`. -/
def single (own : NodeID) (s : Session) : SessionManager :=
  { localNodeId := own, objects := [s], sessions := [0] }

@[simp] theorem held_single (own : NodeID) (s : Session) : (single own s).held = [(0, s)] := rfl

@[simp] theorem held_none (own : NodeID) : ({ localNodeId := own } : SessionManager).held = [] :=
  rfl

@[simp] theorem getSession_none (own peer : NodeID) :
    ({ localNodeId := own } : SessionManager).getSession peer = none := rfl

theorem getSession_single {own peer : NodeID} {s : Session} (h : s.remoteNodeId = peer) :
    (single own s).getSession peer = some (0, s) := by
  simp [SessionManager.getSession, h]

@[simp] theorem withSession_single (own : NodeID) (s : Session) (call : Session → Session × Bool) :
    (single own s).withSession 0 call =
      (single own (call s).1, if (call s).2 then some (call s).1 else none) := rfl

theorem createOutboundSession_single {own peer : NodeID} {s : Session} (h : s.remoteNodeId = peer)
    (now : Time) : (single own s).createOutboundSession now peer = (single own s, 0) := by
  simp [SessionManager.createOutboundSession, getSession_single h]

@[simp] theorem createOutboundSession_none (own peer : NodeID) (now : Time) :
    ({ localNodeId := own } : SessionManager).createOutboundSession now peer =
      (single own (Session.create own peer now), 0) := rfl

/-- A live session for the sender makes the manager ignore an init. -/
theorem handleInboundHandshake_single {own : NodeID} {s : Session} {init : HandshakeMessage}
    {clock : Clock} (hremote : s.remoteNodeId = init.nodeId) (hstate : s.state ≠ .closed)
    (hlive : s.hasTimedOut (clock.read 0) = false) (secret : SecretKey) :
    ((single own s).handleInboundHandshake c clock secret init).1 = single own s := by
  simp [SessionManager.handleInboundHandshake, getSession_single hremote, hstate, hlive]

/-! ## Sessions on the way -/

/-- A session that has accepted an init made with `a`, with its own secret `b`. -/
structure Answering (c : SessionCrypto) (t : Session) (a b : SecretKey) : Prop where
  state : t.state = .handshakeResponse
  isInitiator : t.isInitiator = false
  remoteEphemeral : t.remoteEphemeral = c.derivePublic a
  localEphemeral : t.localEphemeral = (c.derivePublic b, b)

/-- A session that waits for the response to an init made with `a`. -/
structure Waiting (s : Session) (a : SecretKey) : Prop where
  state : s.state = .handshakeInit
  isInitiator : s.isInitiator = true
  secret : s.localEphemeral.2 = a

/-- A message with a matching digest around the key of `a`. -/
structure Carries (c : SessionCrypto) (m : HandshakeMessage) (a : SecretKey) : Prop where
  key : m.ephemeralPublic = c.derivePublic a
  intact : m.verifySignature c.hash = true

theorem make_carries (own : NodeID) (now : Time) (a : SecretKey) :
    Carries c (HandshakeMessage.make c.hash now (c.derivePublic a) own) a :=
  ⟨rfl, HandshakeMessage.make_verifySignature ..⟩

/-- A call on a new session opens it. -/
theorem initiateHandshake_create (own peer : NodeID) (created now : Time) (a : SecretKey) :
    ∃ s, (Session.create own peer created).initiateHandshake c now a = (s, true) ∧
      Waiting s a ∧ s.remoteNodeId = peer ∧
      s.lastHandshake = HandshakeMessage.make c.hash now (c.derivePublic a) own :=
  ⟨_, rfl, ⟨rfl, rfl, rfl⟩, rfl, rfl⟩

/-- A manager without a session accepts a fresh init. -/
theorem handleInboundHandshake_none {init : HandshakeMessage} {a : SecretKey} {clock : Clock}
    (own : NodeID) (h : Carries c init a) (hfresh : init.tooOld (clock.read 2) = false)
    (b : SecretKey) :
    ∃ t, (({ localNodeId := own } : SessionManager).handleInboundHandshake c clock b init).1 =
        single own t ∧
      Answering c t a b ∧ t.remoteNodeId = init.nodeId := by
  refine ⟨{ Session.create own init.nodeId (clock.read 1) with
    remoteEphemeral := init.ephemeralPublic
    localEphemeral := (c.derivePublic b, b)
    state := .handshakeResponse }, ?_, ⟨rfl, rfl, h.key, rfl⟩, rfl⟩
  simp [SessionManager.handleInboundHandshake, SessionManager.acceptInbound, Session.create,
    Session.handleHandshakeInit, hfresh, h.intact, SessionManager.add, single]

/-- The answer leaves the responder established. -/
theorem sendHandshakeResponse_answering {t : Session} {a b : SecretKey} {k : SessionKey}
    (h : Answering c t a b) (hk : c.exchange b (c.derivePublic a) = some k) (clock : Clock) :
    ∃ t', t.sendHandshakeResponse c clock = (t', true) ∧ t'.remoteNodeId = t.remoteNodeId ∧
      t'.state = .established ∧ t'.keys.txKey = Session.responderKey c k ∧
      t'.keys.rxKey = Session.initiatorKey c k ∧ Carries c t'.lastHandshake b := by
  have hcall : t.sendHandshakeResponse c clock =
      ({ t.opened c (clock.read 0) (clock.read 1) k with
          lastHandshake := HandshakeMessage.make c.hash (clock.read 0) t.localEphemeral.1
            t.localNodeId }, true) := by
    simp [Session.sendHandshakeResponse, h.state, h.localEphemeral, h.remoteEphemeral, hk,
      Session.opened]
  have hkeys := Session.opened_keys_of_responder (c := c) h.isInitiator (clock.read 0)
    (clock.read 1) k
  refine ⟨_, hcall, rfl, rfl, hkeys.1, hkeys.2, ?_⟩
  rw [h.localEphemeral]
  exact make_carries ..

/-- The answer, once handled, leaves the initiator established. -/
theorem handleHandshakeResponse_waiting {s : Session} {a b : SecretKey} {k : SessionKey}
    {response : HandshakeMessage} {clock : Clock} (h : Waiting s a)
    (hcarries : Carries c response b)
    (hfresh : response.tooOld (clock.read 0) = false)
    (hk : c.exchange a (c.derivePublic b) = some k) :
    ∃ s', s.handleHandshakeResponse c clock response = (s', true) ∧
      s'.remoteNodeId = s.remoteNodeId ∧ s'.state = .established ∧
      s'.keys.txKey = Session.initiatorKey c k ∧ s'.keys.rxKey = Session.responderKey c k := by
  have hcall : s.handleHandshakeResponse c clock response =
      ({ s with remoteEphemeral := response.ephemeralPublic }.opened c (clock.read 0)
        (clock.read 1) k, true) := by
    simp [Session.handleHandshakeResponse, h.state, hfresh, hcarries.intact, h.secret,
      hcarries.key, hk, Session.opened]
  have hkeys := Session.opened_keys_of_initiator (c := c)
    (s := { s with remoteEphemeral := response.ephemeralPublic }) h.isInitiator (clock.read 0)
    (clock.read 1) k
  exact ⟨_, hcall, rfl, rfl, hkeys⟩

/-! ## Phases -/

/-- How far the pair is; `x` is the side whose init is being answered. -/
inductive Stage where
  | idle
  | calling (x : Side)
  | answering (x : Side)
  | answered (x : Side)
  | agreed
  | crossed
  deriving DecidableEq

/-- The stage after an input, on timely messages. -/
def Stage.next : Stage → PairInput → Stage
  | .idle, .initiate x _ => .calling x
  | .calling x, .initiate y _ => if y = x then .calling x else .crossed
  | .calling x, .deliverInit y n _ => if y = x.other ∧ n = 0 then .answering x else .calling x
  | .answering x, .respond y => if y = x.other then .answered x else .answering x
  | .answered x, .deliverResponse y n => if y = x ∧ n = 0 then .agreed else .answered x
  | stage, _ => stage

/-- What a pair at a stage looks like. -/
inductive Phase (c : SessionCrypto) (node : Side → NodeID) (p : Pair) : Stage → Prop
  | idle (hmanager : ∀ x, p.manager x = { localNodeId := node x })
      (hinits : ∀ x, p.inits x = []) (hresponses : ∀ x, p.responses x = []) :
      Phase c node p .idle
  | calling {x : Side} {s : Session} {a : SecretKey} {init : HandshakeMessage}
      (hcaller : p.manager x = single (node x) s) (hremote : s.remoteNodeId = node x.other)
      (hwaiting : Waiting s a) (hcallee : p.manager x.other = { localNodeId := node x.other })
      (hsent : p.inits x.other = [init]) (hcarries : Carries c init a)
      (hsender : init.nodeId = node x) (hinits : p.inits x = [])
      (hresponses : ∀ y, p.responses y = []) : Phase c node p (.calling x)
  | answering {x : Side} {s t : Session} {a b : SecretKey}
      (hcaller : p.manager x = single (node x) s) (hremote : s.remoteNodeId = node x.other)
      (hwaiting : Waiting s a) (hcallee : p.manager x.other = single (node x.other) t)
      (hback : t.remoteNodeId = node x) (hanswering : Answering c t a b)
      (hinits : ∀ y, p.inits y = []) (hresponses : ∀ y, p.responses y = []) :
      Phase c node p (.answering x)
  | answered {x : Side} {s t : Session} {a b : SecretKey} {k : SessionKey}
      {response : HandshakeMessage}
      (hcaller : p.manager x = single (node x) s) (hremote : s.remoteNodeId = node x.other)
      (hwaiting : Waiting s a) (hcallee : p.manager x.other = single (node x.other) t)
      (hback : t.remoteNodeId = node x) (hopen : t.state = .established)
      (htx : t.keys.txKey = Session.responderKey c k)
      (hrx : t.keys.rxKey = Session.initiatorKey c k)
      (hk : c.exchange a (c.derivePublic b) = some k)
      (hsent : p.responses x = [response]) (hcarries : Carries c response b)
      (hresponses : p.responses x.other = []) (hinits : ∀ y, p.inits y = []) :
      Phase c node p (.answered x)
  | agreed {session : Side → Session}
      (hmanager : ∀ x, p.manager x = single (node x) (session x))
      (hremote : ∀ x, (session x).remoteNodeId = node x.other)
      (hopen : ∀ x, (session x).state = .established)
      (hkeys : ∀ x, (session x).keys.txKey = (session x.other).keys.rxKey)
      (hinits : ∀ x, p.inits x = []) (hresponses : ∀ x, p.responses x = []) :
      Phase c node p .agreed
  | crossed {session : Side → Session}
      (hmanager : ∀ x, p.manager x = single (node x) (session x))
      (hremote : ∀ x, (session x).remoteNodeId = node x.other)
      (hwaiting : ∀ x, (session x).state = .handshakeInit)
      (hsenders : ∀ x, ∀ init ∈ p.inits x, init.nodeId = node x.other)
      (hresponses : ∀ x, p.responses x = []) : Phase c node p .crossed

/-! ## Steps that change nothing -/

section Refused

variable {p : Pair} {x : Side} {own : NodeID} {s : Session}

theorem setManager_self (hm : p.manager x = single own s) : p.setManager x (single own s) = p := by
  simp [Pair.setManager, ← hm]

theorem initiate_refused (hm : p.manager x = single own s)
    (hremote : s.remoteNodeId = p.node x.other) (hstate : s.state ≠ .disconnected)
    (clock : Clock) (secret : SecretKey) : p.initiate c clock x secret = p := by
  simp [Pair.initiate, hm, createOutboundSession_single hremote, Session.initiateHandshake, hstate,
    setManager_self hm]

theorem respond_refused (hm : p.manager x = single own s)
    (hremote : s.remoteNodeId = p.node x.other) (hstate : s.state ≠ .handshakeResponse)
    (clock : Clock) : p.respond c clock x = p := by
  simp [Pair.respond, hm, getSession_single hremote, Session.sendHandshakeResponse, hstate,
    setManager_self hm]

theorem respond_none (hm : p.manager x = { localNodeId := own }) (clock : Clock) :
    p.respond c clock x = p := by
  simp [Pair.respond, hm]

theorem deliverInit_nothing {n : Nat} (h : (p.inits x)[n]? = none) (clock : Clock)
    (secret : SecretKey) : p.deliverInit c clock x n secret = p := by
  simp only [Pair.deliverInit, h]

theorem deliverResponse_nothing {n : Nat} (h : (p.responses x)[n]? = none) (clock : Clock) :
    p.deliverResponse c clock x n = p := by
  simp only [Pair.deliverResponse, h]

end Refused

/-! ## Steps from one phase to the next -/

section Steps

variable {node : Side → NodeID} {p : Pair} {x : Side}

theorem Phase.node_eq {stage : Stage} (h : Phase c node p stage) (y : Side) :
    p.node y = node y := by
  unfold Pair.node
  cases h with
  | idle hmanager _ _ => rw [hmanager]
  | agreed hmanager _ _ _ _ _ => rw [hmanager]; rfl
  | crossed hmanager _ _ _ _ => rw [hmanager]; rfl
  | @calling x _ _ _ hcaller _ _ hcallee =>
    rcases Side.eq_or_other x y with rfl | rfl
    · rw [hcaller]; rfl
    · rw [hcallee]
  | @answering x _ _ _ _ hcaller _ _ hcallee =>
    rcases Side.eq_or_other x y with rfl | rfl
    · rw [hcaller]; rfl
    · rw [hcallee]; rfl
  | @answered x _ _ _ _ _ _ hcaller _ _ hcallee =>
    rcases Side.eq_or_other x y with rfl | rfl
    · rw [hcaller]; rfl
    · rw [hcallee]; rfl

/-- A side that opens without a session calls. -/
theorem initiate_of_none (hnode : ∀ y, p.node y = node y)
    (hm : p.manager x = { localNodeId := node x }) (clock : Clock) (a : SecretKey) :
    ∃ s init, p.initiate c clock x a =
        { p.setManager x (single (node x) s) with
          inits := Function.update p.inits x.other (p.inits x.other ++ [init]) } ∧
      Waiting s a ∧ s.remoteNodeId = node x.other ∧ Carries c init a ∧ init.nodeId = node x := by
  obtain ⟨s, hcall, hwaiting, hremote, hlast⟩ := initiateHandshake_create (c := c) (node x)
    (node x.other) (clock.read 0) (clock.read 1) a
  refine ⟨s, s.lastHandshake, ?_, hwaiting, hremote, ?_, ?_⟩
  · simp [Pair.initiate, hm, hnode, hcall]
  · rw [hlast]
    exact make_carries ..
  · rw [hlast]
    rfl

theorem Phase.initiate_idle (h : Phase c node p .idle) (clock : Clock) (a : SecretKey) :
    Phase c node (p.initiate c clock x a) (.calling x) := by
  have hnode := h.node_eq
  cases h with
  | idle hmanager hinits hresponses =>
  obtain ⟨s, init, hstep, hwaiting, hremote, hcarries, hsender⟩ :=
    initiate_of_none (c := c) hnode (hmanager x) clock a
  rw [hstep]
  refine .calling (s := s) (a := a) ?_ hremote hwaiting ?_ ?_ hcarries hsender
    ?_ hresponses
  · simp [Pair.setManager]
  · simp [Pair.setManager, hmanager]
  · simp [hinits]
  · simp [hinits]

/-- The inits cross. -/
theorem Phase.initiate_calling (h : Phase c node p (.calling x)) (clock : Clock) (b : SecretKey) :
    Phase c node (p.initiate c clock x.other b) .crossed := by
  have hnode := h.node_eq
  cases h with
  | @calling _ s a init hcaller hremote hwaiting hcallee hsent _ hsender hinits hresponses =>
  obtain ⟨t, back, hstep, hwaiting', hremote', _, hsender'⟩ :=
    initiate_of_none (c := c) hnode hcallee clock b
  rw [hstep]
  have hmanagers : ∀ y, (p.setManager x.other (single (node x.other) t)).manager y =
      single (node y) (Function.update (fun _ => s) x.other t y) := by
    refine (Side.forall_iff x).mpr ⟨?_, ?_⟩
    · simp [Pair.setManager, hcaller]
    · simp [Pair.setManager]
  refine .crossed hmanagers ?_ ?_ ?_ hresponses
  · refine (Side.forall_iff x).mpr ⟨?_, ?_⟩
    · simpa using hremote
    · simpa using hremote'
  · refine (Side.forall_iff x).mpr ⟨?_, ?_⟩
    · simpa using hwaiting.state
    · simpa using hwaiting'.state
  · intro y m hm
    rcases Side.eq_or_other x y with rfl | rfl
    · simp [hinits] at hm
      rw [hm, hsender']
    · simp [hsent] at hm
      rw [hm, hsender, Side.other_other]

theorem Phase.deliverInit_calling (h : Phase c node p (.calling x)) {clock : Clock} {b : SecretKey}
    (htimely : Timely p (clock, .deliverInit x.other 0 b)) :
    Phase c node (p.deliverInit c clock x.other 0 b) (.answering x) := by
  cases h with
  | @calling _ s a init hcaller hremote hwaiting hcallee hsent hcarries hsender hinits hresponses =>
  have hfresh : init.tooOld (clock.read 2) = false := htimely.1 init (by simp [hsent])
  obtain ⟨t, ht, hanswering, hback⟩ :=
    handleInboundHandshake_none (c := c) (node x.other) hcarries hfresh b
  have hstep : p.deliverInit c clock x.other 0 b =
      { p.setManager x.other (single (node x.other) t) with
        inits := Function.update p.inits x.other [] } := by
    simp [Pair.deliverInit, hsent, hcallee, ht]
  rw [hstep]
  refine .answering (s := s) (t := t) (a := a) (b := b) ?_ hremote hwaiting ?_ ?_ hanswering ?_
    hresponses
  · simp [Pair.setManager, hcaller]
  · simp [Pair.setManager]
  · rw [hback, hsender]
  · refine (Side.forall_iff x).mpr ⟨?_, ?_⟩
    · simp [hinits]
    · simp

theorem Phase.respond_answering (hc : c.Lawful)
    (hexchange : ∀ a b, (c.exchange a (c.derivePublic b)).isSome = true)
    (h : Phase c node p (.answering x)) (clock : Clock) :
    Phase c node (p.respond c clock x.other) (.answered x) := by
  have hnode := h.node_eq
  cases h with
  | @answering _ s t a b hcaller hremote hwaiting hcallee hback hanswering hinits hresponses =>
  obtain ⟨k, hk⟩ := Option.isSome_iff_exists.mp (hexchange a b)
  have hk' : c.exchange b (c.derivePublic a) = some k := by rw [← hc.exchange_comm, hk]
  obtain ⟨t', hcall, hremote', hopen, htx, hrx, hcarries⟩ :=
    sendHandshakeResponse_answering hanswering hk' clock
  have hto : t.remoteNodeId = p.node x := by rw [hback, hnode]
  have hstep : p.respond c clock x.other =
      { p.setManager x.other (single (node x.other) t') with
        responses := Function.update p.responses x [t'.lastHandshake] } := by
    simp [Pair.respond, hcallee, getSession_single hto, hcall, hresponses]
  rw [hstep]
  refine .answered (s := s) (t := t') (a := a) (b := b) (k := k) ?_ hremote hwaiting ?_ ?_ hopen
    htx hrx hk ?_ hcarries ?_ hinits
  · simp [Pair.setManager, hcaller]
  · simp [Pair.setManager]
  · rw [hremote', hback]
  · simp
  · simp [hresponses]

theorem Phase.deliverResponse_answered (h : Phase c node p (.answered x)) {clock : Clock}
    (htimely : Timely p (clock, .deliverResponse x 0)) :
    Phase c node (p.deliverResponse c clock x 0) .agreed := by
  have hnode := h.node_eq
  cases h with
  | @answered _ s t a b k response hcaller hremote hwaiting hcallee hback hopen htx hrx hk hsent
      hcarries hresponses hinits =>
  have hfresh : response.tooOld (clock.read 0) = false := htimely response (by simp [hsent])
  obtain ⟨s', hcall, hremote', hopen', htx', hrx'⟩ :=
    handleHandshakeResponse_waiting hwaiting hcarries hfresh hk
  have hto : s.remoteNodeId = p.node x.other := by rw [hremote, hnode]
  have hstep : p.deliverResponse c clock x 0 =
      { p.setManager x (single (node x) s') with
        responses := Function.update p.responses x [] } := by
    simp [Pair.deliverResponse, hsent, hcaller, getSession_single hto, hcall]
  rw [hstep]
  -- one side's session opens with the keys the other side has already
  have hmanagers : ∀ y, (p.setManager x (single (node x) s')).manager y =
      single (node y) (Function.update (fun _ => t) x s' y) := by
    refine (Side.forall_iff x).mpr ⟨?_, ?_⟩
    · simp [Pair.setManager]
    · simp [Pair.setManager, hcallee]
  refine .agreed hmanagers ?_ ?_ ?_ hinits ?_
  · refine (Side.forall_iff x).mpr ⟨?_, ?_⟩
    · simp [hremote', hremote]
    · simp [hback]
  · refine (Side.forall_iff x).mpr ⟨?_, ?_⟩
    · simp [hopen']
    · simp [hopen]
  · refine (Side.forall_iff x).mpr ⟨?_, ?_⟩
    · simp [htx', hrx]
    · simp [htx, hrx']
  · refine (Side.forall_iff x).mpr ⟨?_, ?_⟩
    · simp
    · simp [hresponses]

/-- A waiting side ignores the other's init. -/
theorem Phase.deliverInit_crossed (h : Phase c node p .crossed) {clock : Clock} {n : Nat}
    {b : SecretKey} (htimely : Timely p (clock, .deliverInit x n b)) :
    Phase c node (p.deliverInit c clock x n b) .crossed := by
  cases h with
  | @crossed session hmanager hremote hwaiting hsenders hresponses =>
  cases hinit : (p.inits x)[n]? with
  | none =>
    rw [deliverInit_nothing hinit]
    exact .crossed hmanager hremote hwaiting hsenders hresponses
  | some init =>
    have hmem : init ∈ p.inits x := List.mem_of_getElem? hinit
    have hlive : (session x).hasTimedOut (clock.read 0) = false :=
      htimely.2 (0, session x) (by simp [hmanager])
    have hignored : ((p.manager x).handleInboundHandshake c clock b init).1 =
        single (node x) (session x) := by
      rw [hmanager]
      refine handleInboundHandshake_single ?_ ?_ hlive b
      · rw [hremote, hsenders x init hmem]
      · simp [hwaiting]
    have hstep : p.deliverInit c clock x n b =
        { p with inits := Function.update p.inits x ((p.inits x).eraseIdx n) } := by
      simp only [Pair.deliverInit, hinit, hignored, setManager_self (hmanager x)]
    rw [hstep]
    refine .crossed hmanager hremote hwaiting ?_ hresponses
    intro y m hm
    rcases Side.eq_or_other x y with rfl | rfl
    · simp at hm
      exact hsenders y m (List.mem_of_mem_eraseIdx hm)
    · simp at hm
      exact hsenders _ m hm

theorem getElem?_singleton {α : Type} {m : α} {n : Nat} (h : n ≠ 0) : [m][n]? = none := by
  simp; omega

/-- A side that holds a session which is not new does not open again. -/
theorem initiate_held {stage : Stage} (h : Phase c node p stage) {s : Session}
    (hm : p.manager x = single (node x) s) (hremote : s.remoteNodeId = node x.other)
    (hstate : s.state ≠ .disconnected) (clock : Clock) (secret : SecretKey) :
    Phase c node (p.initiate c clock x secret) stage := by
  rw [initiate_refused hm (hremote.trans (h.node_eq _).symm) hstate]
  exact h

theorem respond_held {stage : Stage} (h : Phase c node p stage) {s : Session}
    (hm : p.manager x = single (node x) s) (hremote : s.remoteNodeId = node x.other)
    (hstate : s.state ≠ .handshakeResponse) (clock : Clock) :
    Phase c node (p.respond c clock x) stage := by
  rw [respond_refused hm (hremote.trans (h.node_eq _).symm) hstate]
  exact h

theorem deliverInit_absent {stage : Stage} (h : Phase c node p stage) {n : Nat}
    (hnone : (p.inits x)[n]? = none) (clock : Clock) (secret : SecretKey) :
    Phase c node (p.deliverInit c clock x n secret) stage := by
  rw [deliverInit_nothing hnone]
  exact h

theorem deliverResponse_absent {stage : Stage} (h : Phase c node p stage) {n : Nat}
    (hnone : (p.responses x)[n]? = none) (clock : Clock) :
    Phase c node (p.deliverResponse c clock x n) stage := by
  rw [deliverResponse_nothing hnone]
  exact h

theorem Phase.initiate {stage : Stage} (h : Phase c node p stage) (clock : Clock)
    (secret : SecretKey) :
    Phase c node (p.initiate c clock x secret) (stage.next (.initiate x secret)) := by
  have hphase := h
  cases h with
  | idle => exact hphase.initiate_idle clock secret
  | @calling caller _ _ _ hcaller hremote hwaiting =>
    rcases Side.eq_or_other caller x with rfl | rfl
    · have hnext := initiate_held hphase hcaller hremote (by simp [hwaiting.state]) clock secret
      simpa [Stage.next] using hnext
    · simpa [Stage.next] using hphase.initiate_calling clock secret
  | @answering caller _ _ _ _ hcaller hremote hwaiting hcallee hback hanswering =>
    rcases Side.eq_or_other caller x with rfl | rfl
    · exact initiate_held hphase hcaller hremote (by simp [hwaiting.state]) clock secret
    · exact initiate_held hphase hcallee (by simpa using hback) (by simp [hanswering.state]) clock
        secret
  | @answered caller _ _ _ _ _ _ hcaller hremote hwaiting hcallee hback hopen =>
    rcases Side.eq_or_other caller x with rfl | rfl
    · exact initiate_held hphase hcaller hremote (by simp [hwaiting.state]) clock secret
    · exact initiate_held hphase hcallee (by simpa using hback) (by simp [hopen]) clock secret
  | agreed hmanager hremote hopen =>
    exact initiate_held hphase (hmanager x) (hremote x) (by simp [hopen]) clock secret
  | crossed hmanager hremote hwaiting =>
    exact initiate_held hphase (hmanager x) (hremote x) (by simp [hwaiting]) clock secret

theorem Phase.deliverInit {stage : Stage} (h : Phase c node p stage) {clock : Clock} {n : Nat}
    {secret : SecretKey} (htimely : Timely p (clock, .deliverInit x n secret)) :
    Phase c node (p.deliverInit c clock x n secret) (stage.next (.deliverInit x n secret)) := by
  have hphase := h
  cases h with
  | idle _ hinits => exact deliverInit_absent hphase (by simp [hinits]) clock secret
  | @calling caller _ _ init _ _ _ _ hsent _ _ hinits =>
    rcases Side.eq_or_other caller x with rfl | rfl
    · have hnext := deliverInit_absent hphase (x := x) (n := n) (by simp [hinits]) clock secret
      simpa [Stage.next] using hnext
    · by_cases hn : n = 0
      · subst hn
        simpa [Stage.next] using hphase.deliverInit_calling htimely
      · have hnone : (p.inits caller.other)[n]? = none := by
          rw [hsent, getElem?_singleton hn]
        simpa [Stage.next, hn] using deliverInit_absent hphase hnone clock secret
  | answering _ _ _ _ _ _ hinits =>
    exact deliverInit_absent hphase (by simp [hinits]) clock secret
  | answered _ _ _ _ _ _ _ _ _ _ _ _ hinits =>
    exact deliverInit_absent hphase (by simp [hinits]) clock secret
  | agreed _ _ _ _ hinits => exact deliverInit_absent hphase (by simp [hinits]) clock secret
  | crossed => exact hphase.deliverInit_crossed htimely

theorem Phase.respond (hc : c.Lawful)
    (hexchange : ∀ a b, (c.exchange a (c.derivePublic b)).isSome = true) {stage : Stage}
    (h : Phase c node p stage) (clock : Clock) :
    Phase c node (p.respond c clock x) (stage.next (.respond x)) := by
  have hphase := h
  cases h with
  | idle hmanager =>
    rw [respond_none (hmanager x)]
    exact hphase
  | @calling caller _ _ _ hcaller hremote hwaiting hcallee =>
    rcases Side.eq_or_other caller x with rfl | rfl
    · exact respond_held hphase hcaller hremote (by simp [hwaiting.state]) clock
    · rw [respond_none hcallee]
      exact hphase
  | @answering caller _ _ _ _ hcaller hremote hwaiting =>
    rcases Side.eq_or_other caller x with rfl | rfl
    · have hnext := respond_held hphase hcaller hremote (by simp [hwaiting.state]) clock
      simpa [Stage.next] using hnext
    · simpa [Stage.next] using hphase.respond_answering hc hexchange clock
  | @answered caller _ _ _ _ _ _ hcaller hremote hwaiting hcallee hback hopen =>
    rcases Side.eq_or_other caller x with rfl | rfl
    · exact respond_held hphase hcaller hremote (by simp [hwaiting.state]) clock
    · exact respond_held hphase hcallee (by simpa using hback) (by simp [hopen]) clock
  | agreed hmanager hremote hopen =>
    exact respond_held hphase (hmanager x) (hremote x) (by simp [hopen]) clock
  | crossed hmanager hremote hwaiting =>
    exact respond_held hphase (hmanager x) (hremote x) (by simp [hwaiting]) clock

theorem Phase.deliverResponse {stage : Stage} (h : Phase c node p stage) {clock : Clock} {n : Nat}
    (htimely : Timely p (clock, .deliverResponse x n)) :
    Phase c node (p.deliverResponse c clock x n) (stage.next (.deliverResponse x n)) := by
  have hphase := h
  cases h with
  | idle _ _ hresponses => exact deliverResponse_absent hphase (by simp [hresponses]) clock
  | calling _ _ _ _ _ _ _ _ hresponses =>
    exact deliverResponse_absent hphase (by simp [hresponses]) clock
  | answering _ _ _ _ _ _ _ hresponses =>
    exact deliverResponse_absent hphase (by simp [hresponses]) clock
  | @answered caller _ _ _ _ _ _ _ _ _ _ _ _ _ _ _ hsent _ hresponses =>
    rcases Side.eq_or_other caller x with rfl | rfl
    · by_cases hn : n = 0
      · subst hn
        simpa [Stage.next] using hphase.deliverResponse_answered htimely
      · have hnone : (p.responses x)[n]? = none := by rw [hsent, getElem?_singleton hn]
        simpa [Stage.next, hn] using deliverResponse_absent hphase hnone clock
    · have hnext := deliverResponse_absent hphase (x := caller.other) (n := n)
        (by simp [hresponses]) clock
      simpa [Stage.next] using hnext
  | agreed _ _ _ _ _ hresponses => exact deliverResponse_absent hphase (by simp [hresponses]) clock
  | crossed _ _ _ _ hresponses => exact deliverResponse_absent hphase (by simp [hresponses]) clock

/-- The pair refines its stages. -/
theorem Phase.step (hc : c.Lawful)
    (hexchange : ∀ a b, (c.exchange a (c.derivePublic b)).isSome = true) {stage : Stage}
    (h : Phase c node p stage) {input : Clock × PairInput} (htimely : Timely p input) :
    Phase c node ((pairMachine c).step p input).1 (stage.next input.2) := by
  obtain ⟨clock, input⟩ := input
  cases input with
  | initiate x secret => exact h.initiate clock secret
  | deliverInit x n secret => exact h.deliverInit htimely
  | respond x => exact h.respond hc hexchange clock
  | deliverResponse x n => exact h.deliverResponse htimely

/-! ## What a stage shows -/

theorem fresh_phase (node : Side → NodeID) : Phase c node (Pair.fresh node) .idle :=
  .idle (fun _ => rfl) (fun _ => rfl) fun _ => rfl

theorem Phase.stuck_iff {stage : Stage} (h : Phase c node p stage) :
    Stuck p ↔ stage = .crossed := by
  constructor
  · intro hstuck
    cases h with
    | idle hmanager =>
      obtain ⟨s, hs, _⟩ := hstuck .left
      simp [hmanager] at hs
    | @calling x _ _ _ _ _ _ hcallee =>
      obtain ⟨s, hs, _⟩ := hstuck x.other
      simp [hcallee] at hs
    | @answering x _ _ _ _ _ _ _ hcallee _ hanswering =>
      obtain ⟨s, hs, hstate⟩ := hstuck x.other
      simp [hcallee] at hs
      rw [← hs, hanswering.state] at hstate
      cases hstate
    | @answered x _ _ _ _ _ _ _ _ _ hcallee _ hopen =>
      obtain ⟨s, hs, hstate⟩ := hstuck x.other
      simp [hcallee] at hs
      rw [← hs, hopen] at hstate
      cases hstate
    | agreed hmanager _ hopen =>
      obtain ⟨s, hs, hstate⟩ := hstuck .left
      simp [hmanager] at hs
      rw [← hs, hopen] at hstate
      cases hstate
    | crossed => rfl
  · rintro rfl
    cases h with
    | @crossed session hmanager _ hwaiting =>
      exact fun x => ⟨session x, by simp [hmanager], hwaiting x⟩

/-- No side has opened yet. -/
def Unopened (p : Pair) : Prop := ∀ x, (p.manager x).held = []

theorem Phase.unopened_iff {stage : Stage} (h : Phase c node p stage) :
    Unopened p ↔ stage = .idle := by
  constructor
  · intro hnone
    cases h with
    | idle => rfl
    | @calling x _ _ _ hcaller => simpa [hcaller] using hnone x
    | @answering x _ _ _ _ hcaller => simpa [hcaller] using hnone x
    | @answered x _ _ _ _ _ _ hcaller => simpa [hcaller] using hnone x
    | agreed hmanager => simpa [hmanager] using hnone .left
    | crossed hmanager => simpa [hmanager] using hnone .left
  · rintro rfl
    cases h with
    | idle hmanager =>
      intro x
      simp [hmanager]

theorem Phase.next_crossed_iff {stage : Stage} (h : Phase c node p stage)
    (input : Clock × PairInput) :
    stage.next input.2 = .crossed ↔ stage = .crossed ∨ ¬ NotCrossing p input := by
  obtain ⟨clock, input⟩ := input
  cases input with
  | initiate y secret =>
    cases h with
    | @calling x _ _ _ _ _ _ _ hsent _ _ hinits =>
      rcases Side.eq_or_other x y with rfl | rfl
      · simp [Stage.next, NotCrossing, hinits]
      · simp [Stage.next, NotCrossing, hsent]
    | crossed => simp [Stage.next]
    | idle _ hinits => simp [Stage.next, NotCrossing, hinits]
    | answering _ _ _ _ _ _ hinits => simp [Stage.next, NotCrossing, hinits]
    | answered _ _ _ _ _ _ _ _ _ _ _ _ hinits => simp [Stage.next, NotCrossing, hinits]
    | agreed _ _ _ _ hinits => simp [Stage.next, NotCrossing, hinits]
  | deliverInit y n secret =>
    cases stage <;> simp [Stage.next, NotCrossing]
    split <;> simp
  | respond y =>
    cases stage <;> simp [Stage.next, NotCrossing]
    split <;> simp
  | deliverResponse y n =>
    cases stage <;> simp [Stage.next, NotCrossing]
    split <;> simp

/-- The calls that open. -/
def PairInput.opens : PairInput → Prop
  | .initiate _ _ => True
  | _ => False

theorem next_idle_iff (stage : Stage) (input : PairInput) :
    stage.next input = .idle ↔ stage = .idle ∧ ¬ input.opens := by
  cases input <;> cases stage <;> simp [Stage.next, PairInput.opens] <;> split <;> simp

/-- Once nothing is left to do, an opened pair has agreed unless it is stuck. -/
theorem Phase.agreed_iff {stage : Stage} (h : Phase c node p stage) (hquiet : Quiescent p)
    (hopened : stage ≠ .idle) : Agreed p ↔ stage ≠ .crossed := by
  have hnode := h.node_eq
  cases h with
  | idle => exact absurd rfl hopened
  | @calling x _ _ _ _ _ _ _ hsent => simp [hquiet.inits] at hsent
  | @answering x _ t _ _ _ _ _ hcallee _ hanswering =>
    exact absurd hanswering.state (hquiet.answered x.other (0, t) (by simp [hcallee]))
  | @answered x _ _ _ _ _ _ _ _ _ _ _ _ _ _ _ hsent => simp [hquiet.responses] at hsent
  | @agreed session hmanager hremote hopen hkeys =>
    refine iff_of_true ?_ (by simp)
    refine ⟨0, session .left, 0, session .right, ?_, ?_, hopen _, hopen _, hkeys .left,
      (hkeys .right).symm⟩
    · rw [hmanager, hnode]
      exact getSession_single (hremote .left)
    · rw [hmanager, hnode]
      exact getSession_single (hremote .right)
  | @crossed session hmanager hremote hwaiting =>
    refine iff_of_false ?_ (by simp)
    rintro ⟨_, sL, _, _, hL, _, hopen, _⟩
    have hto : (session .left).remoteNodeId = node .right := hremote .left
    rw [hmanager, hnode, getSession_single hto] at hL
    cases hL
    cases (hwaiting .left).symm.trans hopen

end Steps

/-! ## Runs -/

section Runs

variable {node : Side → NodeID}

/-- The pair is at some stage. -/
def Staged (c : SessionCrypto) (node : Side → NodeID) (p : Pair) : Prop :=
  ∃ stage, Phase c node p stage

variable (hc : c.Lawful) (hexchange : ∀ a b, (c.exchange a (c.derivePublic b)).isSome = true)

include hc hexchange

theorem step_staged (p : Pair) (input : Clock × PairInput) (h : Staged c node p)
    (htimely : Timely p input) :
    Staged c node ((pairMachine c).step p input).1 := by
  obtain ⟨stage, h⟩ := h
  exact ⟨_, h.step hc hexchange htimely⟩

theorem step_stuck_iff (p : Pair) (input : Clock × PairInput) (h : Staged c node p)
    (htimely : Timely p input) :
    Stuck ((pairMachine c).step p input).1 ↔ Stuck p ∨ ¬ NotCrossing p input := by
  obtain ⟨stage, h⟩ := h
  rw [(h.step hc hexchange htimely).stuck_iff, h.stuck_iff, h.next_crossed_iff input]

theorem step_opened_iff (p : Pair) (input : Clock × PairInput) (h : Staged c node p)
    (htimely : Timely p input) :
    ¬ Unopened ((pairMachine c).step p input).1 ↔ ¬ Unopened p ∨ ¬ ¬ input.2.opens := by
  obtain ⟨stage, h⟩ := h
  rw [(h.step hc hexchange htimely).unopened_iff, h.unopened_iff, next_idle_iff, not_and_or]

end Runs

/-- **Simultaneous open.** Two fresh managers that both open towards each other,
on messages that are delivered in time, hold established sessions with matching
keys once nothing is left to do, exactly when no side opened while the other's
init was on its way to it. -/
theorem agreed_iff_not_crossing (hc : c.Lawful)
    (hexchange : ∀ a b, (c.exchange a (c.derivePublic b)).isSome = true) (node : Side → NodeID)
    (inputs : List (Clock × PairInput))
    (htimely : (pairMachine c).StepsMeet Timely (Pair.fresh node) inputs)
    (hopen : ∀ x, ∃ clock secret, (clock, .initiate x secret) ∈ inputs)
    (hquiet : Quiescent ((pairMachine c).run (Pair.fresh node) inputs).1) :
    Agreed ((pairMachine c).run (Pair.fresh node) inputs).1 ↔
      (pairMachine c).StepsMeet NotCrossing (Pair.fresh node) inputs := by
  have hstart : Staged c node (Pair.fresh node) := ⟨_, fresh_phase node⟩
  obtain ⟨stage, hend⟩ :=
    Machine.StepsMeet.invariant (step_staged hc hexchange) htimely hstart
  -- some side opened, so the pair did not stay idle
  have hopened := (pairMachine c).run_flag_iff (F := fun p => ¬ Unopened p)
    (C := fun _ input => ¬ input.2.opens) (step_staged hc hexchange) (step_opened_iff hc hexchange)
    hstart htimely
  have hnotIdle : stage ≠ .idle := by
    rw [Ne, ← hend.unopened_iff, hopened, Machine.stepsMeet_inputs]
    obtain ⟨clock, secret, hmem⟩ := hopen .left
    exact .inr fun hnone => hnone _ hmem trivial
  -- and it got stuck exactly when a step crossed
  have hstuck := (pairMachine c).run_flag_iff (step_staged hc hexchange)
    (step_stuck_iff hc hexchange) hstart htimely
  have hfresh : ¬ Stuck (Pair.fresh node) := by
    rw [(fresh_phase (c := c) node).stuck_iff]
    simp
  rw [hend.agreed_iff hquiet hnotIdle, Ne, ← hend.stuck_iff, hstuck]
  simp [hfresh]

/-- Nodes 1 and 2. -/
def sampleNodes : Side → NodeID
  | .left => sampleNode 1
  | .right => sampleNode 2

/-- The right side opens after it has answered the left. -/
def inTurn : List (Clock × PairInput) :=
  [.initiate .left (sampleSecret 6), .deliverInit .right 0 (sampleSecret 15), .respond .right,
    .initiate .right (sampleSecret 9), .deliverResponse .left 0].map
    fun input => (.still sampleTime, input)

theorem inTurn_agreed :
    Agreed ((pairMachine sampleCrypto).run (Pair.fresh sampleNodes) inTurn).1 := by
  refine (agreed_iff_not_crossing sampleCrypto_lawful (fun _ _ => rfl) sampleNodes inTurn
    (by decide +kernel) ?_ ?_).mpr ?_
  · intro x
    cases x with
    | left => exact ⟨.still sampleTime, sampleSecret 6, by simp [inTurn]⟩
    | right => exact ⟨.still sampleTime, sampleSecret 9, by simp [inTurn]⟩
  · exact ⟨by decide +kernel, by decide +kernel, by decide +kernel⟩
  · decide +kernel

/-- Both sides open before either init arrives. -/
def crossing : List (Clock × PairInput) :=
  [.initiate .left (sampleSecret 6), .initiate .right (sampleSecret 9),
    .deliverInit .right 0 (sampleSecret 15), .deliverInit .left 0 (sampleSecret 7)].map
    fun input => (.still sampleTime, input)

/-- Both inits are handled in time, nothing is left in flight, and both sides wait. -/
theorem crossing_stuck :
    (pairMachine sampleCrypto).StepsMeet Timely (Pair.fresh sampleNodes) crossing ∧
      Quiescent ((pairMachine sampleCrypto).run (Pair.fresh sampleNodes) crossing).1 ∧
      Stuck ((pairMachine sampleCrypto).run (Pair.fresh sampleNodes) crossing).1 ∧
      ¬ Agreed ((pairMachine sampleCrypto).run (Pair.fresh sampleNodes) crossing).1 := by
  have hstates : ∀ x, (((pairMachine sampleCrypto).run (Pair.fresh sampleNodes)
      crossing).1.manager x).held.map (fun entry => entry.2.state) = [.handshakeInit] := by
    decide
  refine ⟨by decide, ⟨by decide, by decide, ?_⟩, ?_, ?_⟩
  · intro x entry hentry
    have hmem := List.mem_map_of_mem (f := fun entry => entry.2.state) hentry
    rw [hstates x, List.mem_singleton] at hmem
    simp [hmem]
  · intro x
    obtain ⟨entry, hheld, hstate⟩ := List.map_eq_singleton_iff.mp (hstates x)
    exact ⟨entry.2, by simp [hheld], hstate⟩
  · rintro ⟨ref, s, _, _, hfound, _, hopen, _⟩
    have hmem := List.mem_map_of_mem (f := fun entry => entry.2.state)
      (List.mem_of_find?_eq_some hfound)
    rw [hstates .left, List.mem_singleton] at hmem
    cases hmem.symm.trans hopen

end Cashew.Theorems.SimultaneousOpen
