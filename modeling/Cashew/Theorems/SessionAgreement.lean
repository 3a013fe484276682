import Cashew.Lib.Machine
import Cashew.Logic.Session

/-!
# Agreement of two sessions

An initiator and a responder joined by a link that delivers what was sent,
unmodified, in any order and any number of times. `agreement` says that once
both are established their keys fit, and that every frame decrypts to what was
encrypted.

The invariant follows the one ephemeral secret `a` of the initiator and the one
shared secret: the initiator cannot start over once it has sent its init,
because every response it can get was made for that init, and the responder
sends at most one response.
-/

namespace Cashew.Theorems.SessionAgreement

open Cashew Cashew.Lib

/-! ## Two sessions and a link -/

inductive Side where
  | initiator
  | responder
  deriving DecidableEq

def Side.other : Side → Side
  | .initiator => .responder
  | .responder => .initiator

@[simp] theorem Side.other_other (side : Side) : side.other.other = side := by
  cases side <;> rfl

/-- An encrypted message on the link, with the plaintext it was made from. -/
structure Frame where
  sender : Side
  plaintext : Bytes
  bytes : Bytes
  deriving DecidableEq

/-- The two sessions and everything sent so far. -/
structure Link where
  initiator : Session
  responder : Session
  inits : List HandshakeMessage := []
  responses : List HandshakeMessage := []
  frames : List Frame := []

def Link.session (l : Link) : Side → Session
  | .initiator => l.initiator
  | .responder => l.responder

def Link.setSession (l : Link) (s : Session) : Side → Link
  | .initiator => { l with initiator := s }
  | .responder => { l with responder := s }

@[simp] theorem Link.session_setSession (l : Link) (s : Session) (side : Side) :
    (l.setSession s side).session side = s := by
  cases side <;> rfl

/-- What can happen on the link: the handshake calls with any ephemeral secret,
deliveries of messages already sent, encryption and decryption on either side,
and closing. -/
inductive LinkInput where
  | initiateHandshake (secret : SecretKey)
  | deliverInit (index : Nat) (secret : SecretKey)
  | sendHandshakeResponse
  | deliverResponse (index : Nat)
  | encryptMessage (side : Side) (random : FixedBytes 4) (plaintext : Bytes)
  | decryptMessage (index : Nat)
  | close (side : Side)

/-- A frame handed to the other side's `decrypt_message`: whether that side was
established, and what it returned. -/
structure Decryption where
  frame : Frame
  established : Bool
  result : Option Bytes
  deriving DecidableEq

def linkStep (c : SessionCrypto) (l : Link) (clock : Clock) :
    LinkInput → Link × List Decryption
  | .initiateHandshake secret =>
    let (s, sent) := l.initiator.initiateHandshake c (clock.read 0) secret
    ({ l with
        initiator := s
        inits := if sent then l.inits ++ [s.lastHandshake] else l.inits }, [])
  | .deliverInit index secret =>
    match l.inits[index]? with
    | none => (l, [])
    | some m =>
      ({ l with responder := (l.responder.handleHandshakeInit c (clock.read 0) secret m).1 }, [])
  | .sendHandshakeResponse =>
    let (s, sent) := l.responder.sendHandshakeResponse c clock
    ({ l with
        responder := s
        responses := if sent then l.responses ++ [s.lastHandshake] else l.responses }, [])
  | .deliverResponse index =>
    match l.responses[index]? with
    | none => (l, [])
    | some m => ({ l with initiator := (l.initiator.handleHandshakeResponse c clock m).1 }, [])
  | .encryptMessage side random plaintext =>
    let (s, frame) := (l.session side).encryptMessage c (clock.read 0) random plaintext
    let l := l.setSession s side
    match frame with
    | none => (l, [])
    | some bytes => ({ l with frames := l.frames ++ [{ sender := side, plaintext, bytes }] }, [])
  | .decryptMessage index =>
    match l.frames[index]? with
    | none => (l, [])
    | some frame =>
      let receiver := l.session frame.sender.other
      let (s, result) := receiver.decryptMessage c (clock.read 0) frame.bytes
      (l.setSession s frame.sender.other,
       [{ frame, established := receiver.state = .established, result }])
  | .close side => (l.setSession (l.session side).close side, [])

def linkMachine (c : SessionCrypto) : Machine Link (Clock × LinkInput) Decryption where
  step l input := linkStep c l input.1 input.2

/-- Two new sessions, before any message. -/
def Link.fresh (initiatorId responderId : NodeID) (created : Side → Time) : Link where
  initiator := Session.create initiatorId responderId (created .initiator)
  responder := Session.create responderId initiatorId (created .responder)

/-! ## The invariant -/

/-- The key under which a side sends. -/
def sendingKey (c : SessionCrypto) (sharedSecret : SessionKey) : Side → SessionKey
  | .initiator => Session.initiatorKey c sharedSecret
  | .responder => Session.responderKey c sharedSecret

/-- What holds of a link on which the initiator's ephemeral secret is `a` and the
shared secret is `shared`. Before the init is sent `a` is arbitrary, before the
response is sent `shared` is. -/
structure Inv (c : SessionCrypto) (l : Link) (a : SecretKey) (shared : SessionKey) : Prop where
  initsFrom : ∀ m ∈ l.inits, m.ephemeralPublic = c.derivePublic a
  noInits : l.initiator.state = .disconnected → l.inits = []
  initiatorReady : l.initiator.state = .handshakeInit →
    l.initiator.isInitiator = true ∧ l.initiator.localEphemeral.2 = a
  beforeInit : l.inits = [] →
    (l.responder.state = .disconnected ∨ l.responder.state = .closed) ∧ l.responses = []
  beforeResponse : l.responder.state = .disconnected ∨ l.responder.state = .handshakeResponse →
    l.responses = [] ∧ l.initiator.state ≠ .established ∧ l.frames = []
  responderReady : l.responder.state = .handshakeResponse →
    l.responder.isInitiator = false ∧ l.responder.remoteEphemeral = c.derivePublic a ∧
    l.responder.localEphemeral.1 = c.derivePublic l.responder.localEphemeral.2
  responsesFrom : ∀ m ∈ l.responses, ∃ b, m.ephemeralPublic = c.derivePublic b ∧
    c.exchange b (c.derivePublic a) = some shared
  keys : ∀ side, (l.session side).state = .established →
    (l.session side).keys.txKey = sendingKey c shared side ∧
    (l.session side).keys.rxKey = sendingKey c shared side.other
  framesFrom : ∀ f ∈ l.frames, ∃ nonce : Nonce,
    f.bytes = nonce.bytes ++ c.encrypt f.plaintext (sendingKey c shared f.sender) nonce

variable {c : SessionCrypto} {l : Link} {a : SecretKey} {shared : SessionKey}

theorem fresh_inv (initiatorId responderId : NodeID) (created : Side → Time) (a : SecretKey)
    (shared : SessionKey) : Inv c (Link.fresh initiatorId responderId created) a shared where
  initsFrom := fun m hm => by cases hm
  noInits := fun _ => rfl
  initiatorReady := fun h => by cases h
  beforeInit := fun _ => ⟨.inl rfl, rfl⟩
  beforeResponse := fun _ => ⟨rfl, fun h => (by cases h), rfl⟩
  responderReady := fun h => by cases h
  responsesFrom := fun m hm => by cases hm
  keys := by
    intro side h
    cases side with
    | initiator => cases h
    | responder => cases h
  framesFrom := fun f hf => by cases hf

/-- What a new session of the initiator has to bring: an init is still to come, or its
secret is the one in use, or its keys are the ones derived on the other side. -/
theorem Inv.setInitiator (h : Inv c l a shared) {s : Session}
    (hunsent : s.state = .disconnected → l.inits = [])
    (hready : s.state = .handshakeInit → s.isInitiator = true ∧ s.localEphemeral.2 = a)
    (hanswered : s.state = .established →
      ¬ (l.responder.state = .disconnected ∨ l.responder.state = .handshakeResponse))
    (hkeys : s.state = .established →
      s.keys.txKey = sendingKey c shared .initiator ∧
        s.keys.rxKey = sendingKey c shared .responder) :
    Inv c { l with initiator := s } a shared := by
  refine ⟨h.initsFrom, hunsent, hready, h.beforeInit, ?_, h.responderReady, h.responsesFrom, ?_,
    h.framesFrom⟩
  · intro hwaiting
    obtain ⟨hresponses, _, hframes⟩ := h.beforeResponse hwaiting
    exact ⟨hresponses, fun hest => hanswered hest hwaiting, hframes⟩
  · intro side hest
    cases side with
    | initiator => exact hkeys hest
    | responder => exact h.keys .responder hest

/-- What a new session of the responder has to bring: it waits only if it did, with the
initiator's public key where it is about to answer, or it has the keys. -/
theorem Inv.setResponder (h : Inv c l a shared) {s : Session}
    (hbefore : l.inits = [] → s.state = .disconnected ∨ s.state = .closed)
    (hwaiting : s.state = .disconnected ∨ s.state = .handshakeResponse →
      l.responder.state = .disconnected ∨ l.responder.state = .handshakeResponse)
    (hready : s.state = .handshakeResponse →
      s.isInitiator = false ∧ s.remoteEphemeral = c.derivePublic a ∧
        s.localEphemeral.1 = c.derivePublic s.localEphemeral.2)
    (hkeys : s.state = .established →
      s.keys.txKey = sendingKey c shared .responder ∧
        s.keys.rxKey = sendingKey c shared .initiator) :
    Inv c { l with responder := s } a shared := by
  refine ⟨h.initsFrom, h.noInits, h.initiatorReady, ?_, ?_, hready, h.responsesFrom, ?_,
    h.framesFrom⟩
  · intro hinits
    exact ⟨hbefore hinits, (h.beforeInit hinits).2⟩
  · intro hstate
    exact h.beforeResponse (hwaiting hstate)
  · intro side hest
    cases side with
    | initiator => exact h.keys .initiator hest
    | responder => exact hkeys hest

/-- Replacing a session by one with the same channel changes nothing. -/
theorem Inv.setSession (h : Inv c l a shared) {side : Side} {s : Session}
    (hs : Session.SameChannel (l.session side) s) : Inv c (l.setSession s side) a shared := by
  cases side with
  | initiator =>
    have hs : Session.SameChannel l.initiator s := hs
    refine h.setInitiator ?_ ?_ ?_ ?_
    · intro hstate
      exact h.noInits (hs.state ▸ hstate)
    · intro hstate
      rw [hs.isInitiator, hs.localEphemeral]
      exact h.initiatorReady (hs.state ▸ hstate)
    · intro hest hwaiting
      exact (h.beforeResponse hwaiting).2.1 (hs.state ▸ hest)
    · intro hest
      rw [hs.txKey, hs.rxKey]
      exact h.keys .initiator (hs.state ▸ hest)
  | responder =>
    have hs : Session.SameChannel l.responder s := hs
    refine h.setResponder ?_ ?_ ?_ ?_
    · intro hinits
      rw [hs.state]
      exact (h.beforeInit hinits).1
    · intro hstate
      rwa [hs.state] at hstate
    · intro hstate
      rw [hs.isInitiator, hs.remoteEphemeral, hs.localEphemeral]
      exact h.responderReady (hs.state ▸ hstate)
    · intro hest
      rw [hs.txKey, hs.rxKey]
      exact h.keys .responder (hs.state ▸ hest)

/-- A side may close at any time: nothing is said of a closed session. -/
theorem Inv.setClosed (h : Inv c l a shared) (side : Side) {s : Session}
    (hs : s.state = .closed) : Inv c (l.setSession s side) a shared := by
  cases side with
  | initiator =>
    refine h.setInitiator ?_ ?_ ?_ ?_ <;> intro hstate
    all_goals cases hs.symm.trans hstate
  | responder =>
    refine h.setResponder (fun _ => .inr hs) ?_ ?_ ?_
    · rintro (hdisc | hready)
      · cases hs.symm.trans hdisc
      · cases hs.symm.trans hready
    · intro hready
      cases hs.symm.trans hready
    · intro hest
      cases hs.symm.trans hest

theorem Inv.not_established_of_waiting (h : Inv c l a shared)
    (hwaiting : l.responder.state = .disconnected ∨ l.responder.state = .handshakeResponse)
    (side : Side) : (l.session side).state ≠ .established := by
  intro hest
  cases side with
  | initiator => exact (h.beforeResponse hwaiting).2.1 hest
  | responder =>
    rcases hwaiting with hdisc | hready
    · cases hdisc.symm.trans hest
    · cases hready.symm.trans hest

/-! ## One step -/

/-- The initiator sends its init: no message was on the link before, so nothing
depends on another secret. -/
theorem Inv.initiateHandshake (h : Inv c l a shared) (clock : Clock) (secret : SecretKey) :
    ∃ a', Inv c (linkStep c l clock (.initiateHandshake secret)).1 a' shared := by
  rcases Session.initiateHandshake_cases (c := c) l.initiator (clock.read 0) secret with
    hsame | ⟨hstate, hstep⟩
  · refine ⟨a, ?_⟩
    simp only [linkStep, hsame]
    exact h
  · have hinits := h.noInits hstate
    obtain ⟨hresponder, hresponses⟩ := h.beforeInit hinits
    refine ⟨secret, ?_⟩
    simp only [linkStep, hstep, hinits, if_true, List.nil_append]
    refine ⟨?_, ?_, ?_, ?_, ?_, ?_, ?_, ?_, h.framesFrom⟩
    · -- initsFrom: this init is the only one
      intro m hm
      rw [List.mem_singleton.mp hm]
      rfl
    · intro hdisc
      cases hdisc
    · intro _
      exact ⟨rfl, rfl⟩
    · intro hnil
      cases hnil
    · intro hwaiting
      obtain ⟨hresponses, _, hframes⟩ := h.beforeResponse hwaiting
      exact ⟨hresponses, fun hest => (by cases hest), hframes⟩
    · -- responderReady: the responder has not received anything yet
      intro hready
      rcases hresponder with hdisc | hclosed
      · rw [hdisc] at hready
        cases hready
      · rw [hclosed] at hready
        cases hready
    · intro m hm
      rw [hresponses] at hm
      cases hm
    · intro side hest
      cases side with
      | initiator => cases hest
      | responder => exact h.keys .responder hest

/-- The responder receives an init. -/
theorem Inv.deliverInit (h : Inv c l a shared) (clock : Clock) (index : Nat)
    (secret : SecretKey) : Inv c (linkStep c l clock (.deliverInit index secret)).1 a shared := by
  cases hm : l.inits[index]? with
  | none =>
    simp only [linkStep, hm]
    exact h
  | some m =>
    simp only [linkStep, hm]
    have hmem : m ∈ l.inits := List.mem_of_getElem? hm
    have hne : l.inits ≠ [] := List.ne_nil_of_mem hmem
    rcases Session.handleHandshakeInit_cases (c := c) l.responder (clock.read 0) secret m with
      hsame | ⟨hstate, hstep⟩ | ⟨hstate, hstep⟩
    · rw [hsame]
      exact h
    · -- turned away for its age or signature
      rw [hstep]
      refine h.setResponder (fun hinits => (h.beforeInit hinits).1) id ?_ (h.keys .responder)
      intro hready
      have hready : l.responder.state = .handshakeResponse := hready
      cases hstate.symm.trans hready
    · rw [hstep]
      refine h.setResponder ?_ ?_ ?_ ?_
      · -- an init has been sent
        intro hnil
        exact absurd hnil hne
      · intro _
        exact .inl hstate
      · -- the key it stored is the initiator's
        intro _
        exact ⟨rfl, h.initsFrom m hmem, rfl⟩
      · intro hest
        cases hest

/-- The responder derives the keys and sends its response: nobody was
established before, so this fixes the shared secret. -/
theorem Inv.sendHandshakeResponse (h : Inv c l a shared) (clock : Clock) :
    ∃ shared', Inv c (linkStep c l clock .sendHandshakeResponse).1 a shared' := by
  rcases Session.sendHandshakeResponse_cases (c := c) l.responder clock with
    hsame | ⟨hstate, hstep⟩ | ⟨hstate, shared', hexchange, hstep⟩
  · refine ⟨shared, ?_⟩
    simp only [linkStep, hsame]
    exact h
  · -- the key exchange failed, nothing is sent
    refine ⟨shared, ?_⟩
    simp only [linkStep, hstep]
    refine h.setResponder (fun _ => .inl rfl) (fun _ => .inr hstate) ?_ ?_
    · intro hready
      cases hready
    · intro hest
      cases hest
  · obtain ⟨hresponses, hinitiator, hframes⟩ := h.beforeResponse (.inr hstate)
    obtain ⟨hrole, hremote, hpair⟩ := h.responderReady hstate
    refine ⟨shared', ?_⟩
    simp only [linkStep, hstep, hresponses, if_true, List.nil_append]
    refine ⟨h.initsFrom, h.noInits, h.initiatorReady, ?_, ?_, ?_, ?_, ?_, ?_⟩
    · -- beforeInit: the responder is past its init
      intro hnil
      rcases (h.beforeInit hnil).1 with hdisc | hclosed
      · rw [hdisc] at hstate
        cases hstate
      · rw [hclosed] at hstate
        cases hstate
    · rintro (hdisc | hready)
      · cases hdisc
      · cases hready
    · intro hready
      cases hready
    · -- responsesFrom: the one response carries the key the exchange was made with
      intro m hm
      rw [List.mem_singleton.mp hm]
      refine ⟨l.responder.localEphemeral.2, hpair, ?_⟩
      rw [← hremote]
      exact hexchange
    · intro side hest
      cases side with
      | initiator => exact absurd hest hinitiator
      | responder =>
        exact Session.opened_keys_of_responder hrole (clock.read 0) (clock.read 1) shared'
    · -- framesFrom: no frame was made with an earlier secret
      intro f hf
      rw [hframes] at hf
      cases hf

/-- The initiator receives a response. It was made for the init that is still
open, so the exchange yields the responder's secret. -/
theorem Inv.deliverResponse (hc : c.Lawful) (h : Inv c l a shared) (clock : Clock)
    (index : Nat) : Inv c (linkStep c l clock (.deliverResponse index)).1 a shared := by
  cases hm : l.responses[index]? with
  | none =>
    simp only [linkStep, hm]
    exact h
  | some m =>
    simp only [linkStep, hm]
    have hmem : m ∈ l.responses := List.mem_of_getElem? hm
    have hne : l.responses ≠ [] := List.ne_nil_of_mem hmem
    obtain ⟨b, hpublic, hshared⟩ := h.responsesFrom m hmem
    have hexchange : l.initiator.state = .handshakeInit →
        c.exchange l.initiator.localEphemeral.2 m.ephemeralPublic = some shared := by
      intro hstate
      rw [(h.initiatorReady hstate).2, hpublic, hc.exchange_comm]
      exact hshared
    rcases Session.handleHandshakeResponse_cases (c := c) l.initiator clock m with
      hsame | ⟨hstate, hnone, _⟩ | ⟨hstate, shared', hsome, hstep⟩
    · rw [hsame]
      exact h
    · -- the exchange cannot fail on this side when it succeeded on the other
      rw [hexchange hstate] at hnone
      cases hnone
    · rw [hexchange hstate] at hsome
      cases hsome
      rw [hstep]
      refine h.setInitiator ?_ ?_ ?_ ?_
      · intro hdisc
        cases hdisc
      · intro hready
        cases hready
      · -- a response has been sent
        intro _ hwaiting
        exact hne (h.beforeResponse hwaiting).1
      · intro _
        exact Session.opened_keys_of_initiator (h.initiatorReady hstate).1 (clock.read 0)
          (clock.read 1) shared

/-- An established side puts a frame on the link. By then the response was sent,
so the keys that the frame was made with stay. -/
theorem Inv.encryptMessage (h : Inv c l a shared) (clock : Clock) (side : Side)
    (random : FixedBytes 4) (plaintext : Bytes) :
    Inv c (linkStep c l clock (.encryptMessage side random plaintext)).1 a shared := by
  have hset := h.setSession
    (Session.encryptMessage_sameChannel (c := c) (l.session side) (clock.read 0) random plaintext)
  cases hframe : ((l.session side).encryptMessage c (clock.read 0) random plaintext).2 with
  | none =>
    simp only [linkStep, hframe]
    exact hset
  | some bytes =>
    simp only [linkStep, hframe]
    obtain ⟨hest, nonce, hbytes⟩ := Session.encryptMessage_frame hframe
    refine ⟨hset.initsFrom, hset.noInits, hset.initiatorReady, hset.beforeInit, ?_,
      hset.responderReady, hset.responsesFrom, hset.keys, ?_⟩
    · -- beforeResponse: nobody is established while the responder waits
      intro hwaiting
      refine absurd ?_ (hset.not_established_of_waiting hwaiting side)
      rw [Link.session_setSession, (Session.encryptMessage_sameChannel _ _ _ _).state]
      exact hest
    · intro f hf
      rcases List.mem_append.mp hf with hold | hnew
      · exact hset.framesFrom f hold
      · rw [List.mem_singleton.mp hnew]
        refine ⟨nonce, ?_⟩
        rw [hbytes, (h.keys side hest).1]

theorem Inv.decryptMessage (h : Inv c l a shared) (clock : Clock) (index : Nat) :
    Inv c (linkStep c l clock (.decryptMessage index)).1 a shared := by
  cases hf : l.frames[index]? with
  | none =>
    simp only [linkStep, hf]
    exact h
  | some frame =>
    simp only [linkStep, hf]
    exact h.setSession (Session.decryptMessage_sameChannel _ (clock.read 0) frame.bytes)

/-- Some secrets explain what is on the link. -/
def Explained (c : SessionCrypto) (l : Link) : Prop := ∃ a shared, Inv c l a shared

theorem Explained.step (hc : c.Lawful) (clock : Clock) (input : LinkInput)
    (h : Explained c l) : Explained c (linkStep c l clock input).1 := by
  obtain ⟨a, shared, h⟩ := h
  cases input with
  | initiateHandshake secret =>
    obtain ⟨a', h'⟩ := h.initiateHandshake clock secret
    exact ⟨a', shared, h'⟩
  | deliverInit index secret => exact ⟨a, shared, h.deliverInit clock index secret⟩
  | sendHandshakeResponse =>
    obtain ⟨shared', h'⟩ := h.sendHandshakeResponse clock
    exact ⟨a, shared', h'⟩
  | deliverResponse index => exact ⟨a, shared, h.deliverResponse hc clock index⟩
  | encryptMessage side random plaintext =>
    exact ⟨a, shared, h.encryptMessage clock side random plaintext⟩
  | decryptMessage index => exact ⟨a, shared, h.decryptMessage clock index⟩
  | close side => exact ⟨a, shared, h.setClosed side (Session.close_state _)⟩

/-- What a call to `decrypt_message` on an established session must return. -/
def Decryption.Correct (d : Decryption) : Prop :=
  d.established = true → d.result = some d.frame.plaintext

theorem Explained.decryptions_correct (hc : c.Lawful) (clock : Clock) (input : LinkInput)
    (h : Explained c l) : ∀ d ∈ (linkStep c l clock input).2, d.Correct := by
  obtain ⟨a, shared, h⟩ := h
  intro d hd
  cases input with
  | decryptMessage index =>
    cases hf : l.frames[index]? with
    | none =>
      simp only [linkStep, hf] at hd
      cases hd
    | some frame =>
      simp only [linkStep, hf, List.mem_singleton] at hd
      subst hd
      intro hest
      have hest := of_decide_eq_true hest
      -- the frame was made with the sender's key, which is the receiver's other one
      obtain ⟨nonce, hbytes⟩ := h.framesFrom frame (List.mem_of_getElem? hf)
      have hkey := (h.keys frame.sender.other hest).2
      rw [Side.other_other] at hkey
      show ((l.session frame.sender.other).decryptMessage c (clock.read 0) frame.bytes).2 = _
      rw [hbytes, ← hkey]
      exact Session.decryptMessage_of_frame hc hest (clock.read 0) nonce frame.plaintext
  | deliverInit index secret =>
    unfold linkStep at hd
    dsimp only at hd
    split at hd <;> cases hd
  | deliverResponse index =>
    unfold linkStep at hd
    dsimp only at hd
    split at hd <;> cases hd
  | encryptMessage side random plaintext =>
    unfold linkStep at hd
    dsimp only at hd
    split at hd <;> cases hd
  | _ => cases hd

/-! ## Agreement -/

/-- In every run, whatever is delivered when and as often as it may be, two
established sessions hold each other's keys, and an established session decrypts
every frame it is given to the plaintext it was made from. -/
theorem agreement (c : SessionCrypto) (hc : c.Lawful) (initiatorId responderId : NodeID)
    (created : Side → Time) (inputs : List (Clock × LinkInput)) :
    let final := ((linkMachine c).run (Link.fresh initiatorId responderId created) inputs).1
    let decryptions := ((linkMachine c).run (Link.fresh initiatorId responderId created) inputs).2
    (final.initiator.state = .established → final.responder.state = .established →
      final.initiator.keys.txKey = final.responder.keys.rxKey ∧
      final.responder.keys.txKey = final.initiator.keys.rxKey) ∧
    ∀ d ∈ decryptions, d.established = true → d.result = some d.frame.plaintext := by
  intro final decryptions
  have hstep : ∀ l input, Explained c l → Explained c ((linkMachine c).step l input).1 :=
    fun l input h => h.step hc input.1 input.2
  have hfresh : Explained c (Link.fresh initiatorId responderId created) :=
    ⟨FixedBytes.zero, FixedBytes.zero, fresh_inv initiatorId responderId created _ _⟩
  refine ⟨?_, ?_⟩
  · intro hinitiator hresponder
    obtain ⟨a, shared, hinv⟩ := (linkMachine c).run_invariant hstep hfresh inputs
    obtain ⟨htx, hrx⟩ := hinv.keys .initiator hinitiator
    obtain ⟨htx', hrx'⟩ := hinv.keys .responder hresponder
    exact ⟨htx.trans hrx'.symm, htx'.trans hrx.symm⟩
  · exact (linkMachine c).run_outputs hstep
      (fun l input h => h.decryptions_correct hc input.1 input.2) hfresh inputs

/-! ## A conversation -/

/-- Node 1 opens a session with node 2; each side sends a message, the
responder's is empty, and they are read in the other order. -/
def conversationInputs : List (Clock × LinkInput) :=
  [.initiateHandshake (sampleSecret 6), .deliverInit 0 (sampleSecret 15), .sendHandshakeResponse,
    .deliverResponse 0, .encryptMessage .initiator FixedBytes.zero [1, 2, 3],
    .encryptMessage .responder FixedBytes.zero [], .decryptMessage 1,
    .decryptMessage 0].map fun input => (.still sampleTime, input)

def conversation : Link × List Decryption :=
  (linkMachine sampleCrypto).run (Link.fresh (sampleNode 1) (sampleNode 2) fun _ => sampleTime)
    conversationInputs

theorem conversation_agrees :
    conversation.1.initiator.state = .established ∧
    conversation.1.responder.state = .established ∧
    conversation.1.initiator.keys.txKey = conversation.1.responder.keys.rxKey ∧
    conversation.1.responder.keys.txKey = conversation.1.initiator.keys.rxKey ∧
    conversation.2.map (fun d => (d.established, d.frame.plaintext)) =
      [(true, []), (true, [1, 2, 3])] ∧
    ∀ d ∈ conversation.2, d.established = true → d.result = some d.frame.plaintext := by
  have hagree := agreement sampleCrypto sampleCrypto_lawful (sampleNode 1) (sampleNode 2)
    (fun _ => sampleTime) conversationInputs
  rw [← conversation] at hagree
  obtain ⟨hkeys, hread⟩ := hagree
  have hinitiator : conversation.1.initiator.state = .established := by decide +kernel
  have hresponder : conversation.1.responder.state = .established := by decide +kernel
  obtain ⟨htx, hrx⟩ := hkeys hinitiator hresponder
  exact ⟨hinitiator, hresponder, htx, hrx, by decide +kernel, hread⟩

end Cashew.Theorems.SessionAgreement
