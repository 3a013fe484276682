import Cashew.Network.Session

/-!
# What a call does to a session

One inversion lemma per call: every outcome with the state it requires and the
state it leaves. The invariants of sessions are derived from these, never from
the bodies of the calls.
-/

namespace Cashew

open Cashew.Lib

namespace HandshakeMessage

/-- A message made at `sent` is found too old by every clock that is behind. -/
theorem make_tooOld_iff (H : Bytes → Hash256) (sent now : Time) (k : PublicKey) (node : NodeID) :
    (make H sent k node).tooOld now = true ↔
      now.secs.toNat < sent.secs.toNat ∨ sent.secs.toNat + 60 < now.secs.toNat := by
  have hsent := sent.signed
  have hnow := now.signed
  have hlimit : maxAgeSeconds.toNat = 60 := by decide
  have hage : (make H sent k node).timestamp = sent.secs := rfl
  unfold tooOld
  rw [decide_eq_true_iff, UInt64.lt_iff_toNat_lt, hlimit, hage, Time.secs_sub_toNat]
  split <;> omega

theorem make_verifySignature (H : Bytes → Hash256) (now : Time) (k : PublicKey) (node : NodeID) :
    (make H now k node).verifySignature H = true := by
  simp [verifySignature, make, computeSignature, signingBytes]

end HandshakeMessage

namespace Session

variable {c : SessionCrypto}

/-- A session with its keys derived from a shared secret, opened at `now`. -/
def opened (c : SessionCrypto) (s : Session) (now derivedAt : Time) (sharedSecret : SessionKey) :
    Session :=
  { s.deriveSessionKeys c derivedAt sharedSecret with
    state := .established
    establishedTimestamp := now.secs
    lastActivityTimestamp := now.secs }

theorem opened_keys_of_initiator {s : Session} (h : s.isInitiator = true) (now derivedAt : Time)
    (k : SessionKey) :
    (s.opened c now derivedAt k).keys.txKey = initiatorKey c k ∧
      (s.opened c now derivedAt k).keys.rxKey = responderKey c k := by
  unfold opened deriveSessionKeys
  rw [h]
  exact ⟨rfl, rfl⟩

theorem opened_keys_of_responder {s : Session} (h : s.isInitiator = false) (now derivedAt : Time)
    (k : SessionKey) :
    (s.opened c now derivedAt k).keys.txKey = responderKey c k ∧
      (s.opened c now derivedAt k).keys.rxKey = initiatorKey c k := by
  unfold opened deriveSessionKeys
  rw [h]
  exact ⟨rfl, rfl⟩

/-! ## Handshake calls -/

theorem initiateHandshake_cases (s : Session) (now : Time) (secret : SecretKey) :
    s.initiateHandshake c now secret = (s, false) ∨
      (s.state = .disconnected ∧ s.initiateHandshake c now secret =
        ({ s with
            isInitiator := true
            localEphemeral := (c.derivePublic secret, secret)
            lastHandshake :=
              HandshakeMessage.make c.hash now (c.derivePublic secret) s.localNodeId
            state := .handshakeInit }, true)) := by
  unfold initiateHandshake
  split
  · exact .inl rfl
  · rename_i hstate
    exact .inr ⟨not_not.mp hstate, rfl⟩

theorem handleHandshakeInit_cases (s : Session) (now : Time) (secret : SecretKey)
    (init : HandshakeMessage) :
    (s.handleHandshakeInit c now secret init).1 = s ∨
      (s.state = .disconnected ∧
        (s.handleHandshakeInit c now secret init).1 = { s with isInitiator := false }) ∨
      (s.state = .disconnected ∧ (s.handleHandshakeInit c now secret init).1 =
        { s with
          isInitiator := false
          remoteEphemeral := init.ephemeralPublic
          localEphemeral := (c.derivePublic secret, secret)
          state := .handshakeResponse }) := by
  unfold handleHandshakeInit
  dsimp only
  split
  · exact .inl rfl
  · rename_i hstate
    have hstate := not_not.mp hstate
    split
    · exact .inr (.inl ⟨hstate, rfl⟩)
    · split
      · exact .inr (.inl ⟨hstate, rfl⟩)
      · exact .inr (.inr ⟨hstate, rfl⟩)

theorem sendHandshakeResponse_cases (s : Session) (clock : Clock) :
    s.sendHandshakeResponse c clock = (s, false) ∨
      (s.state = .handshakeResponse ∧
        s.sendHandshakeResponse c clock = ({ s with state := .disconnected }, false)) ∨
      (s.state = .handshakeResponse ∧ ∃ sharedSecret,
        c.exchange s.localEphemeral.2 s.remoteEphemeral = some sharedSecret ∧
        s.sendHandshakeResponse c clock =
          ({ s.opened c (clock.read 0) (clock.read 1) sharedSecret with
              lastHandshake := HandshakeMessage.make c.hash (clock.read 0) s.localEphemeral.1
                s.localNodeId }, true)) := by
  unfold sendHandshakeResponse
  split
  · exact .inl rfl
  · rename_i hstate
    have hstate := not_not.mp hstate
    cases hexchange : c.exchange s.localEphemeral.2 s.remoteEphemeral with
    | none => exact .inr (.inl ⟨hstate, rfl⟩)
    | some sharedSecret => exact .inr (.inr ⟨hstate, sharedSecret, rfl, rfl⟩)

theorem handleHandshakeResponse_cases (s : Session) (clock : Clock)
    (response : HandshakeMessage) :
    (s.handleHandshakeResponse c clock response).1 = s ∨
      (s.state = .handshakeInit ∧
        c.exchange s.localEphemeral.2 response.ephemeralPublic = none ∧
        (s.handleHandshakeResponse c clock response).1 =
          { s with remoteEphemeral := response.ephemeralPublic, state := .disconnected }) ∨
      (s.state = .handshakeInit ∧ ∃ sharedSecret,
        c.exchange s.localEphemeral.2 response.ephemeralPublic = some sharedSecret ∧
        (s.handleHandshakeResponse c clock response).1 =
          { s with remoteEphemeral := response.ephemeralPublic }.opened c (clock.read 0)
            (clock.read 1) sharedSecret) := by
  unfold handleHandshakeResponse
  dsimp only
  split
  · exact .inl rfl
  · rename_i hstate
    have hstate := not_not.mp hstate
    split
    · exact .inl rfl
    · split
      · exact .inl rfl
      · cases hexchange : c.exchange s.localEphemeral.2 response.ephemeralPublic with
        | none => exact .inr (.inl ⟨hstate, rfl, rfl⟩)
        | some sharedSecret => exact .inr (.inr ⟨hstate, sharedSecret, rfl, rfl⟩)

@[simp] theorem close_state (s : Session) : s.close.state = .closed := by
  unfold close
  split
  · assumption
  · rfl

/-! ## Messages -/

/-- The parts of a session that messages leave alone. -/
structure SameChannel (s t : Session) : Prop where
  state : t.state = s.state
  isInitiator : t.isInitiator = s.isInitiator
  localEphemeral : t.localEphemeral = s.localEphemeral
  remoteEphemeral : t.remoteEphemeral = s.remoteEphemeral
  txKey : t.keys.txKey = s.keys.txKey
  rxKey : t.keys.rxKey = s.keys.rxKey

theorem SameChannel.refl (s : Session) : SameChannel s s := ⟨rfl, rfl, rfl, rfl, rfl, rfl⟩

theorem encryptMessage_sameChannel (s : Session) (now : Time) (random : FixedBytes 4)
    (plaintext : Bytes) : SameChannel s (s.encryptMessage c now random plaintext).1 := by
  unfold encryptMessage
  split
  · exact .refl s
  · exact ⟨rfl, rfl, rfl, rfl, rfl, rfl⟩

/-- A frame is the nonce and the ciphertext under the sending key. -/
theorem encryptMessage_frame {s : Session} {now : Time} {random : FixedBytes 4}
    {plaintext frame : Bytes} (h : (s.encryptMessage c now random plaintext).2 = some frame) :
    s.state = .established ∧ ∃ nonce : Nonce,
      frame = nonce.bytes ++ c.encrypt plaintext s.keys.txKey nonce := by
  unfold encryptMessage at h
  split at h
  · cases h
  · rename_i hstate
    cases h
    exact ⟨not_not.mp hstate, s.generateNonce random, rfl⟩

theorem decryptMessage_sameChannel (s : Session) (now : Time) (frame : Bytes) :
    SameChannel s (s.decryptMessage c now frame).1 := by
  unfold decryptMessage
  split
  · exact .refl s
  · split
    · exact .refl s
    · split
      · split
        · exact .refl s
        · exact ⟨rfl, rfl, rfl, rfl, rfl, rfl⟩
      · exact .refl s
      · exact .refl s

/-- An established session reads a frame that was made under its receiving key. -/
theorem decryptMessage_of_frame (hc : c.Lawful) {s : Session} (hstate : s.state = .established)
    (now : Time) (nonce : Nonce) (plaintext : Bytes) :
    (s.decryptMessage c now (nonce.bytes ++ c.encrypt plaintext s.keys.rxKey nonce)).2 =
      some plaintext := by
  have hlen : ¬ (nonce.bytes ++ c.encrypt plaintext s.keys.rxKey nonce).length < 12 + 16 := by
    have htag := hc.tag plaintext s.keys.rxKey nonce
    rw [List.length_append, nonce.size]
    omega
  unfold decryptMessage
  rw [if_neg (not_not.mpr hstate), if_neg hlen, FixedBytes.decodes nonce]
  dsimp only
  rw [hc.decrypt_encrypt]

/-! ## One call -/

/-- What a call can do to the state of a session. -/
inductive Moves : SessionState → SessionInput → SessionState → Prop
  | stay (state : SessionState) (input : SessionInput) : Moves state input state
  | initiate (secret : SecretKey) :
      Moves .disconnected (.initiateHandshake secret) .handshakeInit
  | accept (secret : SecretKey) (init : HandshakeMessage) :
      Moves .disconnected (.handleHandshakeInit secret init) .handshakeResponse
  | finish (response : HandshakeMessage) :
      Moves .handshakeInit (.handleHandshakeResponse response) .established
  | exchangeFailed (response : HandshakeMessage) :
      Moves .handshakeInit (.handleHandshakeResponse response) .disconnected
  | respond : Moves .handshakeResponse .sendHandshakeResponse .established
  | respondFailed : Moves .handshakeResponse .sendHandshakeResponse .disconnected
  | close (state : SessionState) : Moves state .close .closed

theorem call_moves (s : Session) (clock : Clock) (input : SessionInput) :
    Moves s.state input (s.call c clock input).1.state := by
  cases input with
  | initiateHandshake secret =>
    show Moves _ _ (s.initiateHandshake c (clock.read 0) secret).1.state
    rcases initiateHandshake_cases (c := c) s (clock.read 0) secret with h | ⟨hstate, h⟩
    · rw [h]
      exact .stay _ _
    · rw [h, hstate]
      exact .initiate secret
  | handleHandshakeResponse response =>
    show Moves _ _ (s.handleHandshakeResponse c clock response).1.state
    rcases handleHandshakeResponse_cases (c := c) s clock response with
      h | ⟨hstate, _, h⟩ | ⟨hstate, _, _, h⟩
    · rw [h]
      exact .stay _ _
    · rw [h, hstate]
      exact .exchangeFailed response
    · rw [h, hstate]
      exact .finish response
  | handleHandshakeInit secret init =>
    show Moves _ _ (s.handleHandshakeInit c (clock.read 0) secret init).1.state
    rcases handleHandshakeInit_cases (c := c) s (clock.read 0) secret init with
      h | ⟨_, h⟩ | ⟨hstate, h⟩
    · rw [h]
      exact .stay _ _
    · rw [h]
      exact .stay _ _
    · rw [h, hstate]
      exact .accept secret init
  | sendHandshakeResponse =>
    show Moves _ _ (s.sendHandshakeResponse c clock).1.state
    rcases sendHandshakeResponse_cases (c := c) s clock with
      h | ⟨hstate, h⟩ | ⟨hstate, _, _, h⟩
    · rw [h]
      exact .stay _ _
    · rw [h, hstate]
      exact .respondFailed
    · rw [h, hstate]
      exact .respond
  | encryptMessage random plaintext =>
    show Moves _ _ (s.encryptMessage c (clock.read 0) random plaintext).1.state
    rw [(encryptMessage_sameChannel s (clock.read 0) random plaintext).state]
    exact .stay _ _
  | decryptMessage ciphertext =>
    show Moves _ _ (s.decryptMessage c (clock.read 0) ciphertext).1.state
    rw [(decryptMessage_sameChannel s (clock.read 0) ciphertext).state]
    exact .stay _ _
  | close =>
    show Moves _ _ s.close.state
    rw [close_state]
    exact .close _

/-- The parts that most calls leave alone: only an encryption advances the
counter, and only a disconnected session takes on a role. -/
structure Keeps (s : Session) (input : SessionInput) (t : Session) : Prop where
  nonceCounter : (∀ random plaintext, input ≠ .encryptMessage random plaintext) →
    t.nonceCounter = s.nonceCounter
  isInitiator : s.state ≠ .disconnected → t.isInitiator = s.isInitiator

theorem Keeps.refl (s : Session) (input : SessionInput) : Keeps s input s :=
  ⟨fun _ => rfl, fun _ => rfl⟩

theorem call_keeps (s : Session) (clock : Clock) (input : SessionInput) :
    Keeps s input (s.call c clock input).1 := by
  cases input with
  | initiateHandshake secret =>
    show Keeps s _ (s.initiateHandshake c (clock.read 0) secret).1
    -- the role is set only by a session that has none yet
    rcases initiateHandshake_cases (c := c) s (clock.read 0) secret with h | ⟨hstate, h⟩
    · rw [h]
      exact .refl s _
    · rw [h]
      exact ⟨fun _ => rfl, fun hnot => absurd hstate hnot⟩
  | handleHandshakeResponse response =>
    show Keeps s _ (s.handleHandshakeResponse c clock response).1
    rcases handleHandshakeResponse_cases (c := c) s clock response with
      h | ⟨_, _, h⟩ | ⟨_, _, _, h⟩
    · rw [h]
      exact .refl s _
    · rw [h]
      exact ⟨fun _ => rfl, fun _ => rfl⟩
    · rw [h]
      exact ⟨fun _ => rfl, fun _ => rfl⟩
  | handleHandshakeInit secret init =>
    show Keeps s _ (s.handleHandshakeInit c (clock.read 0) secret init).1
    -- here too: the responder's role is set in a new session only
    rcases handleHandshakeInit_cases (c := c) s (clock.read 0) secret init with
      h | ⟨hstate, h⟩ | ⟨hstate, h⟩
    · rw [h]
      exact .refl s _
    · rw [h]
      exact ⟨fun _ => rfl, fun hnot => absurd hstate hnot⟩
    · rw [h]
      exact ⟨fun _ => rfl, fun hnot => absurd hstate hnot⟩
  | sendHandshakeResponse =>
    show Keeps s _ (s.sendHandshakeResponse c clock).1
    rcases sendHandshakeResponse_cases (c := c) s clock with
      h | ⟨_, h⟩ | ⟨_, _, _, h⟩
    · rw [h]
      exact .refl s _
    · rw [h]
      exact ⟨fun _ => rfl, fun _ => rfl⟩
    · rw [h]
      exact ⟨fun _ => rfl, fun _ => rfl⟩
  -- the only call that moves the counter of nonces
  | encryptMessage random plaintext =>
    have hsame := encryptMessage_sameChannel (c := c) s (clock.read 0) random plaintext
    exact ⟨fun hnot => absurd rfl (hnot random plaintext), fun _ => hsame.isInitiator⟩
  | decryptMessage ciphertext =>
    show Keeps s _ (s.decryptMessage c (clock.read 0) ciphertext).1
    have hsame := decryptMessage_sameChannel (c := c) s (clock.read 0) ciphertext
    refine ⟨fun _ => ?_, fun _ => hsame.isInitiator⟩
    unfold decryptMessage
    split
    · rfl
    · split
      · rfl
      · split
        · split <;> rfl
        · rfl
        · rfl
  | close =>
    show Keeps s _ s.close
    unfold close
    split
    · exact .refl s _
    · exact ⟨fun _ => rfl, fun _ => rfl⟩

@[simp] theorem close_remoteNodeId (s : Session) : s.close.remoteNodeId = s.remoteNodeId := by
  unfold close
  split <;> rfl

theorem initiateHandshake_remoteNodeId (s : Session) (now : Time) (secret : SecretKey) :
    (s.initiateHandshake c now secret).1.remoteNodeId = s.remoteNodeId := by
  rcases initiateHandshake_cases (c := c) s now secret with h | ⟨_, h⟩ <;> rw [h]

theorem encryptMessage_remoteNodeId (s : Session) (now : Time) (random : FixedBytes 4)
    (plaintext : Bytes) :
    (s.encryptMessage c now random plaintext).1.remoteNodeId = s.remoteNodeId := by
  unfold encryptMessage
  split <;> rfl

theorem handleHandshakeInit_remoteNodeId (s : Session) (now : Time) (secret : SecretKey)
    (init : HandshakeMessage) :
    (s.handleHandshakeInit c now secret init).1.remoteNodeId = s.remoteNodeId := by
  rcases handleHandshakeInit_cases (c := c) s now secret init with h | ⟨_, h⟩ | ⟨_, h⟩ <;> rw [h]

/-- No call changes who the session is with. -/
theorem call_remoteNodeId (s : Session) (clock : Clock) (input : SessionInput) :
    (s.call c clock input).1.remoteNodeId = s.remoteNodeId := by
  cases input with
  | initiateHandshake secret => exact initiateHandshake_remoteNodeId s _ secret
  | handleHandshakeResponse response =>
    show (s.handleHandshakeResponse c clock response).1.remoteNodeId = _
    rcases handleHandshakeResponse_cases (c := c) s clock response with
      h | ⟨_, _, h⟩ | ⟨_, _, _, h⟩ <;> rw [h]
    rfl
  | handleHandshakeInit secret init => exact handleHandshakeInit_remoteNodeId s _ secret init
  | sendHandshakeResponse =>
    show (s.sendHandshakeResponse c clock).1.remoteNodeId = _
    rcases sendHandshakeResponse_cases (c := c) s clock with h | ⟨_, h⟩ | ⟨_, _, _, h⟩ <;> rw [h]
    rfl
  | encryptMessage random plaintext => exact encryptMessage_remoteNodeId s _ random plaintext
  | decryptMessage ciphertext =>
    show (s.decryptMessage c (clock.read 0) ciphertext).1.remoteNodeId = _
    unfold decryptMessage
    split
    · rfl
    · split
      · rfl
      · split
        · split <;> rfl
        · rfl
        · rfl
  | close => exact close_remoteNodeId s

/-- A closed session stays as it is. -/
theorem call_of_closed {s : Session} (h : s.state = .closed) (clock : Clock)
    (input : SessionInput) : (s.call c clock input).1 = s := by
  cases input <;>
    simp [call, initiateHandshake, handleHandshakeResponse, handleHandshakeInit,
      sendHandshakeResponse, encryptMessage, decryptMessage, close, h]

end Session

end Cashew
