import Cashew.Common
import Cashew.Lib.Machine

/-!
# Encrypted sessions

`Session` of `network/session.cpp`: a two-message handshake with ephemeral
X25519 keys, key derivation by role, and framed ChaCha20-Poly1305 messages.

The cryptographic primitives are a parameter. A key pair is given by its secret
half, which the call that generates it draws; so are the random bytes of a
nonce. A failed call returns `false` or nothing, as in the source.
-/

namespace Cashew

open Cashew.Lib

/-- The primitives the session uses: `crypto::Blake3::hash`,
`crypto::X25519::derive_public` and `exchange`, and
`crypto::ChaCha20Poly1305::encrypt` and `decrypt`. -/
structure SessionCrypto where
  hash : Bytes → Hash256
  derivePublic : SecretKey → PublicKey
  exchange : SecretKey → PublicKey → Option SessionKey
  encrypt : Bytes → SessionKey → Nonce → Bytes
  decrypt : Bytes → SessionKey → Nonce → Option Bytes

/-- What sessions rely on: key exchange commutes, decryption undoes encryption
under the same key and nonce, and a ciphertext carries a 16-byte tag. -/
structure SessionCrypto.Lawful (c : SessionCrypto) : Prop where
  exchange_comm : ∀ a b, c.exchange a (c.derivePublic b) = c.exchange b (c.derivePublic a)
  decrypt_encrypt : ∀ plaintext key nonce,
    c.decrypt (c.encrypt plaintext key nonce) key nonce = some plaintext
  tag : ∀ plaintext key nonce, 16 ≤ (c.encrypt plaintext key nonce).length

/-- `SessionState : uint8_t`. -/
inductive SessionState where
  | disconnected
  | handshakeInit
  | handshakeResponse
  | established
  | closing
  | closed
  deriving DecidableEq

/-- `SessionKeys`. -/
structure SessionKeys where
  txKey : SessionKey := FixedBytes.zero
  rxKey : SessionKey := FixedBytes.zero
  createdTimestamp : UInt64 := 0
  messagesSent : UInt64 := 0
  messagesReceived : UInt64 := 0
  bytesSent : UInt64 := 0
  bytesReceived : UInt64 := 0
  deriving DecidableEq

/-- `HandshakeMessage`. -/
structure HandshakeMessage where
  version : UInt8 := 0
  ephemeralPublic : PublicKey := FixedBytes.zero
  nodeId : NodeID := default
  timestamp : UInt64 := 0
  signature : Signature := FixedBytes.zero
  deriving DecidableEq

namespace HandshakeMessage

def currentVersion : UInt8 := 1

def maxAgeSeconds : UInt64 := 60

/-- `handshake_signing_bytes`. -/
def signingBytes (m : HandshakeMessage) : Bytes :=
  [m.version] ++ (m.ephemeralPublic.bytes ++ (m.nodeId.id.bytes ++ u64Bytes m.timestamp))

/-- `compute_handshake_signature`: the digest of the payload, twice. -/
def computeSignature (H : Bytes → Hash256) (m : HandshakeMessage) : Signature :=
  let digest := H m.signingBytes
  ⟨digest.bytes ++ digest.bytes, by rw [List.length_append, digest.size]⟩

/-- `verify_handshake_signature`. -/
def verifySignature (H : Bytes → Hash256) (m : HandshakeMessage) : Bool :=
  m.signature == m.computeSignature H

/-- `now_seconds - timestamp > MAX_AGE_SECONDS`, unsigned. -/
def tooOld (m : HandshakeMessage) (now : Time) : Bool := maxAgeSeconds < now.secs - m.timestamp

/-- The message both sides build around their ephemeral key. -/
def make (H : Bytes → Hash256) (now : Time) (ephemeralPublic : PublicKey) (nodeId : NodeID) :
    HandshakeMessage :=
  let m : HandshakeMessage :=
    { version := currentVersion, ephemeralPublic, nodeId, timestamp := now.secs }
  { m with signature := m.computeSignature H }

end HandshakeMessage

/-- `Session`. -/
structure Session where
  localNodeId : NodeID
  remoteNodeId : NodeID
  state : SessionState := .disconnected
  isInitiator : Bool := false
  localEphemeral : PublicKey × SecretKey := (FixedBytes.zero, FixedBytes.zero)
  remoteEphemeral : PublicKey := FixedBytes.zero
  keys : SessionKeys := {}
  lastHandshake : HandshakeMessage := {}
  createdTimestamp : UInt64
  establishedTimestamp : UInt64 := 0
  lastActivityTimestamp : UInt64
  nonceCounter : UInt64 := 0
  deriving DecidableEq

namespace Session

variable (c : SessionCrypto)

/-- `Session::Session`. -/
def create (localNodeId remoteNodeId : NodeID) (now : Time) : Session where
  localNodeId
  remoteNodeId
  createdTimestamp := now.secs
  lastActivityTimestamp := now.secs

/-! ## Keys -/

/-- The context string `cashew_session_v1`. -/
def keyContext : Bytes :=
  [0x63, 0x61, 0x73, 0x68, 0x65, 0x77, 0x5f, 0x73, 0x65, 0x73, 0x73, 0x69, 0x6f, 0x6e, 0x5f,
    0x76, 0x31]

/-- The key for messages of the initiator: `Blake3(secret || context)`. -/
def initiatorKey (sharedSecret : SessionKey) : SessionKey :=
  c.hash (sharedSecret.bytes ++ keyContext)

/-- The key for messages of the responder: `Blake3(secret || context || 1)`. -/
def responderKey (sharedSecret : SessionKey) : SessionKey :=
  c.hash (sharedSecret.bytes ++ keyContext ++ [1])

/-- `Session::derive_session_keys`. -/
def deriveSessionKeys (s : Session) (now : Time) (sharedSecret : SessionKey) : Session :=
  let (txKey, rxKey) :=
    if s.isInitiator then (initiatorKey c sharedSecret, responderKey c sharedSecret)
    else (responderKey c sharedSecret, initiatorKey c sharedSecret)
  { s with keys := { s.keys with txKey, rxKey, createdTimestamp := now.secs } }

/-! ## Handshake -/

/-- `Session::initiate_handshake`. -/
def initiateHandshake (s : Session) (now : Time) (secret : SecretKey) : Session × Bool :=
  if s.state ≠ .disconnected then (s, false)
  else
    let localEphemeral := (c.derivePublic secret, secret)
    ({ s with
        isInitiator := true
        localEphemeral
        lastHandshake := HandshakeMessage.make c.hash now localEphemeral.1 s.localNodeId
        state := .handshakeInit }, true)

/-- `Session::handle_handshake_response`. -/
def handleHandshakeResponse (s : Session) (clock : Clock) (response : HandshakeMessage) :
    Session × Bool :=
  if s.state ≠ .handshakeInit then (s, false)
  else if response.tooOld (clock.read 0) then (s, false)
  else if !response.verifySignature c.hash then (s, false)
  else
    let s := { s with remoteEphemeral := response.ephemeralPublic }
    match c.exchange s.localEphemeral.2 s.remoteEphemeral with
    | none => ({ s with state := .disconnected }, false)
    | some sharedSecret =>
      ({ s.deriveSessionKeys c (clock.read 1) sharedSecret with
          state := .established
          establishedTimestamp := (clock.read 0).secs
          lastActivityTimestamp := (clock.read 0).secs }, true)

/-- `Session::handle_handshake_init`. -/
def handleHandshakeInit (s : Session) (now : Time) (secret : SecretKey)
    (init : HandshakeMessage) : Session × Bool :=
  if s.state ≠ .disconnected then (s, false)
  else
    -- the role is set before the message is looked at
    let s := { s with isInitiator := false }
    if init.tooOld now then (s, false)
    else if !init.verifySignature c.hash then (s, false)
    else
      ({ s with
          remoteEphemeral := init.ephemeralPublic
          localEphemeral := (c.derivePublic secret, secret)
          state := .handshakeResponse }, true)

/-- `Session::send_handshake_response`. -/
def sendHandshakeResponse (s : Session) (clock : Clock) : Session × Bool :=
  if s.state ≠ .handshakeResponse then (s, false)
  else
    match c.exchange s.localEphemeral.2 s.remoteEphemeral with
    | none => ({ s with state := .disconnected }, false)
    | some sharedSecret =>
      ({ s.deriveSessionKeys c (clock.read 1) sharedSecret with
          state := .established
          establishedTimestamp := (clock.read 0).secs
          lastActivityTimestamp := (clock.read 0).secs
          lastHandshake :=
            HandshakeMessage.make c.hash (clock.read 0) s.localEphemeral.1 s.localNodeId }, true)

/-- `Session::close`: the keys are zeroed. -/
def close (s : Session) : Session :=
  if s.state = .closed then s
  else
    { s with
      localEphemeral := (FixedBytes.zero, FixedBytes.zero)
      keys := { s.keys with txKey := FixedBytes.zero, rxKey := FixedBytes.zero }
      state := .closed }

/-! ## Messages -/

/-- `Session::generate_nonce`: the counter and four random bytes. -/
def generateNonce (s : Session) (random : FixedBytes 4) : Nonce :=
  ⟨u64Bytes s.nonceCounter ++ random.bytes, by
    rw [List.length_append, u64Bytes_length, random.size]⟩

/-- `Session::encrypt_message`: the nonce goes in front of the ciphertext. -/
def encryptMessage (s : Session) (now : Time) (random : FixedBytes 4) (plaintext : Bytes) :
    Session × Option Bytes :=
  if s.state ≠ .established then (s, none)
  else
    let nonce := s.generateNonce random
    ({ s with
        -- by `generate_nonce`
        nonceCounter := s.nonceCounter + 1
        keys := { s.keys with
          messagesSent := s.keys.messagesSent + 1
          bytesSent := s.keys.bytesSent + UInt64.ofNat plaintext.length }
        lastActivityTimestamp := now.secs },
     some (nonce.bytes ++ c.encrypt plaintext s.keys.txKey nonce))

/-- `Session::decrypt_message`. -/
def decryptMessage (s : Session) (now : Time) (frame : Bytes) : Session × Option Bytes :=
  if s.state ≠ .established then (s, none)
  else if frame.length < 12 + 16 then (s, none)
  else
    match FixedBytes.decoder 12 frame with
    | .value (nonce, encrypted) =>
      match c.decrypt encrypted s.keys.rxKey nonce with
      | none => (s, none)
      | some plaintext =>
        ({ s with
            keys := { s.keys with
              messagesReceived := s.keys.messagesReceived + 1
              bytesReceived := s.keys.bytesReceived + UInt64.ofNat plaintext.length }
            lastActivityTimestamp := now.secs },
         some plaintext)
    -- not reached: the frame was found long enough
    | .rejected => (s, none)
    | .outOfBounds => (s, none)

end Session

/-! ## Runs -/

/-- The calls on a session, with what they draw at random. -/
inductive SessionInput where
  | initiateHandshake (secret : SecretKey)
  | handleHandshakeResponse (response : HandshakeMessage)
  | handleHandshakeInit (secret : SecretKey) (init : HandshakeMessage)
  | sendHandshakeResponse
  | encryptMessage (random : FixedBytes 4) (plaintext : Bytes)
  | decryptMessage (ciphertext : Bytes)
  | close
  deriving DecidableEq

/-- What a call returns. -/
inductive SessionReturn where
  | done (success : Bool)
  | encrypted (frame : Option Bytes)
  | decrypted (plaintext : Option Bytes)
  | closed
  deriving DecidableEq

/-- One call on a session, with the clock readings made during it. -/
def Session.call (c : SessionCrypto) (s : Session) (clock : Clock) :
    SessionInput → Session × SessionReturn
  | .initiateHandshake secret => (s.initiateHandshake c (clock.read 0) secret).map id .done
  | .handleHandshakeResponse response => (s.handleHandshakeResponse c clock response).map id .done
  | .handleHandshakeInit secret init =>
    (s.handleHandshakeInit c (clock.read 0) secret init).map id .done
  | .sendHandshakeResponse => (s.sendHandshakeResponse c clock).map id .done
  | .encryptMessage random plaintext =>
    (s.encryptMessage c (clock.read 0) random plaintext).map id .encrypted
  | .decryptMessage ciphertext => (s.decryptMessage c (clock.read 0) ciphertext).map id .decrypted
  | .close => (s.close, .closed)

def sessionMachine (c : SessionCrypto) : Machine Session (Clock × SessionInput) SessionReturn where
  step s input := (s.call c input.1 input.2).map id ([·])

/-! ## Primitives to compute with -/

/-- Stand-ins for the primitives where something is computed: Diffie-Hellman
modulo 23, and a tag that depends on the key, the nonce and the plaintext. -/
def sampleCrypto : SessionCrypto where
  hash := sampleHash
  derivePublic a := ⟨leBytes 32 (5 ^ a.value % 23), leBytes_length 32 _⟩
  exchange a k := some ⟨leBytes 32 (leNat k.bytes ^ a.value % 23), leBytes_length 32 _⟩
  encrypt plaintext key nonce :=
    plaintext ++ (sampleHash (key.bytes ++ nonce.bytes ++ plaintext)).bytes.take 16
  decrypt ciphertext key nonce :=
    let plaintext := ciphertext.take (ciphertext.length - 16)
    if ciphertext.drop (ciphertext.length - 16) =
        (sampleHash (key.bytes ++ nonce.bytes ++ plaintext)).bytes.take 16 then some plaintext
    else none

private theorem leNat_derivePublic (a : SecretKey) :
    leNat (sampleCrypto.derivePublic a).bytes = 5 ^ a.value % 23 := by
  show leNat (leBytes 32 (5 ^ a.value % 23)) = _
  have hlt : 5 ^ a.value % 23 < 23 := Nat.mod_lt _ (by decide)
  rw [leNat_leBytes, Nat.mod_eq_of_lt (by omega)]

theorem sampleCrypto_lawful : sampleCrypto.Lawful where
  exchange_comm := by
    intro a b
    refine congrArg some (FixedBytes.ext ?_)
    show leBytes 32 _ = leBytes 32 _
    rw [leNat_derivePublic, leNat_derivePublic, ← Nat.pow_mod, ← Nat.pow_mod, ← pow_mul,
      ← pow_mul, Nat.mul_comm]
  decrypt_encrypt := by
    intro plaintext key nonce
    have htag : ∀ h : Hash256, (h.bytes.take 16).length = 16 := by
      intro h
      rw [List.length_take, h.size]
      rfl
    simp [sampleCrypto, htag]
  tag := by
    intro plaintext key nonce
    show 16 ≤ (plaintext ++ List.take 16 _).length
    rw [List.length_append, List.length_take, FixedBytes.size]
    omega

/-- The ephemeral secret that spells `n`. -/
def sampleSecret (n : Nat) : SecretKey := ⟨(leBytes 64 n).reverse, by simp⟩

end Cashew
