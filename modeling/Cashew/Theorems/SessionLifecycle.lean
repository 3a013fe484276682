import Cashew.Logic.Session

/-!
# The life of a session

Two facts about every run of one session, whatever it is sent and whether the
key exchange succeeds or not.

`lifecycle`: only an established session encrypts or decrypts, a session gets
established by one of the two handshakes only, and a closed one stays closed
with its keys zeroed. `nonces_distinct`: the frames of a run carry pairwise
distinct nonces, because the counter in them advances with every frame and no
call sets it back.
-/

namespace Cashew.Theorems.SessionLifecycle

open Cashew Cashew.Lib

variable {c : SessionCrypto}

/-- The session after a run. -/
abbrev after (c : SessionCrypto) (s : Session) (inputs : List (Clock × SessionInput)) : Session :=
  ((sessionMachine c).run s inputs).1

theorem after_snoc (s : Session) (inputs : List (Clock × SessionInput)) (clock : Clock)
    (input : SessionInput) :
    after c s (inputs ++ [(clock, input)]) = ((after c s inputs).call c clock input).1 :=
  (sessionMachine c).run_append s inputs [(clock, input)]

/-! ## States -/

/-- A call of the given kind took the session out of the disconnected state, and
since then it has been in the given one. -/
def Since (c : SessionCrypto) (s : Session) (inputs : List (Clock × SessionInput))
    (kind : SessionInput → Prop) (state : SessionState) : Prop :=
  ∃ front clock input back, inputs = front ++ (clock, input) :: back ∧ kind input ∧
    (after c s front).state = .disconnected ∧
    ∀ done, done <+: back → (after c s (front ++ (clock, input) :: done)).state = state

/-- `initiate_handshake`. -/
def IsInitiate (input : SessionInput) : Prop := ∃ secret, input = .initiateHandshake secret

/-- `handle_handshake_init`. -/
def IsAccept (input : SessionInput) : Prop :=
  ∃ secret init, input = .handleHandshakeInit secret init

/-- What one more call does after a run. -/
structure Lifecycle (c : SessionCrypto) (s : Session) (inputs : List (Clock × SessionInput))
    (clock : Clock) (input : SessionInput) : Prop where
  encrypts : ∀ frame, ((after c s inputs).call c clock input).2 = .encrypted (some frame) →
    (after c s inputs).state = .established
  decrypts : ∀ plaintext,
    ((after c s inputs).call c clock input).2 = .decrypted (some plaintext) →
    (after c s inputs).state = .established
  entered : (after c s inputs).state ≠ .established →
    ((after c s inputs).call c clock input).1.state = .established →
    ((∃ response, input = .handleHandshakeResponse response) ∧
        Since c s inputs IsInitiate .handshakeInit) ∨
      (input = .sendHandshakeResponse ∧ Since c s inputs IsAccept .handshakeResponse)
  staysClosed : (after c s inputs).state = .closed → ∀ more,
    (after c s (inputs ++ more)).state = .closed ∧
      (after c s (inputs ++ more)).keys.txKey = FixedBytes.zero ∧
      (after c s (inputs ++ more)).keys.rxKey = FixedBytes.zero ∧
      (after c s (inputs ++ more)).localEphemeral = (FixedBytes.zero, FixedBytes.zero)

/-- A state that only one kind of call leads to, out of the disconnected one, has
been the session's state since such a call. -/
theorem since_of_state {s : Session} {inputs : List (Clock × SessionInput)}
    {kind : SessionInput → Prop} {state : SessionState} (hstart : s.state ≠ state)
    (hend : (after c s inputs).state = state)
    (hkind : ∀ from' input, Session.Moves from' input state → from' ≠ state →
      from' = .disconnected ∧ kind input) :
    Since c s inputs kind state := by
  obtain ⟨front, ⟨clock, input⟩, back, hsplit, hnot, hsince⟩ :=
    (sessionMachine c).exists_entry (A := fun t => t.state = state) hstart hend
  have hentered : ((after c s front).call c clock input).1.state = state := by
    rw [← after_snoc]
    exact hsince [] List.nil_prefix
  have hmoves := Session.call_moves (c := c) (after c s front) clock input
  rw [hentered] at hmoves
  obtain ⟨hdisconnected, hcall⟩ := hkind _ _ hmoves hnot
  exact ⟨front, clock, input, back, hsplit, hcall, hdisconnected, hsince⟩

/-- The keys of a closed session are gone. -/
def Wiped (s : Session) : Prop :=
  s.state = .closed → s.keys.txKey = FixedBytes.zero ∧ s.keys.rxKey = FixedBytes.zero ∧
    s.localEphemeral = (FixedBytes.zero, FixedBytes.zero)

theorem call_wiped (s : Session) (clock : Clock) (input : SessionInput) (h : Wiped s) :
    Wiped (s.call c clock input).1 := by
  by_cases hclosed : s.state = .closed
  · rw [Session.call_of_closed hclosed]
    exact h
  · intro hnext
    -- only `close` leads to the closed state
    have hmoves := Session.call_moves (c := c) s clock input
    rw [hnext] at hmoves
    generalize hstate : s.state = state at hmoves
    cases hmoves with
    | stay => exact absurd hstate hclosed
    | close =>
      simp [Session.call, Session.close, hclosed]

theorem after_closed {s : Session} (h : s.state = .closed) (more : List (Clock × SessionInput)) :
    after c s more = s := by
  induction more with
  | nil => rfl
  | cons input rest ih =>
    show after c (s.call c input.1 input.2).1 rest = s
    rw [Session.call_of_closed h]
    exact ih

/-- **The life of a session**, after any run of a new one. -/
theorem lifecycle (c : SessionCrypto) (localId remoteId : NodeID) (created : Time)
    (inputs : List (Clock × SessionInput)) (clock : Clock) (input : SessionInput) :
    Lifecycle c (Session.create localId remoteId created) inputs clock input := by
  refine ⟨?_, ?_, ?_, ?_⟩
  · intro frame hreturn
    cases input with
    | encryptMessage random plaintext =>
      exact (Session.encryptMessage_frame (SessionReturn.encrypted.inj hreturn)).1
    | _ => cases hreturn
  · intro plaintext hreturn
    cases input with
    | decryptMessage ciphertext =>
      by_contra hstate
      simp only [Session.call, Session.decryptMessage, if_pos hstate] at hreturn
      cases hreturn
    | _ => cases hreturn
  · intro hbefore hafter
    -- established is reached by two moves, and each starts where one move alone leads
    have hmoves := Session.call_moves (c := c)
      (after c (Session.create localId remoteId created) inputs) clock input
    rw [hafter] at hmoves
    generalize hstate : (after c (Session.create localId remoteId created) inputs).state = state
      at hmoves hbefore
    cases hmoves with
    | stay => exact absurd rfl hbefore
    | finish response =>
      refine .inl ⟨⟨response, rfl⟩, since_of_state (fun h => by cases h) hstate ?_⟩
      intro from' call hmove hne
      cases hmove with
      | stay => exact absurd rfl hne
      | initiate secret => exact ⟨rfl, secret, rfl⟩
    | respond =>
      refine .inr ⟨rfl, since_of_state (fun h => by cases h) hstate ?_⟩
      intro from' call hmove hne
      cases hmove with
      | stay => exact absurd rfl hne
      | accept secret init => exact ⟨rfl, secret, init, rfl⟩
  · intro hclosed more
    -- closed: the keys are gone, and no call changes a closed session
    have hwiped : Wiped (after c (Session.create localId remoteId created) inputs) :=
      (sessionMachine c).run_invariant (P := Wiped) (fun s i => call_wiped s i.1 i.2)
        (fun h => by cases h) inputs
    have hsame : after c (Session.create localId remoteId created) (inputs ++ more) =
        after c (Session.create localId remoteId created) inputs := by
      unfold after
      rw [Machine.run_append]
      exact after_closed hclosed more
    rw [hsame]
    exact ⟨hclosed, hwiped hclosed⟩

/-! ## Nonces -/

/-- The frames among what the calls of a run returned. -/
def frames (returns : List SessionReturn) : List Bytes :=
  returns.filterMap fun
    | .encrypted frame => frame
    | _ => none

/-- The nonce in front of a frame, which is the one it was encrypted with. -/
def frameNonce (frame : Bytes) : Bytes := frame.take 12

/-- The counter in a nonce. -/
def nonceCount (nonce : Bytes) : Nat := leNat (nonce.take 8)

def isEncrypt : SessionInput → Bool
  | .encryptMessage _ _ => true
  | _ => false

/-- The number of calls of `encrypt_message`. -/
def encryptCalls (inputs : List (Clock × SessionInput)) : Nat :=
  inputs.countP fun input => isEncrypt input.2

/-- A call produces no frame and leaves the counter alone, or it is an encryption
that puts the counter into its frame and advances it. -/
theorem call_frame (s : Session) (clock : Clock) (input : SessionInput) :
    (frames [(s.call c clock input).2] = [] ∧
        (s.call c clock input).1.nonceCounter = s.nonceCounter) ∨
      (isEncrypt input = true ∧ ∃ frame, frames [(s.call c clock input).2] = [frame] ∧
        nonceCount (frameNonce frame) = s.nonceCounter.toNat ∧
        (s.call c clock input).1.nonceCounter = s.nonceCounter + 1) := by
  have hkept := Session.call_keeps (c := c) s clock input
  cases input with
  | encryptMessage random plaintext =>
    by_cases hstate : s.state = .established
    · refine .inr ⟨rfl, (s.generateNonce random).bytes ++
        c.encrypt plaintext s.keys.txKey (s.generateNonce random), ?_, ?_, ?_⟩
      · simp [frames, Session.call, Session.encryptMessage, hstate]
      · have hcount : s.nonceCounter.toNat < 256 ^ 8 := UInt64.toNat_lt _
        simp only [nonceCount, frameNonce, Session.generateNonce, List.append_assoc,
          List.take_take]
        rw [List.take_append_of_le_length (by simp), List.take_of_length_le (by simp), u64Bytes,
          leNat_leBytes, Nat.mod_eq_of_lt hcount]
      · simp [Session.call, Session.encryptMessage, hstate]
    · refine .inl ⟨?_, ?_⟩
      · simp [frames, Session.call, Session.encryptMessage, hstate]
      · simp [Session.call, Session.encryptMessage, hstate]
  | _ => exact .inl ⟨rfl, hkept.nonceCounter (by simp)⟩

theorem frames_append (front back : List SessionReturn) :
    frames (front ++ back) = frames front ++ frames back := List.filterMap_append ..

/-- Along a run that does not exhaust the counter, the counters in the frames
start where the session's stands and never repeat. -/
theorem frames_from (inputs : List (Clock × SessionInput)) :
    ∀ s : Session, s.nonceCounter.toNat + encryptCalls inputs < 2 ^ 64 →
      (∀ frame ∈ frames ((sessionMachine c).run s inputs).2,
        s.nonceCounter.toNat ≤ nonceCount (frameNonce frame)) ∧
      ((frames ((sessionMachine c).run s inputs).2).map frameNonce).Nodup := by
  induction inputs with
  | nil =>
    intro s _
    exact ⟨fun frame hframe => (by cases hframe), List.nodup_nil⟩
  | cons input rest ih =>
    intro s hroom
    have hcalls : encryptCalls (input :: rest) =
        encryptCalls rest + if isEncrypt input.2 then 1 else 0 := List.countP_cons ..
    rw [hcalls] at hroom
    have hreturns : ((sessionMachine c).run s (input :: rest)).2 =
        [(s.call c input.1 input.2).2] ++
          ((sessionMachine c).run (s.call c input.1 input.2).1 rest).2 := rfl
    rw [hreturns, frames_append]
    rcases call_frame (c := c) s input.1 input.2 with
      ⟨hnone, hcounter⟩ | ⟨hencrypt, frame, hframe, hcount, hcounter⟩
    -- no frame: the counter stays where it is
    · obtain ⟨hbound, hnodup⟩ := ih (s.call c input.1 input.2).1 (by rw [hcounter]; omega)
      rw [hnone, List.nil_append]
      rw [hcounter] at hbound
      exact ⟨hbound, hnodup⟩
    · rw [if_pos hencrypt] at hroom
      -- a frame: by the bound on the calls the counter does not wrap
      have hnext : (s.nonceCounter + 1).toNat = s.nonceCounter.toNat + 1 := by
        rw [UInt64.toNat_add]
        exact Nat.mod_eq_of_lt (by simp; omega)
      obtain ⟨hbound, hnodup⟩ := ih (s.call c input.1 input.2).1 (by rw [hcounter, hnext]; omega)
      rw [hcounter, hnext] at hbound
      rw [hframe]
      refine ⟨?_, ?_⟩
      · intro other hother
        rcases List.mem_append.mp hother with hnow | hlater
        · rw [List.mem_singleton.mp hnow, hcount]
        · have := hbound other hlater
          omega
      · -- later frames carry larger counters than this one
        rw [List.map_append, List.map_singleton, List.singleton_append, List.nodup_cons]
        refine ⟨?_, hnodup⟩
        intro hmem
        obtain ⟨other, hother, hsame⟩ := List.mem_map.mp hmem
        have := hbound other hother
        rw [hsame, hcount] at this
        omega

/-- **No nonce is used twice.** With fewer than `2 ^ 64` calls of
`encrypt_message`, whatever is drawn for the random part and whatever else
happens to the session, the frames of a run have distinct nonces. -/
theorem nonces_distinct (c : SessionCrypto) (localId remoteId : NodeID) (created : Time)
    (inputs : List (Clock × SessionInput)) (hcalls : encryptCalls inputs < 2 ^ 64) :
    ((frames ((sessionMachine c).run (Session.create localId remoteId created) inputs).2).map
      frameNonce).Nodup := by
  refine (frames_from inputs _ ?_).2
  show (0 : UInt64).toNat + encryptCalls inputs < 2 ^ 64
  rw [UInt64.toNat_zero]
  omega

/-- A session that is opened and encrypts twice with the same random part, with
a repeated handshake call in between. -/
def twoFrames : List (Clock × SessionInput) :=
  [.initiateHandshake (sampleSecret 6),
    .handleHandshakeResponse (HandshakeMessage.make sampleHash sampleTime
      (sampleCrypto.derivePublic (sampleSecret 15)) (sampleNode 2)),
    .encryptMessage FixedBytes.zero [1], .initiateHandshake (sampleSecret 7),
    .encryptMessage FixedBytes.zero [1]].map fun input => (.still sampleTime, input)

theorem twoFrames_distinct :
    let returns := ((sessionMachine sampleCrypto).run
      (Session.create (sampleNode 1) (sampleNode 2) sampleTime) twoFrames).2
    (frames returns).length = 2 ∧ ((frames returns).map frameNonce).Nodup :=
  ⟨by decide +kernel, nonces_distinct sampleCrypto (sampleNode 1) (sampleNode 2) sampleTime
    twoFrames (by decide)⟩

end Cashew.Theorems.SessionLifecycle
