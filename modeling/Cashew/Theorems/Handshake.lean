import Cashew.Logic.Session

/-!
# What the handshake checks

`handle_handshake_response` looks at the age of a response and at a digest that
anyone can compute, not at the node id in it. So a session opened towards one
node may be established with another, or with a reflection of its own init;
`identified_iff` says that it is not exactly when the responses that pass the
other checks name the right node.

The age is an unsigned difference, so a message from a clock that is ahead by a
second counts as older than any limit. `skewTolerated_iff` says that two nodes
complete an immediate handshake exactly when their clocks show the same second.
-/

namespace Cashew.Theorems.Handshake

open Cashew Cashew.Lib

variable {c : SessionCrypto}

/-! ## Who answered -/

/-- An initiator gets established: the session right after the call, and the
response it was given. -/
structure Establishment where
  session : Session
  response : HandshakeMessage

/-- A session whose establishments as an initiator are observed. -/
def observedMachine (c : SessionCrypto) :
    Machine Session (Clock × SessionInput) Establishment where
  step s input :=
    ((s.call c input.1 input.2).1,
     match input.2 with
     | .handleHandshakeResponse response =>
       if (s.handleHandshakeResponse c input.1 response).2 then
         [{ session := (s.handleHandshakeResponse c input.1 response).1, response }]
       else []
     | _ => [])

/-- The session is established with keys from the response's ephemeral key, and
the response is from the node the session was created for and not the session's
own init. -/
structure Identified (c : SessionCrypto) (remoteId : NodeID) (e : Establishment) : Prop where
  established : e.session.state = .established
  derived : ∃ sharedSecret,
    c.exchange e.session.localEphemeral.2 e.response.ephemeralPublic = some sharedSecret ∧
    e.session.keys.txKey = Session.initiatorKey c sharedSecret ∧
    e.session.keys.rxKey = Session.responderKey c sharedSecret
  fromRemote : e.response.nodeId = remoteId
  notReflected : e.response ≠ e.session.lastHandshake

/-- A response the session is waiting for, which passes its checks. -/
structure Accepts (c : SessionCrypto) (s : Session) (clock : Clock)
    (response : HandshakeMessage) : Prop where
  waiting : s.state = .handshakeInit
  fresh : response.tooOld (clock.read 0) = false
  intact : response.verifySignature c.hash = true
  exchanges : (c.exchange s.localEphemeral.2 response.ephemeralPublic).isSome = true

/-- A response that is going to be accepted names the expected node and is not
the init that was sent. -/
def NamesPeer (c : SessionCrypto) (remoteId : NodeID) (s : Session)
    (input : Clock × SessionInput) : Prop :=
  match input.2 with
  | .handleHandshakeResponse response =>
    Accepts c s input.1 response → response.nodeId = remoteId ∧ response ≠ s.lastHandshake
  | _ => True

/-- A session that waits for a response is in the initiator's role. -/
def RoleSet (s : Session) : Prop := s.state = .handshakeInit → s.isInitiator = true

theorem call_roleSet (s : Session) (clock : Clock) (input : SessionInput) (h : RoleSet s) :
    RoleSet (s.call c clock input).1 := by
  intro hnext
  have hmoves := Session.call_moves (c := c) s clock input
  rw [hnext] at hmoves
  generalize hstate : s.state = state at hmoves
  -- the session was waiting already, or it has just opened
  cases hmoves with
  | stay =>
    have hkept := (Session.call_keeps (c := c) s clock input).isInitiator (by simp [hstate])
    exact hkept.trans (h hstate)
  | initiate secret => simp [Session.call, Session.initiateHandshake, hstate]

theorem handleHandshakeResponse_of_accepts {s : Session} {clock : Clock}
    {response : HandshakeMessage} (h : Accepts c s clock response) :
    ∃ sharedSecret, c.exchange s.localEphemeral.2 response.ephemeralPublic = some sharedSecret ∧
      s.handleHandshakeResponse c clock response =
        ({ s with remoteEphemeral := response.ephemeralPublic }.opened c (clock.read 0)
          (clock.read 1) sharedSecret, true) := by
  obtain ⟨sharedSecret, hshared⟩ := Option.isSome_iff_exists.mp h.exchanges
  refine ⟨sharedSecret, hshared, ?_⟩
  simp [Session.handleHandshakeResponse, h.waiting, h.fresh, h.intact, hshared, Session.opened]

theorem handleHandshakeResponse_of_not_accepts {s : Session} {clock : Clock}
    {response : HandshakeMessage} (h : ¬ Accepts c s clock response) :
    (s.handleHandshakeResponse c clock response).2 = false := by
  unfold Session.handleHandshakeResponse
  split
  · rfl
  · rename_i hwaiting
    split
    · rfl
    · rename_i hfresh
      split
      · rfl
      · rename_i hintact
        dsimp only
        cases hexchange : c.exchange s.localEphemeral.2 response.ephemeralPublic with
        | none => rfl
        | some sharedSecret =>
          refine absurd ⟨not_not.mp hwaiting, ?_, ?_, ?_⟩ h
          · simpa using hfresh
          · simpa using hintact
          · simp [hexchange]

/-- What one call lets the environment observe is identified exactly when the
response names the peer. -/
theorem step_identified_iff (remoteId : NodeID) (s : Session) (input : Clock × SessionInput)
    (h : RoleSet s) :
    (∀ e ∈ ((observedMachine c).step s input).2, Identified c remoteId e) ↔
      NamesPeer c remoteId s input := by
  obtain ⟨clock, input⟩ := input
  cases input with
  | handleHandshakeResponse response =>
    by_cases haccepts : Accepts c s clock response
    · obtain ⟨sharedSecret, hshared, hstep⟩ := handleHandshakeResponse_of_accepts haccepts
      have hkeys := Session.opened_keys_of_initiator (c := c)
        (s := { s with remoteEphemeral := response.ephemeralPublic }) (h haccepts.waiting)
        (clock.read 0) (clock.read 1) sharedSecret
      simp only [observedMachine, NamesPeer, hstep, if_true, List.mem_singleton, forall_eq]
      constructor
      · intro hid _
        exact ⟨hid.fromRemote, hid.notReflected⟩
      · intro hnames
        obtain ⟨hremote, hreflected⟩ := hnames haccepts
        exact ⟨rfl, ⟨sharedSecret, hshared, hkeys⟩, hremote, hreflected⟩
    · have hrefused := handleHandshakeResponse_of_not_accepts haccepts
      simp [observedMachine, NamesPeer, hrefused, haccepts]
  | _ => simp [observedMachine, NamesPeer]

/-- **Who answered.** In every run of a session created for a node, whatever the
network injects, each establishment as an initiator rests on a response of that
node other than the session's own init exactly when every response that passes
the checks of the handler is such a one. -/
theorem identified_iff (c : SessionCrypto) (localId remoteId : NodeID) (created : Time)
    (inputs : List (Clock × SessionInput)) :
    (∀ e ∈ ((observedMachine c).run (Session.create localId remoteId created) inputs).2,
        Identified c remoteId e) ↔
      (observedMachine c).StepsMeet (NamesPeer c remoteId)
        (Session.create localId remoteId created) inputs := by
  refine (observedMachine c).run_outputs_iff (P := RoleSet) ?_ ?_ ?_ inputs
  · intro s input h
    exact call_roleSet s input.1 input.2 h
  · intro s input h
    exact step_identified_iff remoteId s input h
  · intro h
    cases h

/-- Node 1 opens a session towards node 2 and gets its own init back. -/
def reflected : List (Clock × SessionInput) :=
  [.initiateHandshake (sampleSecret 6),
    .handleHandshakeResponse (HandshakeMessage.make sampleHash sampleTime
      (sampleCrypto.derivePublic (sampleSecret 6)) (sampleNode 1))].map
    fun input => (.still sampleTime, input)

/-- It is established, with the init for a response. -/
theorem reflected_not_identified :
    ¬ ∀ e ∈ ((observedMachine sampleCrypto).run
        (Session.create (sampleNode 1) (sampleNode 2) sampleTime) reflected).2,
      Identified sampleCrypto (sampleNode 2) e := by
  intro hall
  have hrun : ((observedMachine sampleCrypto).run
      (Session.create (sampleNode 1) (sampleNode 2) sampleTime) reflected).2.map
        (fun e => e.response.nodeId) = [sampleNode 1] := by
    decide +kernel
  obtain ⟨e, he, hnode⟩ := List.mem_map.mp (hrun ▸ List.mem_singleton_self _)
  have hsame := hnode.symm.trans (hall e he).fromRemote
  exact absurd hsame (by decide)

/-! ## Clock skew -/

/-- A handshake whose messages are delivered at once, between a node whose clock
shows `tA` and one whose clock shows `tB`: the two sessions afterwards. The
response is only delivered when it was sent. -/
def immediate (c : SessionCrypto) (nodeA nodeB : NodeID) (tA tB : Time) (a b : SecretKey) :
    Session × Session :=
  let sA := ((Session.create nodeA nodeB tA).initiateHandshake c tA a).1
  let init := sA.lastHandshake
  let sB := ((Session.create nodeB init.nodeId tB).handleHandshakeInit c tB b init).1
  let sent := sB.sendHandshakeResponse c (.still tB)
  if sent.2 then ((sA.handleHandshakeResponse c (.still tA) sent.1.lastHandshake).1, sent.1)
  else (sA, sent.1)

/-- Clocks less than `MAX_AGE_SECONDS` apart do not prevent the handshake, and a
message is only found too old when its age in integers is above the limit. -/
structure SkewTolerated (c : SessionCrypto) (nodeA nodeB : NodeID) (tA tB : Time)
    (a b : SecretKey) : Prop where
  completes : |(tA.secs.toNat : ℤ) - tB.secs.toNat| < 60 →
    (immediate c nodeA nodeB tA tB a b).1.state = .established ∧
    (immediate c nodeA nodeB tA tB a b).2.state = .established
  initAge : (HandshakeMessage.make c.hash tA (c.derivePublic a) nodeA).tooOld tB = true →
    60 < (tB.secs.toNat : ℤ) - tA.secs.toNat
  responseAge : (immediate c nodeA nodeB tA tB a b).2.state = .established →
    (HandshakeMessage.make c.hash tB (c.derivePublic b) nodeB).tooOld tA = true →
    60 < (tA.secs.toNat : ℤ) - tB.secs.toNat

section Skew

variable {nodeA : NodeID} {tA tB : Time} {a b : SecretKey}

/-- An init that is found too old leaves both sides where they were. -/
theorem immediate_of_init_tooOld (nodeB : NodeID) (b : SecretKey)
    (h : (HandshakeMessage.make c.hash tA (c.derivePublic a) nodeA).tooOld tB = true) :
    (immediate c nodeA nodeB tA tB a b).1.state = .handshakeInit ∧
      (immediate c nodeA nodeB tA tB a b).2.state = .disconnected := by
  simp [immediate, Session.create, Session.initiateHandshake, Session.handleHandshakeInit,
    Session.sendHandshakeResponse, h]

/-- An init that is not establishes the responder, and the initiator exactly
when the response is not too old either. -/
theorem immediate_of_init_fresh {sharedSecret : SessionKey} (nodeB : NodeID)
    (h : (HandshakeMessage.make c.hash tA (c.derivePublic a) nodeA).tooOld tB = false)
    (hb : c.exchange b (c.derivePublic a) = some sharedSecret)
    (ha : c.exchange a (c.derivePublic b) = some sharedSecret) :
    (immediate c nodeA nodeB tA tB a b).2.state = .established ∧
      ((immediate c nodeA nodeB tA tB a b).1.state = .established ↔
        (HandshakeMessage.make c.hash tB (c.derivePublic b) nodeB).tooOld tA = false) := by
  have hkey : (HandshakeMessage.make c.hash tA (c.derivePublic a) nodeA).ephemeralPublic =
    c.derivePublic a := rfl
  have hback : (HandshakeMessage.make c.hash tB (c.derivePublic b) nodeB).ephemeralPublic =
    c.derivePublic b := rfl
  cases hold : (HandshakeMessage.make c.hash tB (c.derivePublic b) nodeB).tooOld tA <;>
    simp [immediate, Session.create, Session.initiateHandshake, Session.handleHandshakeInit,
      Session.sendHandshakeResponse, Session.handleHandshakeResponse, Session.deriveSessionKeys,
      HandshakeMessage.make_verifySignature, h, hb, ha, hkey, hback, hold]

end Skew

/-- **Clock skew.** Between two nodes whose key exchange works, the handshake
tolerates the skew exactly when the clocks show the same second, or when the
responder's is so far ahead that the init is really too old. -/
theorem skewTolerated_iff (hc : c.Lawful) (nodeA nodeB : NodeID) (tA tB : Time)
    (a b : SecretKey) (hexchange : (c.exchange a (c.derivePublic b)).isSome = true) :
    SkewTolerated c nodeA nodeB tA tB a b ↔
      tA.secs = tB.secs ∨ tA.secs.toNat + 60 < tB.secs.toNat := by
  obtain ⟨sharedSecret, ha⟩ := Option.isSome_iff_exists.mp hexchange
  have hb : c.exchange b (c.derivePublic a) = some sharedSecret := by
    rw [← hc.exchange_comm, ha]
  have hinit := HandshakeMessage.make_tooOld_iff c.hash tA tB (c.derivePublic a) nodeA
  have hresponse := HandshakeMessage.make_tooOld_iff c.hash tB tA (c.derivePublic b) nodeB
  have hsame : tA.secs = tB.secs ↔ tA.secs.toNat = tB.secs.toNat := UInt64.toNat_inj.symm
  rw [hsame]
  cases hold : (HandshakeMessage.make c.hash tA (c.derivePublic a) nodeA).tooOld tB with
  | true =>
    -- the init is refused: rightly so if the responder's clock is that far ahead
    have hstates := immediate_of_init_tooOld nodeB b hold
    have hskewed := hinit.mp hold
    constructor
    · intro h
      have hage := h.initAge hold
      omega
    · intro hcases
      refine ⟨?_, ?_, ?_⟩
      · intro hskew
        have hbounds := abs_lt.mp hskew
        omega
      · intro _
        omega
      · intro hB
        cases hstates.2.symm.trans hB
  | false =>
    -- the init passes, so the response is what decides
    obtain ⟨hB, hA⟩ := immediate_of_init_fresh nodeB hold hb ha
    have hpassed : ¬ (tB.secs.toNat < tA.secs.toNat ∨ tA.secs.toNat + 60 < tB.secs.toNat) := by
      rw [← hinit, hold]
      decide
    constructor
    · intro h
      by_contra hcases
      have hage := h.responseAge hB (hresponse.mpr (by omega))
      omega
    · intro hcases
      have hfresh : (HandshakeMessage.make c.hash tB (c.derivePublic b) nodeB).tooOld tA =
          false := by
        rw [← Bool.not_eq_true, hresponse]
        omega
      refine ⟨fun _ => ⟨hA.mpr hfresh, hB⟩, ?_, ?_⟩
      · intro hinitOld
        cases hold.symm.trans hinitOld
      · intro _ hresponseOld
        cases hfresh.symm.trans hresponseOld

/-- Two clocks on the same second. -/
theorem same_second_tolerated :
    SkewTolerated sampleCrypto (sampleNode 1) (sampleNode 2) sampleTime sampleTime
      (sampleSecret 6) (sampleSecret 7) :=
  (skewTolerated_iff sampleCrypto_lawful _ _ _ _ _ _ rfl).mpr (.inl rfl)

/-- An initiator whose clock is one second ahead is never answered. -/
theorem one_second_not_tolerated :
    ¬ SkewTolerated sampleCrypto (sampleNode 1) (sampleNode 2) ⟨1201, by decide⟩ sampleTime
      (sampleSecret 6) (sampleSecret 7) := by
  intro h
  have hold : (HandshakeMessage.make sampleCrypto.hash ⟨1201, by decide⟩
      (sampleCrypto.derivePublic (sampleSecret 6)) (sampleNode 1)).tooOld sampleTime = true := by
    decide
  have hstates := immediate_of_init_tooOld (sampleNode 2) (sampleSecret 7) hold
  cases hstates.2.symm.trans (h.completes (by decide)).2

end Cashew.Theorems.Handshake
