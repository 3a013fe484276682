import Cashew.Logic.PeerManager

/-!
# Connections and the sessions behind them

A connection keeps a raw pointer to a session of the `SessionManager`. The
`PeerManager` never learns that a session is given up: `close_session`,
`close_all_sessions`, `cleanup_stale_sessions` and an inbound handshake that
replaces a session leave its connection behind. `linked_iff` says that nothing else
breaks the link, in any order of the calls of both.
-/

namespace Cashew.Theorems.PeerSessions

open Cashew Cashew.Lib PeerManager

variable {c : SessionCrypto}

/-- Every connection's session is held by the session manager for that peer. -/
def Linked (s : PeerSystem) : Prop :=
  ∀ p conn, s.peers.activeConnections.find? p = some conn → s.sessions.Holds conn.session p

/-- The call does not give up the session of a connected peer. -/
def KeepsSessions (s : PeerSystem) (input : Clock × PeerInput) : Prop :=
  match input.2 with
  | .closeSession n => s.peers.isConnected n = false
  | .closeAllSessions => ∀ p, s.peers.isConnected p = false
  | .cleanupStaleSessions =>
    ∀ p conn, s.peers.activeConnections.find? p = some conn →
      ∃ i, s.sessions.sessions[i]? = some conn.session ∧
        s.sessions.hasTimedOut conn.session (input.1.read i) = false
  | .handleInboundHandshake _ handshake =>
    s.peers.isConnected handshake.nodeId = true →
      ∀ ref session, s.sessions.getSession handshake.nodeId = some (ref, session) →
        ¬ (session.state = .closed ∨ session.hasTimedOut (input.1.read 0) = true)
  | _ => True

/-! ## The peer manager's calls -/

/-- What a change of the peer manager may do: connections that stay keep their
session. -/
theorem Linked.of_peers {s : PeerSystem} {peers : PeerManager} (h : Linked s)
    (hsub : ∀ p conn, peers.activeConnections.find? p = some conn →
      ∃ conn', s.peers.activeConnections.find? p = some conn' ∧ conn'.session = conn.session) :
    Linked { s with peers } := by
  intro p conn hconn
  obtain ⟨conn', hconn', hsession⟩ := hsub p conn hconn
  have hholds := h p conn' hconn'
  rwa [hsession] at hholds

theorem Linked.disconnectPeer {s : PeerSystem} (h : Linked s) (p : NodeID) :
    Linked { s with peers := (s.peers.disconnectPeer p).1 } := by
  refine h.of_peers fun q conn hconn => ?_
  exact ⟨conn, find?_of_disconnectPeer hconn, rfl⟩

theorem Linked.disconnectPeers {s : PeerSystem} (h : Linked s) (peers : List NodeID) :
    Linked { s with peers := (s.peers.disconnectPeers peers).1 } := by
  refine h.of_peers fun p conn hconn => ?_
  exact ⟨conn, find?_of_disconnectPeers hconn, rfl⟩

/-- A new connection refers to the session that was made or found for the peer. -/
theorem Linked.openConnection {s : PeerSystem} (h : Linked s) (clock : Clock) (secret : SecretKey)
    (p : NodeID) : Linked (s.openConnection c clock secret p).1 := by
  have hcall : ∀ session : Session,
      (session.initiateHandshake c (clock.read 1) secret).1.remoteNodeId =
        session.remoteNodeId := fun session =>
    Session.initiateHandshake_remoteNodeId session _ secret
  have hold : ∀ q conn, s.peers.activeConnections.find? q = some conn →
      (((s.sessions.createOutboundSession (clock.read 0) p).1.withSession
        (s.sessions.createOutboundSession (clock.read 0) p).2 fun session =>
          session.initiateHandshake c (clock.read 1) secret).1).Holds conn.session q := by
    intro q conn hconn
    rw [SessionManager.holds_withSession hcall]
    exact SessionManager.holds_createOutboundSession _ (h q conn hconn)
  unfold PeerSystem.openConnection
  dsimp only
  split
  · intro q conn hconn
    change (s.peers.activeConnections.insert p _).find? q = some conn at hconn
    rw [OrdMap.find?_insert] at hconn
    split at hconn
    · rename_i hpq
      subst hpq
      cases hconn
      show SessionManager.Holds _ _ _
      rw [SessionManager.holds_withSession hcall]
      exact SessionManager.createOutboundSession_holds _ _ _
    · exact hold q conn hconn
  · exact hold

theorem Linked.connectToPeer {s : PeerSystem} (h : Linked s) (clock : Clock) (secret : SecretKey)
    (p : NodeID) : Linked (s.connectToPeer c clock secret p).1 := by
  unfold PeerSystem.connectToPeer
  split_ifs
  · exact h
  · exact h
  · exact h
  · exact h.openConnection clock secret p

/-- Sending changes the counters of the session and of the connection. -/
theorem Linked.sendToPeer {s : PeerSystem} (h : Linked s) (clock : Clock) (random : FixedBytes 4)
    (p : NodeID) (data : Bytes) : Linked (s.sendToPeer c clock random p data) := by
  have hsessions : ∀ ref q, s.sessions.Holds ref q →
      (s.sendToPeer c clock random p data).sessions.Holds ref q := by
    intro ref q hholds
    unfold PeerSystem.sendToPeer
    split
    · exact hholds
    · rename_i conn _
      have hcalled : (s.sessions.withSession conn.session fun session =>
          (session.encryptMessage c (clock.read 0) random data).map id Option.isSome).1.Holds
            ref q := by
        refine (SessionManager.holds_withSession ?_).mpr hholds
        exact fun session => Session.encryptMessage_remoteNodeId session _ random data
      unfold PeerSystem.sendOver
      dsimp only
      split
      · exact hcalled
      · exact hcalled
  intro q conn hconn
  obtain ⟨conn', hconn', hsame⟩ := PeerSystem.sendToPeer_find? hconn
  rw [← hsame]
  exact hsessions _ q (h q conn' hconn')

/-! ## The session manager's calls -/

theorem linked_closeSession_iff {s : PeerSystem} (h : Linked s) (n : NodeID) :
    Linked { s with sessions := s.sessions.closeSession n } ↔ s.peers.isConnected n = false := by
  constructor
  · intro hafter
    rw [not_isConnected_iff]
    by_contra hconn
    obtain ⟨conn, hconn⟩ := Option.ne_none_iff_exists'.mp hconn
    exact (SessionManager.holds_closeSession.mp (hafter n conn hconn)).2 rfl
  · intro hnot p conn hconn
    refine SessionManager.holds_closeSession.mpr ⟨h p conn hconn, ?_⟩
    rintro rfl
    rw [not_isConnected_iff.mp hnot] at hconn
    cases hconn

theorem linked_closeAllSessions_iff (s : PeerSystem) :
    Linked { s with sessions := s.sessions.closeAllSessions } ↔
      ∀ p, s.peers.isConnected p = false := by
  constructor
  · intro hafter p
    rw [not_isConnected_iff]
    by_contra hconn
    obtain ⟨conn, hconn⟩ := Option.ne_none_iff_exists'.mp hconn
    exact SessionManager.holds_closeAllSessions (hafter p conn hconn)
  · intro hnot p conn hconn
    rw [not_isConnected_iff.mp (hnot p)] at hconn
    cases hconn

theorem linked_handleInboundHandshake_iff {s : PeerSystem} (h : Linked s) (clock : Clock)
    (secret : SecretKey) (handshake : HandshakeMessage) :
    Linked { s with sessions :=
        (s.sessions.handleInboundHandshake c clock secret handshake).1 } ↔
      (s.peers.isConnected handshake.nodeId = true →
        ∀ ref session, s.sessions.getSession handshake.nodeId = some (ref, session) →
          ¬ (session.state = .closed ∨ session.hasTimedOut (clock.read 0) = true)) := by
  constructor
  · intro hafter hconn
    obtain ⟨conn, hconn⟩ := isConnected_iff.mp hconn
    exact (SessionManager.holds_handleInboundHandshake c clock secret
      (h _ conn hconn)).mp (hafter _ conn hconn) rfl
  · intro hkeep p conn hconn
    refine (SessionManager.holds_handleInboundHandshake c clock secret (h p conn hconn)).mpr ?_
    rintro rfl
    exact hkeep (isConnected_iff.mpr ⟨conn, hconn⟩)

/-! ## Runs -/

/-- **One call.** It keeps every link just when it gives up no session of a
connected peer. -/
theorem call_linked_iff {s : PeerSystem} (h : Linked s) (clock : Clock) (input : PeerInput) :
    Linked (s.call c clock input).1 ↔ KeepsSessions s (clock, input) := by
  cases input with
  | connectToPeer secret p => exact iff_of_true (h.connectToPeer clock secret p) trivial
  | disconnectPeer p => exact iff_of_true (h.disconnectPeer p) trivial
  | disconnectAll => exact iff_of_true (h.disconnectPeers _) trivial
  | cleanupIdleConnections => exact iff_of_true (h.disconnectPeers _) trivial
  | sendToPeer random p data => exact iff_of_true (h.sendToPeer clock random p data) trivial
  | addDiscoveredPeer nodeId address => exact iff_of_true h trivial
  | updatePeerCapabilities nodeId capabilities => exact iff_of_true h trivial
  | handlePeerResponse msg =>
    refine iff_of_true (h.of_peers fun q conn hconn => ?_) trivial
    rw [handlePeerResponse_activeConnections] at hconn
    exact ⟨conn, hconn, rfl⟩
  | createOutboundSession n =>
    refine iff_of_true (fun q conn hconn => ?_) trivial
    exact SessionManager.holds_createOutboundSession _ (h q conn hconn)
  | handleInboundHandshake secret handshake =>
    exact linked_handleInboundHandshake_iff h clock secret handshake
  | callSession ref input =>
    refine iff_of_true (fun q conn hconn => ?_) trivial
    refine (SessionManager.holds_withSession ?_).mpr (h q conn hconn)
    exact fun session => Session.call_remoteNodeId session clock input
  | closeSession n => exact linked_closeSession_iff h n
  | closeAllSessions => exact linked_closeAllSessions_iff s
  | cleanupStaleSessions =>
    refine forall_congr' fun p => forall_congr' fun conn => imp_congr_right fun hconn => ?_
    exact SessionManager.holds_cleanupStaleSessions.trans (and_iff_right (h p conn hconn))

/-- **Linked connections.** In a run of both managers every connection refers to a
session that is still held for its peer, in every state, just when no call closes,
removes or replaces the session of a peer that is connected then. -/
theorem linked_iff (c : SessionCrypto) (localNodeId : NodeID) (policy : ConnectionPolicy)
    (discovery : PeerDiscovery) (inputs : List (Clock × PeerInput)) :
    (peerMachine c).Always Linked (PeerSystem.fresh localNodeId policy discovery) inputs ↔
      (peerMachine c).StepsMeet KeepsSessions (PeerSystem.fresh localNodeId policy discovery)
        inputs := by
  refine (peerMachine c).always_iff (P := fun _ => True) (Q := Linked) (C := KeepsSessions)
    (fun _ _ _ => trivial) (fun s input _ h => call_linked_iff h input.1 input.2) trivial ?_ inputs
  intro p conn hconn
  cases hconn

/-- A node that has just connected to another one. -/
def connectedSystem : PeerSystem :=
  ((PeerSystem.fresh (sampleNode 1) {} {}).call sampleCrypto (Clock.still sampleTime)
    (.connectToPeer (sampleSecret 1) (sampleNode 2))).1

/-- Connecting, then closing the session: the connection stays and its session is
gone. -/
theorem connection_without_session :
    ¬ (peerMachine sampleCrypto).Always Linked (PeerSystem.fresh (sampleNode 1) {} {})
      [(Clock.still sampleTime, .connectToPeer (sampleSecret 1) (sampleNode 2)),
       (Clock.still sampleTime, .closeSession (sampleNode 2))] := by
  rintro ⟨-, hlinked, hclosed⟩
  have hnot : connectedSystem.peers.isConnected (sampleNode 2) = false :=
    (call_linked_iff hlinked _ _).mp hclosed
  exact absurd hnot (by decide)

end Cashew.Theorems.PeerSessions
