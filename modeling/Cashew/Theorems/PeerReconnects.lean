import Cashew.Logic.PeerManager

/-!
# Connecting again

Disconnecting drops the connection and leaves the session where it is. The next
`connect_to_peer` finds that session, cannot start a handshake on it, and counts a
failure; after enough of these the peer is refused. `reconnects_iff` says exactly
when a peer that was disconnected is connected again: when its session has been
given up meanwhile, or was never started.
-/

namespace Cashew.Theorems.PeerReconnects

open Cashew Cashew.Lib PeerManager PeerSystem

variable {c : SessionCrypto}

/-- A state and the callbacks made so far. -/
abbrev Logged := PeerSystem × List PeerEvent

/-- The call connects to a peer that was disconnected before, there is room for it,
not too many failures are counted for it, and it is not the node itself. -/
structure Returns (st : Logged) (input : Clock × PeerInput) (p : NodeID) : Prop where
  call : ∃ secret, input.2 = .connectToPeer secret p
  before : .disconnected p ∈ st.2
  room : st.1.peers.canConnectMorePeers = true
  failures : st.1.peers.hasFailedTooOften p = false
  foreign : p ≠ st.1.peers.localNodeId

/-- A peer that returns is connected again. -/
def Reconnects (c : SessionCrypto) (st : Logged) (input : Clock × PeerInput) : Prop :=
  ∀ p, Returns st input p → (st.1.call c input.1 input.2).1.peers.isConnected p = true

/-- No failure is counted for a peer that was disconnected. -/
def NeverBlamed (st : Logged) : Prop :=
  ∀ p, .disconnected p ∈ st.2 → st.1.peers.failureCount p = 0

/-- A peer that returns is connected already, or it is not known to be unreliable
and has no session or a disconnected one. -/
def CanReturn (st : Logged) (input : Clock × PeerInput) : Prop :=
  ∀ p, Returns st input p →
    st.1.peers.isConnected p = true ∨ st.1.peers.isUnreliable p = false ∧ st.1.CanOpen p

/-! ## One call -/

/-- Connecting ends with the peer connected when the tests pass and a session can
be opened, or when it was connected before. -/
theorem connectToPeer_isConnected {s : PeerSystem} {p : NodeID} (clock : Clock)
    (secret : SecretKey) :
    (s.connectToPeer c clock secret p).1.peers.isConnected p = true ↔
      s.peers.isConnected p = true ∨ MayConnect s.peers p ∧ s.CanOpen p := by
  by_cases hmay : MayConnect s.peers p
  · rw [connectToPeer_of_mayConnect hmay, hmay.apart]
    by_cases hopen : s.CanOpen p
    · obtain ⟨ref, sessions, h⟩ := openConnection_of_canOpen (c := c) hopen clock secret
      rw [h]
      refine iff_of_true ?_ (.inr ⟨hmay, hopen⟩)
      exact (isConnected_handleSuccessfulConnection _ _ _ _ _).mpr (.inl rfl)
    · obtain ⟨sessions, h⟩ := openConnection_of_not_canOpen (c := c) hopen clock secret
      rw [h]
      refine iff_of_false ?_ ?_
      · exact fun hconn => Bool.false_ne_true (hmay.apart.symm.trans hconn)
      · rintro (hfalse | hopen')
        · cases hfalse
        · exact hopen hopen'.2
  · rw [connectToPeer_of_not_mayConnect hmay]
    exact (or_iff_left fun h => hmay h.1).symm

theorem reconnects_step_iff (st : Logged) (input : Clock × PeerInput) :
    Reconnects c st input ↔ CanReturn st input := by
  refine forall_congr' fun p => imp_congr_right fun hret => ?_
  obtain ⟨secret, hcall⟩ := hret.call
  rw [hcall]
  show (st.1.connectToPeer c input.1 secret p).1.peers.isConnected p = true ↔ _
  rw [connectToPeer_isConnected]
  by_cases hconn : st.1.peers.isConnected p = true
  · exact iff_of_true (.inl hconn) (.inl hconn)
  · rw [or_iff_right hconn, or_iff_right hconn]
    refine and_congr_left fun _ => ⟨fun hmay => hmay.reliable, fun hreliable => ?_⟩
    exact ⟨Bool.eq_false_iff.mpr hconn, hret.room, hret.foreign, hret.failures, hreliable⟩

/-! ## Failures -/

/-- What every call but `connect_to_peer` leaves alone. -/
structure Quiet (s s' : PeerSystem) (events : List PeerEvent) : Prop where
  failures : s'.peers.connectionFailureCount = s.peers.connectionFailureCount
  connected : ∀ q, s'.peers.isConnected q = true → s.peers.isConnected q = true
  events : ∀ q, .disconnected q ∈ events → s.peers.isConnected q = true

theorem Quiet.of_sessions (s : PeerSystem) (sessions : SessionManager) :
    Quiet s { s with sessions } [] :=
  ⟨rfl, fun _ h => h, (fun _ h => nomatch h)⟩

theorem Quiet.disconnectPeers (s : PeerSystem) (peers : List NodeID) :
    Quiet s { s with peers := (s.peers.disconnectPeers peers).1 }
      (s.peers.disconnectPeers peers).2 := by
  refine ⟨disconnectPeers_failures _ _, fun q hconn => ?_, fun q => disconnectPeers_event⟩
  obtain ⟨conn, hconn⟩ := isConnected_iff.mp hconn
  exact isConnected_iff.mpr ⟨conn, find?_of_disconnectPeers hconn⟩

theorem Quiet.sendToPeer (s : PeerSystem) (clock : Clock) (random : FixedBytes 4) (p : NodeID)
    (data : Bytes) : Quiet s (s.sendToPeer c clock random p data) [] := by
  refine ⟨sendToPeer_failures s clock random p data, fun q hconn => ?_, (fun _ h => nomatch h)⟩
  obtain ⟨conn, hconn⟩ := isConnected_iff.mp hconn
  obtain ⟨conn', hconn', -⟩ := sendToPeer_find? hconn
  exact isConnected_iff.mpr ⟨conn', hconn'⟩

theorem call_quiet (s : PeerSystem) (clock : Clock) (input : PeerInput)
    (h : ∀ secret p, input ≠ .connectToPeer secret p) :
    Quiet s (s.call c clock input).1 (s.call c clock input).2 := by
  cases input with
  | connectToPeer secret p => exact absurd rfl (h secret p)
  | disconnectPeer p =>
    refine ⟨disconnectPeer_failures _ _, fun q hconn => ?_, fun q => disconnectPeer_event⟩
    obtain ⟨conn, hconn⟩ := isConnected_iff.mp hconn
    exact isConnected_iff.mpr ⟨conn, find?_of_disconnectPeer hconn⟩
  | disconnectAll => exact .disconnectPeers s _
  | cleanupIdleConnections => exact .disconnectPeers s _
  | sendToPeer random p data => exact .sendToPeer s clock random p data
  | addDiscoveredPeer nodeId address => exact ⟨rfl, fun _ h => h, (fun _ h => nomatch h)⟩
  | updatePeerCapabilities nodeId capabilities =>
    exact ⟨rfl, fun _ h => h, (fun _ h => nomatch h)⟩
  | handlePeerResponse msg =>
    refine ⟨handlePeerResponse_failures _ _ _, fun q hconn => ?_, (fun _ h => nomatch h)⟩
    change (s.peers.handlePeerResponse clock msg).activeConnections.contains q = true at hconn
    rwa [handlePeerResponse_activeConnections] at hconn
  | createOutboundSession n => exact .of_sessions s _
  | handleInboundHandshake secret handshake => exact .of_sessions s _
  | callSession ref input => exact .of_sessions s _
  | closeSession n => exact .of_sessions s _
  | closeAllSessions => exact .of_sessions s _
  | cleanupStaleSessions => exact .of_sessions s _

/-- No failure is counted for a peer that is connected, or was disconnected. -/
structure Blameless (st : Logged) : Prop where
  connected : ∀ p, st.1.peers.isConnected p = true → st.1.peers.failureCount p = 0
  disconnected : NeverBlamed st

/-- A new connection clears the count of its peer. -/
theorem Blameless.opened {s : PeerSystem} {log : List PeerEvent} (h : Blameless (s, log))
    (clock : Clock) (p : NodeID) (ref : SessionRef) (sessions : SessionManager) :
    Blameless ({ peers := s.peers.handleSuccessfulConnection clock p ref, sessions },
      log ++ [.connected p]) := by
  refine ⟨fun q hconn => ?_, fun q hlog => ?_⟩
  · rw [failureCount_handleSuccessfulConnection]
    split
    · rfl
    · rename_i hpq
      have hbefore := (isConnected_handleSuccessfulConnection _ _ _ _ _).mp hconn
      exact h.connected q (hbefore.resolve_left hpq)
  · rw [failureCount_handleSuccessfulConnection]
    split
    · rfl
    · rcases List.mem_append.mp hlog with hold | hnew
      · exact h.disconnected q hold
      · cases List.mem_singleton.mp hnew

/-- A failure of a peer that is not connected and never was disconnected blames no
other. -/
theorem Blameless.failed {s : PeerSystem} {log : List PeerEvent} (h : Blameless (s, log))
    {p : NodeID} (hapart : s.peers.isConnected p = false) (hnever : .disconnected p ∉ log)
    (sessions : SessionManager) :
    Blameless ({ peers := s.peers.handleFailedConnection p, sessions }, log) := by
  refine ⟨fun q hconn => ?_, fun q hlog => ?_⟩
  · have hpq : p ≠ q := by
      rintro rfl
      exact Bool.false_ne_true (hapart.symm.trans hconn)
    rw [failureCount_handleFailedConnection_of_ne _ hpq]
    exact h.connected q hconn
  · have hpq : p ≠ q := by
      rintro rfl
      exact hnever hlog
    rw [failureCount_handleFailedConnection_of_ne _ hpq]
    exact h.disconnected q hlog

theorem Blameless.quiet {s s' : PeerSystem} {log events : List PeerEvent}
    (h : Blameless (s, log)) (hquiet : Quiet s s' events) : Blameless (s', log ++ events) := by
  have hcount : ∀ q, s'.peers.failureCount q = s.peers.failureCount q := by
    intro q
    unfold failureCount
    rw [hquiet.failures]
  refine ⟨fun q hconn => ?_, fun q hlog => ?_⟩
  · exact (hcount q).trans (h.connected q (hquiet.connected q hconn))
  · refine (hcount q).trans ?_
    rcases List.mem_append.mp hlog with hold | hnew
    · exact h.disconnected q hold
    · exact h.connected q (hquiet.events q hnew)

/-- **One step.** A failure is counted only for a peer that was never disconnected,
if the peers that return can. -/
theorem step_blameless (st : Logged) (input : Clock × PeerInput) (h : Blameless st)
    (hret : CanReturn st input) : Blameless ((peerMachine c).logged.step st input).1 := by
  obtain ⟨s, log⟩ := st
  obtain ⟨clock, input⟩ := input
  by_cases hinput : ∃ secret p, input = .connectToPeer secret p
  · obtain ⟨secret, p, rfl⟩ := hinput
    show Blameless
      ((s.connectToPeer c clock secret p).1, log ++ (s.connectToPeer c clock secret p).2)
    by_cases hmay : MayConnect s.peers p
    · rw [connectToPeer_of_mayConnect hmay]
      by_cases hopen : s.CanOpen p
      · obtain ⟨ref, sessions, hafter⟩ := openConnection_of_canOpen (c := c) hopen clock secret
        rw [hafter]
        exact h.opened _ p ref sessions
      · obtain ⟨sessions, hafter⟩ := openConnection_of_not_canOpen (c := c) hopen clock secret
        rw [hafter, List.append_nil]
        refine h.failed hmay.apart (fun hlog => ?_) sessions
        -- had the peer been disconnected, it could return
        have hcan := hret p ⟨⟨secret, rfl⟩, hlog, hmay.room, hmay.failures, hmay.foreign⟩
        rw [hmay.apart] at hcan
        exact hopen (hcan.resolve_left Bool.false_ne_true).2
    · rw [connectToPeer_of_not_mayConnect hmay, List.append_nil]
      exact h
  · exact h.quiet (call_quiet s clock input fun secret p heq => hinput ⟨secret, p, heq⟩)

/-! ## Runs -/

/-- **Connecting again.** In a run of both managers under one policy, every peer that
was disconnected and returns is connected again, and no failure is ever counted for
a peer that was disconnected, just when each peer that returns is connected already,
or is not known to be unreliable and its session, if it has one, is disconnected. -/
theorem reconnects_iff (c : SessionCrypto) (localNodeId : NodeID) (policy : ConnectionPolicy)
    (discovery : PeerDiscovery) (inputs : List (Clock × PeerInput)) :
    ((peerMachine c).logged.StepsMeet (Reconnects c)
          (PeerSystem.fresh localNodeId policy discovery, []) inputs ∧
        (peerMachine c).logged.Always NeverBlamed
          (PeerSystem.fresh localNodeId policy discovery, []) inputs) ↔
      (peerMachine c).logged.StepsMeet CanReturn
        (PeerSystem.fresh localNodeId policy discovery, []) inputs := by
  rw [(peerMachine c).logged.stepsMeet_congr reconnects_step_iff]
  refine and_iff_left_of_imp fun hmeet => ?_
  have hstart : Blameless (PeerSystem.fresh localNodeId policy discovery, []) :=
    ⟨fun p hconn => (nomatch hconn), (fun _ h => nomatch h)⟩
  exact (hmeet.always step_blameless hstart).imp fun st h => h.disconnected

/-- Connect, disconnect, connect: the peer is not connected, and blamed for it. -/
theorem reconnect_fails :
    ¬ ((peerMachine sampleCrypto).logged.StepsMeet (Reconnects sampleCrypto)
          (PeerSystem.fresh (sampleNode 1) {} {}, [])
          [(Clock.still sampleTime, .connectToPeer (sampleSecret 1) (sampleNode 2)),
           (Clock.still sampleTime, .disconnectPeer (sampleNode 2)),
           (Clock.still sampleTime, .connectToPeer (sampleSecret 2) (sampleNode 2))]) := by
  rintro ⟨-, -, hagain, -⟩
  have hconn := hagain (sampleNode 2) ⟨⟨_, rfl⟩, by decide, by decide, by decide, by decide⟩
  exact absurd hconn (by decide)

end Cashew.Theorems.PeerReconnects
