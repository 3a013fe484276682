import Cashew.Logic.SessionManager
import Cashew.Network.PeerManager

/-!
# Connecting and disconnecting

What the calls of a peer manager do to its connections and its failure counts.
Opening a connection succeeds just when the session that is made or found for the
peer is still disconnected.
-/

namespace Cashew.PeerManager

open Cashew Cashew.Lib

theorem isConnected_iff {m : PeerManager} {p : NodeID} :
    m.isConnected p = true ↔ ∃ conn, m.activeConnections.find? p = some conn :=
  Option.isSome_iff_exists

theorem not_isConnected_iff {m : PeerManager} {p : NodeID} :
    m.isConnected p = false ↔ m.activeConnections.find? p = none :=
  OrdMap.contains_eq_false

/-! ## Disconnecting -/

/-- Connections are dropped or stay as they are. -/
theorem disconnectPeer_find? (m : PeerManager) (p q : NodeID) :
    (m.disconnectPeer p).1.activeConnections.find? q =
      if p = q then none else m.activeConnections.find? q := by
  unfold PeerManager.disconnectPeer
  split
  · exact OrdMap.find?_erase _ _ _
  · rename_i hnot
    have hnone := not_isConnected_iff.mp (Bool.eq_false_iff.mpr hnot)
    split
    · rename_i hpq
      rw [← hpq, hnone]
    · rfl

theorem disconnectPeers_find? (m : PeerManager) (peers : List NodeID) (q : NodeID) :
    (m.disconnectPeers peers).1.activeConnections.find? q =
      if q ∈ peers then none else m.activeConnections.find? q := by
  induction peers generalizing m with
  | nil => rfl
  | cons p rest ih =>
    show ((m.disconnectPeer p).1.disconnectPeers rest).1.activeConnections.find? q = _
    rw [ih, disconnectPeer_find?]
    by_cases hq : q = p
    · subst hq
      simp
    · simp [hq, Ne.symm hq]

/-- A connection that is left was there before. -/
theorem find?_of_disconnectPeer {m : PeerManager} {p q : NodeID} {conn : PeerConnection}
    (h : (m.disconnectPeer p).1.activeConnections.find? q = some conn) :
    m.activeConnections.find? q = some conn := by
  rw [disconnectPeer_find?] at h
  split at h
  · cases h
  · exact h

theorem find?_of_disconnectPeers {m : PeerManager} {peers : List NodeID} {q : NodeID}
    {conn : PeerConnection}
    (h : (m.disconnectPeers peers).1.activeConnections.find? q = some conn) :
    m.activeConnections.find? q = some conn := by
  rw [disconnectPeers_find?] at h
  split at h
  · cases h
  · exact h

/-- The callback names peers that were connected. -/
theorem disconnectPeer_event {m : PeerManager} {p q : NodeID}
    (h : .disconnected q ∈ (m.disconnectPeer p).2) : m.isConnected q = true := by
  unfold disconnectPeer at h
  split at h
  · rename_i hconn
    obtain rfl := PeerEvent.disconnected.inj (List.mem_singleton.mp h)
    exact hconn
  · cases h

theorem disconnectPeers_event {m : PeerManager} {peers : List NodeID} {q : NodeID}
    (h : .disconnected q ∈ (m.disconnectPeers peers).2) : m.isConnected q = true := by
  induction peers generalizing m with
  | nil => cases h
  | cons p rest ih =>
    rcases List.mem_append.mp h with hfirst | hrest
    · exact disconnectPeer_event hfirst
    · obtain ⟨conn, hconn⟩ := isConnected_iff.mp (ih hrest)
      exact isConnected_iff.mpr ⟨conn, find?_of_disconnectPeer hconn⟩

theorem disconnectPeer_failures (m : PeerManager) (p : NodeID) :
    (m.disconnectPeer p).1.connectionFailureCount = m.connectionFailureCount := by
  unfold disconnectPeer
  split <;> rfl

theorem disconnectPeers_failures (m : PeerManager) (peers : List NodeID) :
    (m.disconnectPeers peers).1.connectionFailureCount = m.connectionFailureCount := by
  induction peers generalizing m with
  | nil => rfl
  | cons p rest ih => exact (ih _).trans (disconnectPeer_failures m p)

theorem handlePeerResponse_activeConnections (m : PeerManager) (clock : Clock)
    (msg : PeerResponseMessage) :
    (m.handlePeerResponse clock msg).activeConnections = m.activeConnections := by
  unfold PeerManager.handlePeerResponse
  split_ifs <;> rfl

theorem failureCount_handleSuccessfulConnection (m : PeerManager) (clock : Clock) (p q : NodeID)
    (ref : SessionRef) :
    (m.handleSuccessfulConnection clock p ref).failureCount q =
      if p = q then 0 else m.failureCount q := by
  unfold handleSuccessfulConnection failureCount
  rw [OrdMap.find?_insert]
  split <;> rfl

theorem failureCount_handleFailedConnection_of_ne (m : PeerManager) {p q : NodeID} (h : p ≠ q) :
    (m.handleFailedConnection p).failureCount q = m.failureCount q := by
  unfold handleFailedConnection failureCount
  rw [OrdMap.find?_upsert, if_neg h]

theorem isConnected_handleSuccessfulConnection (m : PeerManager) (clock : Clock) (p q : NodeID)
    (ref : SessionRef) :
    (m.handleSuccessfulConnection clock p ref).isConnected q = true ↔
      p = q ∨ m.isConnected q = true := by
  rw [isConnected_iff, isConnected_iff]
  unfold handleSuccessfulConnection
  simp only [OrdMap.find?_insert]
  by_cases hpq : p = q
  · simp [hpq]
  · simp [hpq]

theorem handlePeerResponse_failures (m : PeerManager) (clock : Clock)
    (msg : PeerResponseMessage) :
    (m.handlePeerResponse clock msg).connectionFailureCount = m.connectionFailureCount := by
  unfold handlePeerResponse
  split_ifs <;> rfl

end Cashew.PeerManager

namespace Cashew.PeerSystem

open Cashew Cashew.Lib

variable {c : SessionCrypto}

/-! ## Sending -/

/-- Sending leaves every connection its session. -/
theorem sendToPeer_find? {s : PeerSystem} {clock : Clock} {random : FixedBytes 4} {p q : NodeID}
    {data : Bytes} {conn : PeerConnection}
    (h : (s.sendToPeer c clock random p data).peers.activeConnections.find? q = some conn) :
    ∃ conn', s.peers.activeConnections.find? q = some conn' ∧ conn'.session = conn.session := by
  unfold sendToPeer at h
  split at h
  · exact ⟨conn, h, rfl⟩
  · unfold sendOver at h
    dsimp only at h
    split at h
    · change (s.peers.activeConnections.modify p _).find? q = some conn at h
      rw [OrdMap.find?_modify] at h
      split at h
      · rename_i hpq
        subst hpq
        obtain ⟨conn', hconn', rfl⟩ := Option.map_eq_some_iff.mp h
        exact ⟨conn', hconn', rfl⟩
      · exact ⟨conn, h, rfl⟩
    · exact ⟨conn, h, rfl⟩

theorem sendToPeer_failures (s : PeerSystem) (clock : Clock) (random : FixedBytes 4) (p : NodeID)
    (data : Bytes) :
    (s.sendToPeer c clock random p data).peers.connectionFailureCount =
      s.peers.connectionFailureCount := by
  unfold sendToPeer
  split
  · rfl
  · unfold sendOver
    dsimp only
    split <;> rfl

/-! ## Opening a connection -/

/-- The peer has no session, or one that is disconnected. -/
def CanOpen (s : PeerSystem) (p : NodeID) : Prop :=
  ∀ ref session, s.sessions.getSession p = some (ref, session) → session.state = .disconnected

theorem initiateHandshake_succeeds (session : Session) (now : Time) (secret : SecretKey) :
    (session.initiateHandshake c now secret).2 = true ↔ session.state = .disconnected := by
  unfold Session.initiateHandshake
  split
  · rename_i hstate
    exact iff_of_false (fun h => nomatch h) hstate
  · rename_i hstate
    exact iff_of_true rfl (not_not.mp hstate)

theorem withSession_isSome {m : SessionManager} {ref : SessionRef} {session : Session}
    (h : m.objects[ref]? = some session) (call : Session → Session × Bool) :
    (m.withSession ref call).2.isSome = (call session).2 := by
  unfold SessionManager.withSession
  rw [h]
  cases hcall : (call session).2 with
  | true => simp [hcall]
  | false => simp [hcall]

/-- The handshake starts on the session that was found, or on a new one. -/
theorem handshake_starts_iff (s : PeerSystem) (now now' : Time) (secret : SecretKey) (p : NodeID) :
    ((s.sessions.createOutboundSession now p).1.withSession
      (s.sessions.createOutboundSession now p).2 fun session =>
        session.initiateHandshake c now' secret).2.isSome = true ↔ s.CanOpen p := by
  unfold SessionManager.createOutboundSession CanOpen
  cases hsession : s.sessions.getSession p with
  | none =>
    have hnew := List.getElem?_concat_length (l := s.sessions.objects)
      (a := Session.create s.sessions.localNodeId p now)
    rw [withSession_isSome hnew, initiateHandshake_succeeds]
    exact iff_of_true rfl (fun _ _ h => nomatch h)
  | some entry =>
    obtain ⟨ref, session⟩ := entry
    have hold := (SessionManager.mem_held.mp (List.mem_of_find?_eq_some hsession)).2
    rw [withSession_isSome hold, initiateHandshake_succeeds]
    constructor
    · intro hstate ref' session' hsame
      cases hsame
      exact hstate
    · exact fun h => h ref session rfl

theorem openConnection_of_canOpen {s : PeerSystem} {p : NodeID} (h : s.CanOpen p) (clock : Clock)
    (secret : SecretKey) : ∃ ref sessions, s.openConnection c clock secret p =
      ({ peers := s.peers.handleSuccessfulConnection (clock.after 2) p ref, sessions },
        [.connected p]) := by
  unfold openConnection
  rw [if_pos ((handshake_starts_iff s _ _ secret p).mpr h)]
  exact ⟨_, _, rfl⟩

theorem openConnection_of_not_canOpen {s : PeerSystem} {p : NodeID} (h : ¬ s.CanOpen p)
    (clock : Clock) (secret : SecretKey) : ∃ sessions, s.openConnection c clock secret p =
      ({ peers := s.peers.handleFailedConnection p, sessions }, []) := by
  unfold openConnection
  rw [if_neg (mt (handshake_starts_iff s _ _ secret p).mp h)]
  exact ⟨_, rfl⟩

/-- What `connect_to_peer` asks before it opens a connection. -/
structure MayConnect (m : PeerManager) (p : NodeID) : Prop where
  apart : m.isConnected p = false
  room : m.canConnectMorePeers = true
  foreign : p ≠ m.localNodeId
  failures : m.hasFailedTooOften p = false
  reliable : m.isUnreliable p = false

theorem connectToPeer_of_mayConnect {s : PeerSystem} {p : NodeID} (h : MayConnect s.peers p)
    (clock : Clock) (secret : SecretKey) :
    s.connectToPeer c clock secret p = s.openConnection c clock secret p := by
  have hshould : s.peers.shouldConnectToPeer p = true := by
    unfold PeerManager.shouldConnectToPeer
    rw [h.failures, h.reliable, bne_iff_ne.mpr h.foreign]
    rfl
  unfold connectToPeer
  rw [h.apart, h.room, hshould]
  rfl

theorem connectToPeer_of_not_mayConnect {s : PeerSystem} {p : NodeID}
    (h : ¬ MayConnect s.peers p) (clock : Clock) (secret : SecretKey) :
    s.connectToPeer c clock secret p = (s, []) := by
  unfold connectToPeer
  split_ifs with hconn hroom hshould
  · rfl
  · rfl
  · rfl
  · refine absurd ?_ h
    unfold PeerManager.shouldConnectToPeer at hshould
    simp only [Bool.not_eq_true', Bool.not_eq_false, Bool.and_eq_true, bne_iff_ne] at *
    exact ⟨Bool.eq_false_iff.mpr hconn, hroom, hshould.1.1, hshould.1.2, hshould.2⟩

end Cashew.PeerSystem
