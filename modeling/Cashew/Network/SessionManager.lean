import Cashew.Network.Session

/-!
# The sessions of a node

`SessionManager` of `network/session.cpp`. Sessions are shared: `sessions_` holds
pointers, and so do the callers that got one. A pointer is modelled by the
position of the session among all that were made.
-/

namespace Cashew

open Cashew.Lib

/-- `Session::IDLE_TIMEOUT_SECONDS`: 30 minutes. -/
def Session.idleTimeoutSeconds : UInt64 := 1800

/-- `Session::has_timed_out`, unsigned. -/
def Session.hasTimedOut (s : Session) (now : Time) : Bool :=
  idleTimeoutSeconds ≤ now.secs - s.lastActivityTimestamp

/-- `std::shared_ptr<Session>`. -/
abbrev SessionRef := Nat

/-- `SessionManager`, with every session made so far. -/
structure SessionManager where
  localNodeId : NodeID
  objects : List Session := []
  sessions : List SessionRef := []
  deriving DecidableEq

namespace SessionManager

/-- What `sessions_` points to. -/
def held (m : SessionManager) : List (SessionRef × Session) :=
  m.sessions.filterMap fun ref => m.objects[ref]?.map fun s => (ref, s)

/-- `SessionManager::get_session`: the first one for the node. `has_session` asks
whether there is one. -/
def getSession (m : SessionManager) (remoteNodeId : NodeID) : Option (SessionRef × Session) :=
  m.held.find? fun entry => entry.2.remoteNodeId == remoteNodeId

/-- `make_shared` and `push_back`. -/
def add (m : SessionManager) (s : Session) : SessionManager × SessionRef :=
  ({ m with objects := m.objects ++ [s], sessions := m.sessions ++ [m.objects.length] },
   m.objects.length)

/-- A call through a pointer: the session afterwards, if the call succeeded. -/
def withSession (m : SessionManager) (ref : SessionRef) (call : Session → Session × Bool) :
    SessionManager × Option Session :=
  match m.objects[ref]? with
  | none => (m, none)
  | some s =>
    ({ m with objects := m.objects.set ref (call s).1 },
     if (call s).2 then some (call s).1 else none)

/-- `SessionManager::remove_session`. -/
def removeSession (m : SessionManager) (remoteNodeId : NodeID) : SessionManager :=
  { m with
    sessions := (m.held.filter fun entry => entry.2.remoteNodeId != remoteNodeId).map (·.1) }

/-- `SessionManager::close_session`. -/
def closeSession (m : SessionManager) (remoteNodeId : NodeID) : SessionManager :=
  match m.getSession remoteNodeId with
  | none => m
  | some (ref, s) =>
    { m with objects := m.objects.set ref s.close }.removeSession remoteNodeId

/-- `SessionManager::close_all_sessions`. -/
def closeAllSessions (m : SessionManager) : SessionManager :=
  { m with
    objects := m.objects.mapIdx fun ref s => if ref ∈ m.sessions then s.close else s
    sessions := [] }

/-- `session->has_timed_out()` through a pointer. -/
def hasTimedOut (m : SessionManager) (ref : SessionRef) (now : Time) : Bool :=
  m.objects[ref]?.any fun s => s.hasTimedOut now

/-- `SessionManager::cleanup_stale_sessions`. Each session is looked at with its
own reading of the clock. -/
def cleanupStaleSessions (m : SessionManager) (clock : Clock) : SessionManager :=
  let stale := m.sessions.zipIdx.filter fun e => m.hasTimedOut e.1 (clock.read e.2)
  let kept := m.sessions.zipIdx.filter fun e => !m.hasTimedOut e.1 (clock.read e.2)
  { m with
    objects := m.objects.mapIdx fun ref s => if ref ∈ stale.map (·.1) then s.close else s
    sessions := kept.map (·.1) }

/-- `SessionManager::create_outbound_session`. -/
def createOutboundSession (m : SessionManager) (now : Time) (remoteNodeId : NodeID) :
    SessionManager × SessionRef :=
  match m.getSession remoteNodeId with
  | some (ref, _) => (m, ref)
  | none => m.add (Session.create m.localNodeId remoteNodeId now)

/-- The second half of `handle_inbound_handshake`, for a node without a session. -/
def acceptInbound (c : SessionCrypto) (m : SessionManager) (clock : Clock) (secret : SecretKey)
    (handshake : HandshakeMessage) : SessionManager × Option SessionRef :=
  let session := Session.create m.localNodeId handshake.nodeId (clock.read 0)
  let handled := session.handleHandshakeInit c (clock.read 1) secret handshake
  if handled.2 then
    let added := m.add handled.1
    (added.1, some added.2)
  else (m, none)

/-- `SessionManager::handle_inbound_handshake`. A session for the sender is only
replaced when it is closed or has timed out. -/
def handleInboundHandshake (c : SessionCrypto) (m : SessionManager) (clock : Clock)
    (secret : SecretKey) (handshake : HandshakeMessage) : SessionManager × Option SessionRef :=
  match m.getSession handshake.nodeId with
  | none => m.acceptInbound c (clock.after 1) secret handshake
  | some (ref, existing) =>
    if existing.state = .closed || existing.hasTimedOut (clock.read 0) then
      (m.closeSession handshake.nodeId).acceptInbound c (clock.after 1) secret handshake
    else (m, some ref)

end SessionManager

/-! ## Runs -/

/-- The calls of the manager, and calls on a session through a pointer. The others only
look. -/
inductive SessionManagerInput where
  | createOutboundSession (remoteNodeId : NodeID)
  | handleInboundHandshake (secret : SecretKey) (handshake : HandshakeMessage)
  | callSession (ref : SessionRef) (input : SessionInput)
  | closeSession (remoteNodeId : NodeID)
  | closeAllSessions
  | cleanupStaleSessions

/-- What `create_outbound_session` handed out, and when. -/
structure HandedOut where
  session : Session
  now : Time

/-- One call, with the clock readings made during it. -/
def SessionManager.call (c : SessionCrypto) (m : SessionManager) (clock : Clock) :
    SessionManagerInput → SessionManager × List HandedOut
  | .createOutboundSession remoteNodeId =>
    let out := m.createOutboundSession (clock.read 0) remoteNodeId
    (out.1, out.1.objects[out.2]?.toList.map fun session => { session, now := clock.read 0 })
  | .handleInboundHandshake secret handshake =>
    ((m.handleInboundHandshake c clock secret handshake).1, [])
  | .callSession ref input =>
    ((m.withSession ref fun session => ((session.call c clock input).1, true)).1, [])
  | .closeSession remoteNodeId => (m.closeSession remoteNodeId, [])
  | .closeAllSessions => (m.closeAllSessions, [])
  | .cleanupStaleSessions => (m.cleanupStaleSessions clock, [])

def sessionManagerMachine (c : SessionCrypto) :
    Machine SessionManager (Clock × SessionManagerInput) HandedOut where
  step m input := m.call c input.1 input.2

end Cashew
