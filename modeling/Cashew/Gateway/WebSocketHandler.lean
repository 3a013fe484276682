import Cashew.Gateway.ContentRenderer
import Cashew.Lib.Locks
import Cashew.Lib.OrdMap

/-!
# The WebSocket handler

`WsConnection` and `WebSocketHandler` of `gateway/websocket_handler.cpp`. A connection is
an object that the table of connections and the callers share; a subscription is a weak
pointer to it, which can be locked as long as one of these still holds the object. `objects`
has every connection made so far, and `held` the pointers in the hands of the callers.

What a call comes to outside is a list of effects: what reaches the message handler, and
what is sent on a connection. The keepalive thread is a call of its own, one round of its
loop. The machine takes the calls one at a time. The locks they take are modelled apart from
it: a `WsPath` is a way through a call, and `WsPath.locks` what it does to the mutexes.
-/

namespace Cashew

open Cashew.Lib

/-- `WsMessageType`. -/
inductive WsMessageType where
  | text
  | binary
  | ping
  | pong
  | close
  deriving DecidableEq

/-- `WsFrame`. -/
structure WsFrame where
  type : WsMessageType
  payload : Bytes
  isFinal : Bool := true
  deriving DecidableEq

/-- `WsConnectionState`. -/
inductive WsConnectionState where
  | connecting
  | open
  | closing
  | closed
  deriving DecidableEq

/-- `WsEventType`. -/
inductive WsEventType where
  | networkUpdate
  | thingUpdate
  | ledgerEvent
  | peerStatus
  | reputationChange
  | gossipMessage
  deriving DecidableEq

/-- `event_type_to_string`. -/
def WsEventType.toText : WsEventType → Text
  | .networkUpdate => Text.ofString "network_update"
  | .thingUpdate => Text.ofString "thing_update"
  | .ledgerEvent => Text.ofString "ledger_event"
  | .peerStatus => Text.ofString "peer_status"
  | .reputationChange => Text.ofString "reputation_change"
  | .gossipMessage => Text.ofString "gossip_message"

/-- All event types. -/
def WsEventType.all : List WsEventType :=
  [.networkUpdate, .thingUpdate, .ledgerEvent, .peerStatus, .reputationChange, .gossipMessage]

/-! ## Connections -/

/-- `WsConnection`. -/
structure WsConnection where
  connectionId : Text
  state : WsConnectionState
  lastActivity : TimePoint
  deriving DecidableEq

namespace WsConnection

/-- `WsConnection::WsConnection`. -/
def create (connectionId : Text) (now : TimePoint) : WsConnection where
  connectionId
  state := .connecting
  lastActivity := now

/-- `WsConnection::is_alive`. -/
def isAlive (conn : WsConnection) : Bool := conn.state = .open

/-- `WsConnection::update_activity`. -/
def updateActivity (conn : WsConnection) (now : TimePoint) : WsConnection :=
  { conn with lastActivity := now }

/-- What `send_text`, `send_binary`, `send_ping` and `send_pong` do to the connection. -/
def send (conn : WsConnection) (now : TimePoint) : WsConnection :=
  if conn.isAlive then conn.updateActivity now else conn

/-- `WsConnection::close`; the state in between is not seen. -/
def close (conn : WsConnection) : WsConnection :=
  if conn.state = .closed then conn else { conn with state := .closed }

/-- `WsConnection::time_since_activity`. -/
def timeSinceActivity (conn : WsConnection) (now : TimePoint) : Int :=
  inSeconds (now - conn.lastActivity)

end WsConnection

/-! ## The handler -/

/-- `WsHandlerConfig`, the durations in seconds. -/
structure WsHandlerConfig where
  pingInterval : Int := 30
  timeout : Int := 300
  maxConnections : Nat := 1000
  maxMessageSize : Nat := 1024 * 1024
  maxSubscriptionsPerClient : Nat := 50

/-- `WebSocketHandler::Statistics`, the numbers unbounded. -/
structure WsStatistics where
  activeConnections : Nat := 0
  totalMessagesSent : Nat := 0
  totalMessagesReceived : Nat := 0
  totalBytesSent : Nat := 0
  totalBytesReceived : Nat := 0
  subscriptionCount : Nat := 0
  deriving DecidableEq

/-- A pointer to a connection. -/
abbrev WsRef := Nat

/-- `WebSocketHandler`, with every connection made and the pointers callers hold. -/
structure WebSocketHandler where
  config : WsHandlerConfig
  running : Bool := false
  objects : List WsConnection := []
  held : Finset WsRef := ∅
  connections : OrdMap Text WsRef := OrdMap.empty
  subscriptions : WsEventType → List WsRef := fun _ => []
  stats : WsStatistics := {}

/-- What happens outside. -/
inductive WsEffect where
  | handled (conn : WsRef) (frame : WsFrame)
  | sentText (conn : WsRef) (message : Text)
  | sentPing (conn : WsRef)
  | sentPong (conn : WsRef)
  deriving DecidableEq

namespace WebSocketHandler

/-- The connection is open. -/
def aliveAt (h : WebSocketHandler) (conn : WsRef) : Bool :=
  (h.objects[conn]?).any WsConnection.isAlive

/-- The id of a connection. -/
def idOf (h : WebSocketHandler) (conn : WsRef) : Option Text :=
  (h.objects[conn]?).map WsConnection.connectionId

/-- `weak_ptr::lock`: somebody still holds the object. -/
def lockable (h : WebSocketHandler) (conn : WsRef) : Bool :=
  decide (conn ∈ h.held) || (h.connections.entries.map Prod.snd).contains conn

/-- A change of one connection. -/
def onConnection (h : WebSocketHandler) (conn : WsRef) (change : WsConnection → WsConnection) :
    WebSocketHandler :=
  { h with objects := h.objects.modify conn change }

/-- `WebSocketHandler::accept_connection`. -/
def acceptConnection (h : WebSocketHandler) (now : TimePoint) (connId : Text) :
    WebSocketHandler × Option WsRef :=
  if h.config.maxConnections ≤ h.connections.entries.length then (h, none)
  else
    let conn := h.objects.length
    ({ h with
        objects := h.objects ++ [WsConnection.create connId now]
        held := insert conn h.held
        -- an id that is in the table already loses its old connection
        connections := h.connections.insert connId conn
        stats := { h.stats with activeConnections := h.stats.activeConnections + 1 } },
      some conn)

/-- `WebSocketHandler::handle_control_frame`. -/
def handleControlFrame (h : WebSocketHandler) (now : TimePoint) (conn : WsRef)
    (frame : WsFrame) : WebSocketHandler × List WsEffect :=
  match frame.type with
  | .ping =>
    (h.onConnection conn (·.send now), if h.aliveAt conn then [.sentPong conn] else [])
  | .close =>
    let closed := h.onConnection conn WsConnection.close
    match h.idOf conn with
    | none => (closed, [])
    | some connId => ({ closed with connections := closed.connections.erase connId }, [])
  | _ => (h, [])

/-- `WebSocketHandler::handle_frame`, with a message handler registered. -/
def handleFrame (h : WebSocketHandler) (now : Nat → TimePoint) (conn : WsRef)
    (frame : WsFrame) : WebSocketHandler × List WsEffect :=
  if !h.aliveAt conn then (h, [])
  else
    let received := { h.onConnection conn (·.updateActivity (now 0)) with
      stats := { h.stats with
        totalMessagesReceived := h.stats.totalMessagesReceived + 1
        totalBytesReceived := h.stats.totalBytesReceived + frame.payload.length } }
    if frame.type ∈ [.ping, .pong, .close] then received.handleControlFrame (now 1) conn frame
    else if h.config.maxMessageSize < frame.payload.length then
      -- the connection stays in the table
      (received.onConnection conn WsConnection.close, [])
    else (received, [.handled conn frame])

/-- `send_text` on one connection after another, the open ones among them. -/
def sendTexts (h : WebSocketHandler) (now : Nat → TimePoint) (message : Text) :
    List WsRef → WebSocketHandler × List WsEffect
  | [] => (h, [])
  | conn :: rest =>
    if h.aliveAt conn then
      let others := (h.onConnection conn (·.send (now 0))).sendTexts (fun i => now (i + 1))
        message rest
      (others.1, .sentText conn message :: others.2)
    else h.sendTexts now message rest

/-- `WebSocketHandler::broadcast_text`. The statistics count every connection. -/
def broadcastText (h : WebSocketHandler) (now : Nat → TimePoint) (message : Text) :
    WebSocketHandler × List WsEffect :=
  let conns := h.connections.entries.map Prod.snd
  let sent := h.sendTexts now message conns
  ({ sent.1 with
      stats := { h.stats with
        totalMessagesSent := h.stats.totalMessagesSent + conns.length
        totalBytesSent := h.stats.totalBytesSent + message.bytes.length * conns.length } },
    sent.2)

/-- The message of an event. -/
def eventMessage (type : WsEventType) (eventData : Text) : Text :=
  ⟨(Text.ofString "\x7b\"type\":\"").bytes ++ type.toText.bytes ++
    (Text.ofString "\",\"data\":").bytes ++ eventData.bytes ++ (Text.ofString "\x7d").bytes⟩

/-- `WebSocketHandler::broadcast_event`. Subscribers that are gone or not open lose their
subscription. -/
def broadcastEvent (h : WebSocketHandler) (now : Nat → TimePoint) (type : WsEventType)
    (eventData : Text) : WebSocketHandler × List WsEffect :=
  let message := eventMessage type eventData
  let reached := (h.subscriptions type).filter fun conn => h.lockable conn && h.aliveAt conn
  let sent := h.sendTexts now message reached
  ({ sent.1 with
      subscriptions := Function.update h.subscriptions type reached
      stats := { h.stats with
        totalMessagesSent := h.stats.totalMessagesSent + reached.length
        totalBytesSent := h.stats.totalBytesSent + message.bytes.length * reached.length } },
    sent.2)

/-- The subscriptions to an event type that belong to connections of this id. -/
def subscribersWithId (h : WebSocketHandler) (type : WsEventType) (connId : Option Text) :
    List WsRef :=
  (h.subscriptions type).filter fun conn => h.lockable conn && (h.idOf conn == connId)

/-- `WebSocketHandler::subscribe`. -/
def subscribe (h : WebSocketHandler) (conn : WsRef) (type : WsEventType) : WebSocketHandler :=
  let connId := h.idOf conn
  if h.subscribersWithId type connId ≠ [] then h
  else if h.config.maxSubscriptionsPerClient ≤
      (WsEventType.all.map fun type => (h.subscribersWithId type connId).length).sum then h
  else
    { h with
      subscriptions := Function.update h.subscriptions type (h.subscriptions type ++ [conn])
      stats := { h.stats with subscriptionCount := h.stats.subscriptionCount + 1 } }

/-- The loop of `unsubscribe`: what is left, and whether a subscription was found. What is
expired on the way to it is dropped. -/
def dropSubscriber (h : WebSocketHandler) (connId : Option Text) :
    List WsRef → List WsRef × Bool
  | [] => ([], false)
  | conn :: rest =>
    if h.lockable conn then
      if h.idOf conn == connId then (rest, true)
      else (conn :: (h.dropSubscriber connId rest).1, (h.dropSubscriber connId rest).2)
    else h.dropSubscriber connId rest

/-- `WebSocketHandler::unsubscribe`. -/
def unsubscribe (h : WebSocketHandler) (conn : WsRef) (type : WsEventType) : WebSocketHandler :=
  let dropped := h.dropSubscriber (h.idOf conn) (h.subscriptions type)
  { h with
    subscriptions := Function.update h.subscriptions type dropped.1
    stats := { h.stats with
      subscriptionCount := h.stats.subscriptionCount - dropped.2.toNat } }

/-- The loop of `keepalive_loop` over the connections, with two readings of the clock for
each. -/
def keepConnections (h : WebSocketHandler) (now : Nat → TimePoint) :
    List (Text × WsRef) → WebSocketHandler × List WsEffect
  | [] => (h, [])
  | (connId, conn) :: rest =>
    let later := fun i => now (i + 2)
    match h.objects[conn]? with
    | none => h.keepConnections later rest
    | some object =>
      if !object.isAlive then
        { h with connections := h.connections.erase connId }.keepConnections later rest
      else if h.config.timeout < object.timeSinceActivity (now 0) then
        { h.onConnection conn WsConnection.close with
          connections := h.connections.erase connId }.keepConnections later rest
      else if h.config.pingInterval < object.timeSinceActivity (now 0) then
        let others := (h.onConnection conn (·.send (now 1))).keepConnections later rest
        (others.1, .sentPing conn :: others.2)
      else h.keepConnections later rest

/-- `WebSocketHandler::cleanup_connections`. -/
def cleanupConnections (h : WebSocketHandler) : WebSocketHandler :=
  { h with subscriptions := fun type => (h.subscriptions type).filter h.lockable }

/-- One round of `WebSocketHandler::keepalive_loop`. -/
def keepalive (h : WebSocketHandler) (now : Nat → TimePoint) :
    WebSocketHandler × List WsEffect :=
  if !h.running then (h, [])
  else
    let kept := h.keepConnections now h.connections.entries
    (kept.1.cleanupConnections, kept.2)

/-- `WebSocketHandler::stop`, of a handler that runs. -/
def close (h : WebSocketHandler) : WebSocketHandler :=
  { h with
    running := false
    objects := (h.connections.entries.map Prod.snd).foldl
      (fun objects conn => objects.modify conn WsConnection.close) h.objects
    connections := OrdMap.empty }

/-- `WebSocketHandler::stop`. -/
def stop (h : WebSocketHandler) : WebSocketHandler := if h.running then h.close else h

/-- `WebSocketHandler::get_statistics`. -/
def getStatistics (h : WebSocketHandler) : WsStatistics :=
  { h.stats with activeConnections := h.connections.entries.length }

end WebSocketHandler

/-- The calls on a handler; a pointer that the caller does not hold is a null pointer. -/
inductive WsInput where
  | start
  | acceptConnection (connId : Text)
  | handleFrame (conn : WsRef) (frame : WsFrame)
  | broadcastText (message : Text)
  | broadcastEvent (type : WsEventType) (eventData : Text)
  | subscribe (conn : WsRef) (type : WsEventType)
  | unsubscribe (conn : WsRef) (type : WsEventType)
  | keepalive
  | stop
  | release (conn : WsRef)

/-- One call, with the clock readings made during it. -/
def WebSocketHandler.call (h : WebSocketHandler) (now : Nat → TimePoint) :
    WsInput → WebSocketHandler × List WsEffect
  | .start => ({ h with running := true }, [])
  | .acceptConnection connId => ((h.acceptConnection (now 0) connId).1, [])
  | .handleFrame conn frame => if conn ∈ h.held then h.handleFrame now conn frame else (h, [])
  | .broadcastText message => h.broadcastText now message
  | .broadcastEvent type eventData => h.broadcastEvent now type eventData
  | .subscribe conn type => (if conn ∈ h.held then h.subscribe conn type else h, [])
  | .unsubscribe conn type => (if conn ∈ h.held then h.unsubscribe conn type else h, [])
  | .keepalive => h.keepalive now
  | .stop => (h.stop, [])
  | .release conn => ({ h with held := h.held.erase conn }, [])

def webSocketMachine : Machine WebSocketHandler ((Nat → TimePoint) × WsInput) WsEffect where
  step h input := h.call input.1 input.2

/-! ## The locks -/

section Locks

open LockOrder

/-- `connections_mutex_`, `subscriptions_mutex_`, `stats_mutex_` and the mutexes of the
connections. -/
inductive WsLock where
  | connections
  | subscriptions
  | stats
  | connection (conn : WsRef)
  deriving DecidableEq

/-- What `keepalive_loop` does with a connection. -/
inductive WsVisit where
  | dead
  | timedOut
  | pinged
  | kept

/-- A way through a call: which of its tests succeed, and over which connections it goes. The
message handler takes no lock, and a null pointer comes to none. -/
inductive WsPath where
  | acceptConnection (room : Bool)
  | handleFrame (conn : WsRef) (isAlive : Bool) (type : WsMessageType) (tooLarge : Bool)
  | broadcastText (conns : List (WsRef × Bool))
  | broadcastEvent (subscribers : List (WsRef × Bool))
  | broadcastNothing
  | subscribe (added : Bool)
  | unsubscribe (found : Bool)
  | keepalive (conns : List (WsRef × WsVisit))
  | stop (conns : List WsRef)
  | getStatistics
  | onConnection (conn : WsRef)

/-- The locks of `is_alive`, and of `send_text` where the connection is open. -/
def sendLocks (conn : WsRef × Bool) : List (LockOp WsLock) :=
  scope (.connection conn.1) [] ++ if conn.2 then scope (.connection conn.1) [] else []

/-- The locks of `is_alive`, `time_since_activity` and `close` or `send_ping`. -/
def visitLocks (visit : WsRef × WsVisit) : List (LockOp WsLock) :=
  let lock := WsLock.connection visit.1
  match visit.2 with
  | .dead => scope lock []
  | .kept => scope lock [] ++ scope lock []
  | .timedOut | .pinged => scope lock [] ++ scope lock [] ++ scope lock []

/-- The locks of `handle_control_frame` and of what `handle_frame` does with data. -/
def frameLocks (conn : WsRef) (type : WsMessageType) (tooLarge : Bool) : List (LockOp WsLock) :=
  match type with
  | .ping => scope (.connection conn) []
  | .pong => []
  | .close => scope (.connection conn) [] ++ scope .connections []
  | .text | .binary => if tooLarge then scope (.connection conn) [] else []

/-- What a way through a call does to the mutexes. -/
def WsPath.locks : WsPath → List (LockOp WsLock)
  | .acceptConnection room => scope .connections (if room then scope .stats [] else [])
  | .handleFrame conn isAlive type tooLarge =>
    scope (.connection conn) [] ++
      if isAlive then scope .stats (frameLocks conn type tooLarge) else []
  | .broadcastText conns => scope .connections (conns.flatMap sendLocks ++ scope .stats [])
  | .broadcastEvent subscribers =>
    scope .subscriptions (subscribers.flatMap sendLocks ++ scope .stats [])
  -- no list of subscribers for the type
  | .broadcastNothing => scope .subscriptions []
  | .subscribe added => scope .subscriptions (if added then scope .stats [] else [])
  | .unsubscribe found => scope .subscriptions (if found then scope .stats [] else [])
  -- `cleanup_connections` runs with the connections locked
  | .keepalive conns =>
    scope .connections (conns.flatMap visitLocks ++ scope .subscriptions [])
  -- from where the keepalive thread has been joined
  | .stop conns => scope .connections (conns.flatMap fun conn => scope (.connection conn) [])
  | .getStatistics => scope .stats (scope .connections [])
  | .onConnection conn => scope (.connection conn) []

/-- Threads at the start of their calls. -/
def callers {τ : Type} (calls : τ → List WsPath) : τ → Thread WsLock :=
  fun t => ⟨(calls t).flatMap WsPath.locks, []⟩

end Locks

end Cashew
