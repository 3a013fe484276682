import Cashew.Gateway.StaticFiles
import Cashew.Gateway.HtmlSanitizer
import Cashew.Lib.Locks

/-!
# The gateway server

`GatewayServer` of `gateway/gateway_server.cpp` with its default handlers. Its code is that of
one thread, with the three mutexes it takes (`Guarded`). What a request meets outside is its
`RequestSurroundings`: the clock, the random bytes, the file system, and what the network
registry, the content renderer and the storage answer through the handlers that ask them;
those handlers take none of the mutexes, nor do they change the session.

An exception of a handler is answered with 500 in `handle_request`, and one of the static
files behind no route by the HTTP library. `std::unordered_map` may go through the routes in
any order, which makes no difference: no path matches two patterns of the default handlers.
-/

namespace Cashew

open Cashew.Lib HtmlSanitizer

/-- The mutexes. -/
inductive GatewayMutex where
  | stats
  | sessions
  | rateLimit
  deriving DecidableEq

/-- `GatewayServer::ClientRateInfo`. -/
structure ClientRateInfo where
  lastRequest : TimePoint := 0
  requestsThisMinute : Nat := 0
  requestsThisHour : Nat := 0

/-- `GatewayServer::Statistics`. -/
structure GatewayStatistics where
  totalRequests : Nat := 0
  activeSessions : Nat := 0
  anonymousSessions : Nat := 0
  authenticatedSessions : Nat := 0
  bytesSent : Nat := 0
  bytesReceived : Nat := 0
  startedAt : TimePoint

/-- `GatewayServer`. -/
structure GatewayServer where
  config : GatewayConfig
  sessions : OrdMap Text GatewaySession := .empty
  clientRates : OrdMap Text ClientRateInfo := .empty
  stats : GatewayStatistics

/-- What a request meets outside. Where a handler throws it answers nothing. -/
structure RequestSurroundings where
  now : Nat → TimePoint
  draw : Bytes
  fs : FileSystem
  webRoot : Option (WebRoot fs)
  listing : List FileName → List FileName
  networks : Option HttpResponse
  networkDetail : HttpRequest → Option HttpResponse
  thingContent : HttpRequest → GatewaySession → Option HttpResponse

namespace GatewayServer

/-- The constructor. -/
def new (config : GatewayConfig) (now : TimePoint) : GatewayServer where
  config
  stats := { startedAt := now }

/-! ## Routes -/

/-- The default handlers. -/
inductive Route where
  | root
  | health
  | status
  | networks
  | networkDetail
  | thingContent
  | authenticate
  | staticFile
  deriving DecidableEq

/-- `register_default_handlers`. -/
def defaultHandlers : List (HttpMethod × String × Route) :=
  [(.get, "/", .root), (.get, "/health", .health), (.get, "/api/status", .status),
    (.get, "/api/networks", .networks), (.get, "/api/networks/*", .networkDetail),
    (.get, "/api/thing/*", .thingContent), (.post, "/api/auth", .authenticate),
    (.get, "/static/*", .staticFile)]

/-- `path_matches_pattern`. -/
def pathMatchesPattern (path pattern : Bytes) : Bool :=
  if pattern = lit "*" || pattern = lit "/*" then true
  else if 42 ∉ pattern then path = pattern
  else if pattern.getLast? = some 42 then pattern.dropLast.isPrefixOf path
  else path = pattern

/-- `GatewayServer::find_handler`. -/
def findHandler (method : HttpMethod) (path : Text) : Option Route :=
  match defaultHandlers.find? fun (m, pattern, _) => m = method && path.bytes = lit pattern with
  | some (_, _, route) => some route
  | none =>
    (defaultHandlers.find? fun (m, pattern, _) =>
      m = method && pathMatchesPattern path.bytes (lit pattern)).map (·.2.2)

/-! ## Sessions and rates -/

/-- The session that the request's cookie names. -/
def cookieSessionId (request : HttpRequest) : Option Text := do
  let cookie ← request.headers.find? (Text.ofString "Cookie")
  let pos ← findFrom (lit "cashew_session=") cookie.bytes 0
  let start := pos + 15
  match findFrom (lit ";") cookie.bytes start with
  | none => return ⟨cookie.bytes.drop start⟩
  | some stop => return ⟨(cookie.bytes.drop start).take (stop - start)⟩

/-- `generate_session_id`. -/
def generateSessionId (H : Bytes → Hash256) (draw : Bytes) : Text :=
  ⟨Text.hexDigits ((H draw).bytes.take 16)⟩

/-- `GatewayServer::cleanup_sessions`. -/
def cleanupSessions (around : RequestSurroundings) : Guarded GatewayMutex GatewayServer Unit :=
  .withLock .sessions do
    .modify fun s =>
      { s with
        sessions := s.sessions.filter fun _ session =>
          !(s.config.sessionTimeout < inSeconds (around.now 2 - session.lastActivity)) }

/-- `GatewayServer::get_or_create_session`: the session and the key it is kept under. -/
def getOrCreateSession (H : Bytes → Hash256) (around : RequestSurroundings)
    (request : HttpRequest) : Guarded GatewayMutex GatewayServer (Text × GatewaySession) :=
  .withLock .sessions do
    let s ← Guarded.get
    match (cookieSessionId request).bind fun id => (s.sessions.find? id).map (id, ·) with
    | some (id, session) =>
      let session := { session with lastActivity := around.now 1 }
      .modify fun s => { s with sessions := s.sessions.insert id session }
      return (id, session)
    | none =>
      if s.config.maxSessions ≤ s.sessions.entries.length then
        cleanupSessions around
      let id := generateSessionId H around.draw
      let session : GatewaySession :=
        { sessionId := id
          createdAt := around.now 1
          lastActivity := around.now 1
          isAnonymous := true }
      .modify fun s => { s with sessions := s.sessions.insertNew id session }
      let s ← Guarded.get
      return (id, (s.sessions.find? id).getD session)

/-- The counters of a client after one more request. -/
def countRequest (now : TimePoint) (info : ClientRateInfo) : ClientRateInfo :=
  let elapsed := inSeconds (now - info.lastRequest)
  { lastRequest := now
    requestsThisMinute := (if 60 ≤ elapsed then 0 else info.requestsThisMinute) + 1
    requestsThisHour := (if 3600 ≤ elapsed then 0 else info.requestsThisHour) + 1 }

/-- Whether the limits allow a client's request. -/
def allows (s : GatewayServer) (now : TimePoint) (clientIp : Text) : Bool :=
  let info := countRequest now ((s.clientRates.find? clientIp).getD {})
  info.requestsThisMinute ≤ s.config.maxRequestsPerMinute &&
    info.requestsThisHour ≤ s.config.maxRequestsPerHour

/-- `GatewayServer::check_rate_limit`. -/
def checkRateLimit (around : RequestSurroundings) (clientIp : Text) :
    Guarded GatewayMutex GatewayServer Bool :=
  .withLock .rateLimit do
    let s ← Guarded.get
    .modify fun s =>
      { s with
        clientRates := s.clientRates.insert clientIp
          (countRequest (around.now 0) ((s.clientRates.find? clientIp).getD {})) }
    return s.allows (around.now 0) clientIp

/-- `GatewayServer::get_statistics`. -/
def getStatistics : Guarded GatewayMutex GatewayServer GatewayStatistics :=
  .withLock .stats do
    .withLock .sessions do
      let s ← Guarded.get
      let anonymous := s.sessions.entries.countP fun entry => entry.2.isAnonymous
      return { s.stats with
        activeSessions := s.sessions.entries.length
        anonymousSessions := s.stats.anonymousSessions + anonymous
        authenticatedSessions :=
          s.stats.authenticatedSessions + (s.sessions.entries.length - anonymous) }

/-! ## Handlers -/

/-- `GatewayServer::apply_cors_headers`. -/
def applyCorsHeaders (config : GatewayConfig) (response : HttpResponse) : HttpResponse :=
  if config.enableCors then
    (((response.setHeader "Access-Control-Allow-Origin" config.corsOrigin).setHeader
      "Access-Control-Allow-Methods" (Text.ofString "GET, POST, PUT, DELETE, OPTIONS")).setHeader
      "Access-Control-Allow-Headers" (Text.ofString "Content-Type, Authorization")).setHeader
      "Access-Control-Max-Age" (Text.ofString "86400")
  else response

/-- `GatewayServer::handle_health`. -/
def handleHealth : HttpResponse :=
  { : HttpResponse }.setJsonBody
    (Text.ofString "\x7b\"status\": \"healthy\", \"service\": \"cashew-gateway\"\x7d")

/-- `GatewayServer::handle_status`. -/
def handleStatus : Guarded GatewayMutex GatewayServer HttpResponse := do
  let stats ← getStatistics
  let field (name : String) (value : Nat) : Bytes := lit name ++ (Text.decimal value).bytes
  return { : HttpResponse }.setJsonBody
    ⟨lit "\x7b\"service\": \"cashew-gateway\"," ++
      field "\"total_requests\": " stats.totalRequests ++ lit "," ++
      field "\"active_sessions\": " stats.activeSessions ++ lit "," ++
      field "\"anonymous_sessions\": " stats.anonymousSessions ++ lit "," ++
      field "\"authenticated_sessions\": " stats.authenticatedSessions ++ lit "," ++
      field "\"bytes_sent\": " stats.bytesSent ++ lit "," ++
      field "\"bytes_received\": " stats.bytesReceived ++ lit "\x7d"⟩

/-- The page of `handle_root` where the web root has no `index.html`. -/
def welcomePage : String :=
    "\n" ++
    "<!DOCTYPE html>\n" ++
    "<html>\n" ++
    "<head>\n" ++
    "    <title>Cashew Network Gateway</title>\n" ++
    "    <meta charset=\"utf-8\">\n" ++
    "    <style>\n" ++
    "        body \x7b font-family: sans-serif; max-width: 800px; margin: 50px auto; " ++
    "padding: 20px; \x7d\n" ++
    "        h1 \x7b color: #333; \x7d\n" ++
    "        .status \x7b color: #28a745; font-weight: bold; \x7d\n" ++
    "        a \x7b color: #007bff; text-decoration: none; \x7d\n" ++
    "        a:hover \x7b text-decoration: underline; \x7d\n" ++
    "    </style>\n" ++
    "</head>\n" ++
    "<body>\n" ++
    "    <h1>Cashew Network Gateway</h1>\n" ++
    "    <p class=\"status\">Status: Online</p>\n" ++
    "    <p>Welcome to the Cashew decentralized network! This gateway provides " ++
    "browser access to the P2P network.</p>\n" ++
    "    <h2>API Endpoints</h2>\n" ++
    "    <ul>\n" ++
    "        <li><a href=\"/health\">/health</a> - Server health check</li>\n" ++
    "        <li><a href=\"/api/status\">/api/status</a> - Network status</li>\n" ++
    "        <li><a href=\"/api/networks\">/api/networks</a> - List available networks</li>\n" ++
    "        <li>/api/thing/:hash - Retrieve content by hash</li>\n" ++
    "        <li>/api/auth - Authenticate with key (POST)</li>\n" ++
    "    </ul>\n" ++
    "    <p><small>Powered by Cashew Network v1.0</small></p>\n" ++
    "</body>\n" ++
    "</html>\n" ++
    "    "

/-- `GatewayServer::handle_root`. Without a web root there is no `index.html` either. -/
def handleRoot (config : GatewayConfig) (around : RequestSurroundings) : Option HttpResponse :=
  let welcome := { : HttpResponse }.setHtmlBody (Text.ofString welcomePage)
  match around.webRoot with
  | none => some welcome
  | some root => do
    let index := root.path ++ [StaticFiles.indexHtml]
    if (← around.fs.exists? index) && (← around.fs.isRegularFile index) then
      StaticFiles.handleStaticFile around.fs config around.listing (some root)
        (Text.ofString "/static/index.html")
    else return welcome

/-- `find_field` of `handle_authenticate`. -/
def findField (body : Bytes) (field : String) : Bytes :=
  let fieldKey := lit ("\"" ++ field ++ "\":")
  match findFrom fieldKey body 0 with
  | none => []
  | some pos =>
    let value := (body.drop (pos + fieldKey.length)).dropWhile fun c => c == 32 || c == 34
    value.takeWhile fun c => c != 34 && c != 44

/-- The value of a hexadecimal digit. -/
def hexValue (c : UInt8) : Option Nat :=
  if 48 ≤ c && c ≤ 57 then some (c.toNat - 48)
  else if 97 ≤ c && c ≤ 102 then some (c.toNat - 87)
  else if 65 ≤ c && c ≤ 70 then some (c.toNat - 55)
  else none

/-- `std::stoul` with base 16 on two characters: blanks and a sign in front are taken. -/
def stoulHex (text : Bytes) : Option Nat :=
  let text := text.dropWhile isSpace
  let negative := text.head? = some 45
  let digits := (if negative || text.head? = some 43 then text.tail else text).takeWhile
    fun c => (hexValue c).isSome
  let value := (digits.filterMap hexValue).foldl (fun value digit => value * 16 + digit) 0
  if digits = [] then none else some (if negative then 2 ^ 64 - value else value)

/-- `hex_to_bytes`. -/
def hexToBytes (size : Nat) (hex : Bytes) : Option (FixedBytes size) :=
  if hex.length = size * 2 then
    (List.ofFn fun i : Fin size =>
      (stoulHex ((hex.drop (i * 2)).take 2)).map UInt8.ofNat).allSome.bind fun bytes =>
        if h : bytes.length = size then some ⟨bytes, h⟩ else none
  else none

/-- `GatewayServer::handle_authenticate`: the response, and the session afterwards. -/
def handleAuthenticate (verify : Bytes → Signature → PublicKey → Bool) (request : HttpRequest)
    (session : GatewaySession) : HttpResponse × GatewaySession :=
  let publicKeyHex := findField request.body "public_key"
  let message := findField request.body "message"
  let signatureHex := findField request.body "signature"
  if request.body = [] then (.failure .badRequest "Empty request body", session)
  else if publicKeyHex = [] || message = [] || signatureHex = [] then
    (.failure .badRequest "Missing required fields (public_key, message, signature)", session)
  else
    match hexToBytes 32 publicKeyHex with
    | none => (.failure .badRequest "Invalid public key format", session)
    | some publicKey =>
      match hexToBytes 64 signatureHex with
      | none => (.failure .badRequest "Invalid signature format", session)
      | some signature =>
        if !verify message signature publicKey then
          (.failure .unauthorized "Invalid signature", session)
        else
          let session := { session with
            userKey := some publicKey
            isAnonymous := false
            canPost := true
            canVote := true }
          ({ : HttpResponse }.setJsonBody
            ⟨lit "\x7b\"authenticated\": true,\"session_id\": \"" ++ session.sessionId.bytes ++
              lit "\",\"capabilities\": \x7b\"can_read\": true,\"can_post\": true," ++
              lit "\"can_vote\": true,\"can_host\": " ++
              lit (if session.canHost then "true" else "false") ++ lit "\x7d\x7d"⟩, session)

/-! ## Requests -/

section

variable (H : Bytes → Hash256) (verify : Bytes → Signature → PublicKey → Bool)

/-- A handler's response. The session is changed in place. -/
def runHandler (around : RequestSurroundings) (request : HttpRequest) (id : Text)
    (session : GatewaySession) : Route → Guarded GatewayMutex GatewayServer HttpResponse
  | .root => do
    let s ← Guarded.get
    .ofOption (handleRoot s.config around)
  | .health => return handleHealth
  | .status => handleStatus
  | .networks => .ofOption around.networks
  | .networkDetail => .ofOption (around.networkDetail request)
  | .thingContent => .ofOption (around.thingContent request session)
  | .authenticate => do
    let (response, session) := handleAuthenticate verify request session
    .modify fun s => { s with sessions := s.sessions.insert id session }
    return response
  | .staticFile => do
    let s ← Guarded.get
    .ofOption (StaticFiles.handleStaticFile around.fs s.config around.listing around.webRoot
      request.path)

/-- The response with its headers, and its size counted. -/
def finish (response : HttpResponse) : Guarded GatewayMutex GatewayServer HttpResponse := do
  let s ← Guarded.get
  .modify fun s =>
    { s with stats := { s.stats with bytesSent := s.stats.bytesSent + response.body.length } }
  return applyCorsHeaders s.config response

/-- The path of a request for a static file that no route is for. -/
def staticPath (path : Text) : Text :=
  if (lit "/static/").isPrefixOf path.bytes then path
  else if path.bytes.head? = some 47 then ⟨lit "/static" ++ path.bytes⟩
  else ⟨lit "/static/" ++ path.bytes⟩

/-- What follows the session in `handle_request`. -/
def respond (around : RequestSurroundings) (request : HttpRequest) (id : Text)
    (session : GatewaySession) : Guarded GatewayMutex GatewayServer HttpResponse :=
  match findHandler request.method request.path with
  | none =>
    if request.method = .get && !(lit "/api/").isPrefixOf request.path.bytes then do
      let s ← Guarded.get
      let response ← .ofOption (StaticFiles.handleStaticFile around.fs s.config around.listing
        around.webRoot (staticPath request.path))
      finish response
    else do
      let s ← Guarded.get
      return applyCorsHeaders s.config (.failure .notFound "Not found")
  | some route =>
    .catching
      (do
        let response ← runHandler verify around request id session route
        finish response)
      (do
        let s ← Guarded.get
        return applyCorsHeaders s.config (.failure .internalError "Internal server error"))

/-- `GatewayServer::handle_request`. -/
def handleRequest (around : RequestSurroundings) (request : HttpRequest) :
    Guarded GatewayMutex GatewayServer HttpResponse :=
  .withLock .stats do
    .modify fun s =>
      { s with
        stats := { s.stats with
          totalRequests := s.stats.totalRequests + 1
          bytesReceived := s.stats.bytesReceived + request.body.length } }
    if !(← checkRateLimit around request.clientIp) then
      let s ← Guarded.get
      return applyCorsHeaders s.config (.failure .serviceUnavailable "Rate limit exceeded")
    let (id, session) ← getOrCreateSession H around request
    respond verify around request id session

/-- `forward_request`, up to what the HTTP library makes of the response; an exception it answers
with 500. A thread that is stuck keeps the mutex of the statistics, and no later request is
answered. -/
def forwardRequest (s : Option GatewayServer) (around : RequestSurroundings)
    (request : HttpRequest) : Option GatewayServer × Option HttpResponse :=
  match s with
  | none => (none, none)
  | some s =>
    match handleRequest H verify around request [] s with
    | .returned response s' => (some s', some response)
    | .threw s' => (some s', some { status := .internalError, headers := .empty, body := [] })
    | .stuck _ => (none, none)

end

end GatewayServer

/-! ## Runs -/

/-- The server, or nothing once a thread is stuck, and the answers to its requests. -/
def gatewayMachine (H : Bytes → Hash256) (verify : Bytes → Signature → PublicKey → Bool) :
    Machine (Option GatewayServer) (RequestSurroundings × HttpRequest) (Option HttpResponse) where
  step s input := (GatewayServer.forwardRequest H verify s input.1 input.2).map id ([·])

end Cashew
