import BoilerplateExpress.Ws.Connection
import BoilerplateExpress.Ws.Handshake

/-!
# The upgrade listener

`attachWebSocketServer` of `ws/ws.server.ts`. The listener answers every upgrade
request of the HTTP server: it writes an HTTP refusal or hands the socket to the
WebSocket library, whose own checks and the URL parser are parameters. A throw from
the listener is an uncaught exception, so every call in it that can throw is an
error here.
-/
namespace BoilerplateExpress.Ws

/-- The options of the server, in the ranges the configuration schema admits. -/
structure WsServerOptions where
  path : Text
  maxConnections : ℕ
  rateLimit : WsRateLimitOptions
  heartbeatIntervalMs : ℕ
  maxBufferedBytes : ℕ
  allowedOrigins : Option (List Text)
  maxConnections_pos : 1 ≤ maxConnections
  burst_pos : 1 ≤ rateLimit.burst
  messagesPerSecond_pos : 1 ≤ rateLimit.messagesPerSecond
  bytesPerSecond_pos : 1 ≤ rateLimit.bytesPerSecond
  heartbeat_pos : 1 ≤ heartbeatIntervalMs
  maxBuffered_pos : 1 ≤ maxBufferedBytes

/-- The libraries the listener calls: the pathname the URL constructor reads off a
target against `http://localhost` (`none` where it throws), the access token key, and of the
WebSocket library its `close` and whether it completes a handshake or answers it with an error. -/
structure WsLibraries where
  socket : SocketLibrary
  parsePathname : Text → Option Text
  accessKey : Auth.JwtKey
  completes : UpgradeRequest → Bool

structure WsServerState where
  connections : List WsConnection
  closing : Bool

def statusText : ℕ → String
  | 400 => "Bad Request"
  | 401 => "Unauthorized"
  | 403 => "Forbidden"
  | 404 => "Not Found"
  | 503 => "Service Unavailable"
  | _ => "Error"

/-- The JSON error envelope of a refusal. -/
def errorEnvelope (code message : Text) : Text :=
  "\x7b\"data\":null,\"meta\":null,\"error\":\x7b\"code\":".toList ++ Text.jsonQuote code ++
    ",\"message\":".toList ++ Text.jsonQuote message ++ "\x7d\x7d".toList

/-- The HTTP response written before the socket is destroyed. -/
def refuseUpgrade (status : ℕ) (code message : Text) : Text :=
  let body := errorEnvelope code message
  "HTTP/1.1 ".toList ++ Text.natToText status ++ [' '] ++ (statusText status).toList ++
    "\r\nContent-Type: application/json; charset=utf-8\r\nContent-Length: ".toList ++
    Text.natToText (Text.utf8Length body) ++ "\r\nConnection: close\r\n\r\n".toList ++ body

inductive UpgradeOutcome where
  | refused (response : Text)
  | abortedByLibrary
  | closedAtCapacity
  | opened (connection : WsConnection)

inductive UpgradeError where
  | invalidUrl (target : Text)
  | close (message : Text)
  | range (e : RangeError)

/-- The callback of the completed handshake. -/
def onUpgraded (socket : SocketLibrary) (options : WsServerOptions) (s : WsServerState)
    (principal : Auth.JwtPayload) (nowMs : ℕ) (messagesNow bytesNow : ℚ) :
    Except UpgradeError (UpgradeOutcome × WsServerState) :=
  if s.connections.length ≥ options.maxConnections then
    match socket.closeFrame WsCloseCode.goingAway.number "Capacity exhausted".toList with
    | .error message => .error (.close message)
    | .ok () => .ok (.closedAtCapacity, s)
  else
    match createWsConnection
      { principal := principal
        rateLimit := options.rateLimit
        heartbeatIntervalMs := options.heartbeatIntervalMs
        maxBufferedBytes := options.maxBufferedBytes
        expiresInMs := millisecondsUntilExpiry principal nowMs } messagesNow bytesNow with
    | .error e => .error (.range e)
    | .ok connection =>
      .ok (.opened connection, { s with connections := s.connections ++ [connection] })

/-- The `upgrade` listener. -/
def handleUpgrade (lib : WsLibraries) (options : WsServerOptions) (s : WsServerState)
    (req : UpgradeRequest) (nowMs : ℕ) (messagesNow bytesNow : ℚ) :
    Except UpgradeError (UpgradeOutcome × WsServerState) :=
  match lib.parsePathname (req.url.getD ['/']) with
  | none => .error (.invalidUrl (req.url.getD ['/']))
  | some pathname =>
    if pathname ≠ options.path then
      .ok (.refused (refuseUpgrade 404 "NOT_FOUND".toList
        ("No WebSocket endpoint at ".toList ++ pathname)), s)
    else if s.closing then
      .ok (.refused (refuseUpgrade 503 "SERVER_SHUTTING_DOWN".toList
        "This instance is shutting down".toList), s)
    else if s.connections.length ≥ options.maxConnections then
      .ok (.refused (refuseUpgrade 503 "WS_CAPACITY_EXHAUSTED".toList
        ("This instance is already serving its maximum of ".toList ++
          Text.natToText options.maxConnections ++ " WebSocket connections".toList)), s)
    else
      match authenticateHandshake lib.accessKey options.allowedOrigins req nowMs with
      | .error verdict =>
        .ok (.refused (refuseUpgrade verdict.status verdict.code verdict.message), s)
      | .ok verdict =>
        if lib.completes req then
          onUpgraded lib.socket options s verdict.principal nowMs messagesNow bytesNow
        else .ok (.abortedByLibrary, s)

lemma create_ok (capacity refillPerSecond nowMs) (hcapacity : 0 < capacity)
    (hrefill : 0 < refillPerSecond) :
    ∃ b, TokenBucket.create capacity refillPerSecond nowMs = .ok b := by
  simp [TokenBucket.create, hcapacity, hrefill]

lemma createWsConnection_ok (o messagesNow bytesNow) (hhear : 1 ≤ o.heartbeatIntervalMs)
    (hbuf : 1 ≤ o.maxBufferedBytes) (hburst : 1 ≤ o.rateLimit.burst)
    (hmsgs : 1 ≤ o.rateLimit.messagesPerSecond) (hbytes : 1 ≤ o.rateLimit.bytesPerSecond) :
    ∃ c, createWsConnection o messagesNow bytesNow = .ok c := by
  have hburst' : (0 : ℚ) < o.rateLimit.burst := by exact_mod_cast hburst
  have hmsgs' : (0 : ℚ) < o.rateLimit.messagesPerSecond := by exact_mod_cast hmsgs
  have hbytes' : (0 : ℚ) < o.rateLimit.bytesPerSecond := by exact_mod_cast hbytes
  obtain ⟨m, hm⟩ := create_ok o.rateLimit.burst o.rateLimit.messagesPerSecond messagesNow
    hburst' hmsgs'
  obtain ⟨b, hb⟩ := create_ok
    (max o.rateLimit.bytesPerSecond (o.rateLimit.burst * o.rateLimit.maxMessageBytes))
    o.rateLimit.bytesPerSecond bytesNow (lt_max_of_lt_left hbytes') hbytes'
  unfold createWsConnection
  rw [if_neg (by omega), if_neg (by omega)]
  simp only [hm, hb]
  exact ⟨_, rfl⟩

lemma onUpgraded_ok (socket options s principal nowMs messagesNow bytesNow) :
    ∃ r, onUpgraded socket options s principal nowMs messagesNow bytesNow = .ok r := by
  unfold onUpgraded
  split_ifs with hfull
  · rw [socket.closeFrame_ok _ _ (by decide) (by decide)]
    exact ⟨_, rfl⟩
  · obtain ⟨c, hc⟩ := createWsConnection_ok
      { principal := principal
        rateLimit := options.rateLimit
        heartbeatIntervalMs := options.heartbeatIntervalMs
        maxBufferedBytes := options.maxBufferedBytes
        expiresInMs := millisecondsUntilExpiry principal nowMs } messagesNow bytesNow
      options.heartbeat_pos options.maxBuffered_pos options.burst_pos
      options.messagesPerSecond_pos options.bytesPerSecond_pos
    rw [hc]
    exact ⟨_, rfl⟩

/-- The listener returns, with the socket refused by an HTTP response or handed to
the handshake, exactly on the targets the URL parser accepts. -/
theorem handleUpgrade_returns_iff (lib : WsLibraries) (options : WsServerOptions)
    (s : WsServerState) (req : UpgradeRequest) (nowMs : ℕ) (messagesNow bytesNow : ℚ) :
    (∃ outcome s', handleUpgrade lib options s req nowMs messagesNow bytesNow =
      .ok (outcome, s')) ↔ (lib.parsePathname (req.url.getD ['/'])).isSome = true := by
  unfold handleUpgrade
  cases hpar : lib.parsePathname (req.url.getD ['/']) with
  | none => simp
  | some pathname =>
    simp only [Option.isSome_some, iff_true]
    cases hverd : authenticateHandshake lib.accessKey options.allowedOrigins req nowMs with
    | error verdict =>
      simp only
      split_ifs
      · exact ⟨_, _, rfl⟩
      · exact ⟨_, _, rfl⟩
      · exact ⟨_, _, rfl⟩
      · exact ⟨_, _, rfl⟩
    | ok verdict =>
      simp only
      split_ifs
      · exact ⟨_, _, rfl⟩
      · exact ⟨_, _, rfl⟩
      · exact ⟨_, _, rfl⟩
      · obtain ⟨⟨outcome, s'⟩, hr⟩ :=
          onUpgraded_ok lib.socket options s verdict.principal nowMs messagesNow bytesNow
        exact ⟨outcome, s', hr⟩
      · exact ⟨_, _, rfl⟩

lemma default_heartbeat_pos : 1 ≤ 30000 := by decide

/-- The default configuration of the service. -/
def sampleServerOptions : WsServerOptions where
  path := "/v1/ws".toList
  maxConnections := 1000
  rateLimit := ⟨20, 10, 131072, 65536⟩
  heartbeatIntervalMs := 30000
  maxBufferedBytes := 1048576
  allowedOrigins := none
  maxConnections_pos := by decide
  burst_pos := by decide
  messagesPerSecond_pos := by decide
  bytesPerSecond_pos := by decide
  heartbeat_pos := default_heartbeat_pos
  maxBuffered_pos := by decide

/-- A URL parser that, as the standard one does, rejects the target `//`. -/
def sampleLibraries : WsLibraries where
  socket := sampleSocket
  parsePathname target := if target = ['/', '/'] then none else some target
  accessKey := ⟨fun _ => none⟩
  completes _ := true

/-- An unauthenticated request for the target `//` makes the listener throw. -/
theorem handleUpgrade_throws :
    ¬ ∀ req : UpgradeRequest, ∃ outcome s',
      handleUpgrade sampleLibraries sampleServerOptions ⟨[], false⟩ req 0 0 0 =
        .ok (outcome, s') := by
  intro h
  obtain ⟨outcome, s', heq⟩ := h ⟨some ['/', '/'], none, none, .absent⟩
  have hthr : handleUpgrade sampleLibraries sampleServerOptions ⟨[], false⟩
      ⟨some ['/', '/'], none, none, .absent⟩ 0 0 0 = .error (.invalidUrl ['/', '/']) := rfl
  rw [hthr] at heq
  cases heq

end BoilerplateExpress.Ws
