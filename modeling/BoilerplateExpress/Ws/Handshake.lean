import BoilerplateExpress.Auth.Jwt

/-!
# The handshake decision

`ws/handshake.ts`: who is opening a socket, decided from the upgrade request alone.
The decision is a value, never a throw.
-/
namespace BoilerplateExpress.Ws

/-- `Sec-WebSocket-Protocol` as Node presents it. -/
inductive ProtocolHeader where
  | absent
  | single (value : Text)
  | repeated (values : List Text)

/-- The parts of an upgrade request that the listener reads. -/
structure UpgradeRequest where
  url : Option Text
  authorization : Option Text
  origin : Option Text
  secWebSocketProtocol : ProtocolHeader

def bearerSubprotocol : Text := "bearer.auth.v1".toList

structure HandshakeAccepted where
  principal : Auth.JwtPayload
  subprotocol : Option Text

structure HandshakeRejected where
  status : ℕ
  code : Text
  message : Text

def readOfferedSubprotocols (req : UpgradeRequest) : List Text :=
  match req.secWebSocketProtocol with
  | .absent => []
  | .single value => offered value
  | .repeated values => offered ([','].intercalate values)
where
  offered (raw : Text) : List Text :=
    ((raw.splitOn ',').map Text.trim).filter (fun value => value.length > 0)

/-- The token in the `Authorization` header, if it has one. -/
def bearerToken (authorization : Text) : Option Text :=
  if "Bearer ".toList.isPrefixOf authorization then
    let token := Text.trim (authorization.drop 7)
    if token.length > 0 then some token else none
  else none

/-- `Authorization` first, then the entry after the sentinel subprotocol. -/
def readHandshakeToken (req : UpgradeRequest) : Option Text :=
  match req.authorization.bind bearerToken with
  | some token => some token
  | none =>
    let offered := readOfferedSubprotocols req
    let sentinel := offered.idxOf bearerSubprotocol
    if sentinel = offered.length then none else offered[sentinel + 1]?

def originNotAllowed : HandshakeRejected where
  status := 403
  code := "ORIGIN_NOT_ALLOWED".toList
  message := "WebSocket connections are not accepted from this origin".toList

def missingToken : HandshakeRejected where
  status := 401
  code := "UNAUTHORIZED".toList
  message := "Missing access token. Send an Authorization: Bearer header, or offer the \"".toList ++
    bearerSubprotocol ++ "\" subprotocol followed by the token.".toList

def invalidToken (code : Text) : HandshakeRejected where
  status := 401
  code := code
  message := "Invalid or expired access token".toList

def authenticateHandshake (key : Auth.JwtKey) (allowedOrigins : Option (List Text))
    (req : UpgradeRequest) (now : ℕ) : Except HandshakeRejected HandshakeAccepted :=
  if allowedOrigins.any (fun allowed => req.origin.any (fun origin => origin ∉ allowed)) then
    .error originNotAllowed
  else
    match readHandshakeToken req with
    | none => .error missingToken
    | some token =>
      match Auth.verifyAccessToken key token now with
      | .error e => .error (invalidToken ((e.code.getD "TOKEN_INVALID").toList))
      | .ok principal =>
        if principal.type ≠ .access then .error (invalidToken "TOKEN_INVALID".toList)
        else
          .ok
            { principal := principal
              subprotocol :=
                if bearerSubprotocol ∈ readOfferedSubprotocols req then some bearerSubprotocol
                else none }

/-- Milliseconds until the principal expires; the claim is in seconds. -/
def millisecondsUntilExpiry (principal : Auth.JwtPayload) (nowMs : ℕ) : Option ℚ :=
  principal.exp.map (fun exp => max 0 ((exp : ℚ) * 1000 - nowMs))

end BoilerplateExpress.Ws
