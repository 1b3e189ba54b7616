import WsTcpProxy.Dial
import WsTcpProxy.Headers
import WsTcpProxy.Metrics

/-!
# Proxy requests

`proxy_handler` (`server.rs`), from the checks of a request to the upgrade. Token decryption and
the parsing of timestamps are those of `rusty_paseto` and `chrono`.
-/

namespace WsTcpProxy
open Library

inductive StatusCode where
  | badRequest
  | unauthorized
  | forbidden
  | tooManyRequests
  | internalServerError
  | badGateway
  | serviceUnavailable
  deriving DecidableEq, Repr

/-- What `on_upgrade` hands to `Connection::new`, and the settings of the WebSocket. -/
structure Upgrade where
  remote : Remote
  client : IpAddr
  tcp : SocketAddr
  lease : ConnectionLease
  maxMessageSize : Nat
  maxFrameSize : Nat
  protocol : Option Str
  deriving DecidableEq, Repr

inductive Response where
  /-- `reject`: a counted refusal. -/
  | reject (status : StatusCode) (reason : RejectReason) (msg : String)
  | error (status : StatusCode)
  | upgrade (u : Upgrade)
  deriving DecidableEq, Repr

def destStatus : DestError → StatusCode
  | .invalidRemote => .badRequest
  | .badPort | .ipLiteral | .privateIp => .forbidden
  | .dns | .connect => .badGateway

def destMessage : DestError → String
  | .invalidRemote => "invalid remote"
  | .badPort => "destination port not allowed"
  | .ipLiteral => "IP literals are not allowed"
  | .privateIp => "destination is not a public address"
  | .dns => "failed to resolve destination"
  | .connect => "failed to connect to destination"

def limitStatus : LimitError → StatusCode
  | .globalFull | .perDestFull => .serviceUnavailable
  | .byteCap => .forbidden
  | _ => .tooManyRequests

def limitMessage : LimitError → String
  | .globalFull => "proxy is at capacity"
  | .perIpFull => "too many connections from this address"
  | .perDestFull => "too many connections to this destination"
  | .connectRate | .globalConnectRate => "connect rate limit exceeded"
  | .distinctDests => "too many distinct destinations"
  | .byteCap => "byte limit exceeded"

def rejectDest (e : DestError) : Response :=
  .reject (destStatus e) (RejectReason.ofDestError e) (destMessage e)

def rejectLimit (e : LimitError) : Response :=
  .reject (limitStatus e) (RejectReason.ofLimitError e) (limitMessage e)

/-! ### Tokens -/

/-- The claims of a token that the proxy reads. -/
structure Claims where
  /-- The text of `exp`, if it is a string. -/
  exp : Option Str

/-- Timestamps in nanoseconds since the epoch. -/
abbrev UtcTime := Int

/-- The functions of `rusty_paseto` and `chrono` that the proxy calls. -/
structure TokenLibrary where
  /-- `PasetoParser::parse` of a token under a key, with the clock that its own check of `nbf` reads,
  the validator of `exp`, which is given its text or the empty one, and the value that the claim
  `remote` must have. -/
  parse : (now : UtcTime) → (validExp : Str → Bool) → (remote token : Str) → (key : Bytes) →
    Option Claims
  parseRfc3339 : Str → Option UtcTime

structure UtcReadings where
  notBefore : UtcTime
  validation : UtcTime
  ttl : UtcTime

variable (lib : TokenLibrary)

/-- The validator of the claim `exp`: non-expiring tokens are not permitted. -/
def validExp (now : UtcTime) (val : Str) : Bool :=
  if val.isEmpty then false
  else match lib.parseRfc3339 val with
    | none => false
    | some datetime => !decide (datetime ≤ now)

/-- The part of `validate_token` behind the parser: the token must not live too long. -/
def checkTtl (maxTtl : Duration) (now : UtcTime) (claims : Claims) : Except StatusCode Unit :=
  if maxTtl = 0 then .ok ()
  else match claims.exp with
    | none => .error .unauthorized
    | some exp =>
      match lib.parseRfc3339 exp with
      | none => .error .unauthorized
      | some datetime =>
        let remaining := datetime - now
        if remaining < 0 ∨ (maxTtl : Int) < remaining then .error .unauthorized else .ok ()

/-- `debugAssertions` is whether the program was built with them. -/
def validateToken (debugAssertions : Bool) (token remote : Str) (authMode : AuthMode)
    (secretKey : Option Bytes) (maxTtl : Duration) (now : UtcReadings) : Except StatusCode Unit :=
  if authMode = .publicReflector then .ok ()
  else if debugAssertions ∧ token = "testtoken".toList then .ok ()
  else if token.isEmpty then .error .unauthorized
  else match secretKey with
    | none => .error .internalServerError
    | some key =>
      match lib.parse now.notBefore (validExp lib now.validation) remote token key with
      | none => .error .unauthorized
      | some claims => checkTtl lib maxTtl now.ttl claims

/-! ### The handler -/

/-- The configuration with what is fixed at build time. -/
structure Deployment where
  config : Config
  lib : TokenLibrary
  debugAssertions : Bool

structure Request where
  query : ProxyQuery
  peer : SocketAddr
  headers : HeaderMap := {}
  now : UtcReadings

variable (d : Deployment) (req : Request)

def Request.client : IpAddr :=
  clientIp req.headers req.peer d.config.trustForwardedClientIp d.config.trustedProxies

def Request.authorized : Except StatusCode Unit :=
  validateToken d.lib d.debugAssertions (proxyToken req.query req.headers) req.query.remote
    d.config.authMode d.config.secretKey d.config.pasetoMaxTtl req.now

/-- The part of `proxy_handler` before it first turns to the limiter. -/
def checkRequest : Except Response Remote :=
  if !originAllowed req.headers d.config.allowedOrigins then
    .error (.reject .forbidden .badOrigin "origin not allowed")
  else if !hostAllowed req.headers d.config.allowedHosts then
    .error (.reject .forbidden .badHost "host not allowed")
  else match req.authorized d with
    | .error status =>
      if status = .internalServerError then .error (.error status)
      else .error (.reject status .auth "unauthorized")
    | .ok () =>
      match parseRemote req.query.remote with
      | .error e => .error (rejectDest e)
      | .ok remote =>
        match checkPolicy remote d.config.dest with
        | .error e => .error (rejectDest e)
        | .ok () => .ok remote

/-- The rest of `proxy_handler`. The lease comes last, so that a destination that does not answer
cannot pin one. -/
def openUpstream (remote : Remote) : Handler Response := do
  match ← recordAttempt (req.client d) remote.destKey with
  | .error e => return rejectLimit e
  | .ok () =>
    match ← resolveFiltered remote d.config.dest with
    | .error e => return rejectDest e
    | .ok addrs =>
      match ← connectAddrs addrs with
      | .error e => return rejectDest e
      | .ok tcp =>
        match ← acquire (req.client d) remote.destKey with
        | .error e => return rejectLimit e
        | .ok lease =>
          return .upgrade
            { remote := remote
              client := req.client d
              tcp := tcp
              lease := lease
              maxMessageSize := d.config.wsMaxMessageBytes
              maxFrameSize := d.config.wsMaxFrameBytes
              protocol := offeredAuthProtocol req.headers }

def proxyHandler : Handler Response :=
  match checkRequest d req with
  | .error response => pure response
  | .ok remote => openUpstream d req remote

end WsTcpProxy
