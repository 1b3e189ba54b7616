import WsTcpProxy.Probe
import WsTcpProxy.Server

/-!
# Start-up

From the environment to the process that serves (`main.rs`, and the readers and the safety check
of `config.rs`). A variable that is not set, or is not Unicode, has no text. `usize` has 64 bits.
-/

namespace WsTcpProxy

abbrev Env := String → Option Str

/-! ### Readers -/

def parseU64 (s : Str) : Option Nat := fromStrRadix 10 u64Max s

def truthy : List Str := ["1".toList, "true".toList, "yes".toList, "on".toList]

def envBool (env : Env) (key : String) (default : Bool) : Bool :=
  match env key with
  | some v => toAsciiLowercase (trim v) ∈ truthy
  | none => default

/-- `env_u64` and `env_usize`. -/
def envU64 (env : Env) (key : String) (default : Nat) : Nat :=
  ((env key).bind parseU64).getD default

def asSecs (d : Duration) : Nat := d / fromSecs 1

def envSecs (env : Env) (key : String) (default : Duration) : Duration :=
  match env key with
  | some v => fromSecs ((parseU64 v).getD (asSecs default))
  | none => default

def parseCidrs (raw : Str) : List Cidr := (raw.splitOn ',').filterMap Cidr.parse

/-- `none` is any port. What is not a port number is skipped. -/
def parseAllowedPorts (raw : Str) : Option (Finset Nat) :=
  let raw := trim raw
  if raw.isEmpty then some defaultAllowedPorts
  else if toAsciiLowercase raw = "any".toList ∨ raw = "*".toList then none
  else
    let parts := ((raw.splitOn ',').map trim).filter fun part => !part.isEmpty
    some ((parts.filterMap parseU16).filter (· ≠ 0)).toFinset

def parseSecretKey (env : Env) : Option Bytes :=
  (env "MAILINER_PASETO_SECRET").bind fun key =>
    let bytes := asBytes key
    if bytes.length ≠ 32 then none else some bytes

def parseAuthMode (env : Env) : AuthMode :=
  if toAsciiLowercase ((env "MAILINER_AUTH").getD []) = "public".toList then .publicReflector
  else .paseto

def applyLimitsEnv (env : Env) (limits : LimitsConfig) : LimitsConfig :=
  { limits with
    maxGlobalConnections :=
      envU64 env "MAILINER_MAX_GLOBAL_CONNECTIONS" limits.maxGlobalConnections
    maxConnsPerIp := envU64 env "MAILINER_MAX_CONNS_PER_IP" limits.maxConnsPerIp
    maxConnsPerDest := envU64 env "MAILINER_MAX_CONNS_PER_DEST" limits.maxConnsPerDest
    connectsPerIp := envU64 env "MAILINER_CONNECTS_PER_IP_PER_MIN" limits.connectsPerIp
    distinctDestsPerIp :=
      envU64 env "MAILINER_DISTINCT_DESTS_PER_IP_PER_MIN" limits.distinctDestsPerIp
    globalConnects := envU64 env "MAILINER_GLOBAL_CONNECTS_PER_SEC" limits.globalConnects
    maxBytesPerIp := envU64 env "MAILINER_MAX_BYTES_PER_IP_PER_HOUR" limits.maxBytesPerIp
    ipv4Prefix := min (envU64 env "MAILINER_LIMIT_IPV4_PREFIX" limits.ipv4Prefix) 32
    ipv6Prefix := min (envU64 env "MAILINER_LIMIT_IPV6_PREFIX" limits.ipv6Prefix) 128
    maxTrackedIps := envU64 env "MAILINER_MAX_TRACKED_IPS" limits.maxTrackedIps }

def applyEnv (env : Env) (config : Config) : Config :=
  { config with
    authMode := parseAuthMode env
    dest :=
      { config.dest with
        allowedPorts := match env "MAILINER_ALLOWED_PORTS" with
          | some raw => parseAllowedPorts raw
          | none => config.dest.allowedPorts
        allowPrivateDestinations :=
          envBool env "MAILINER_ALLOW_PRIVATE_DESTS" config.dest.allowPrivateDestinations
        allowIpLiterals := envBool env "MAILINER_ALLOW_IP_LITERALS" config.dest.allowIpLiterals }
    trustForwardedClientIp :=
      envBool env "MAILINER_TRUST_FORWARDED_CLIENT_IP" config.trustForwardedClientIp
    trustedProxies := match env "MAILINER_TRUSTED_PROXIES" with
      | some raw => parseCidrs raw
      | none => config.trustedProxies
    requireProtocolProbe :=
      envBool env "MAILINER_REQUIRE_PROTOCOL_PROBE" config.requireProtocolProbe
    allowedOrigins := match env "MAILINER_ALLOWED_ORIGINS" with
      | some raw => parseCsvSet raw
      | none => config.allowedOrigins
    allowedHosts := match env "MAILINER_ALLOWED_HOSTS" with
      | some raw => parseCsvSet raw
      | none => config.allowedHosts
    maxBytesPerConnection :=
      envU64 env "MAILINER_MAX_BYTES_PER_CONNECTION" config.maxBytesPerConnection
    maxLifetime := envSecs env "MAILINER_MAX_LIFETIME_SECS" config.maxLifetime
    dnsTimeout := envSecs env "MAILINER_DNS_TIMEOUT_SECS" config.dnsTimeout
    wsMaxMessageBytes := envU64 env "MAILINER_WS_MAX_MESSAGE_BYTES" config.wsMaxMessageBytes
    wsMaxFrameBytes := envU64 env "MAILINER_WS_MAX_FRAME_BYTES" config.wsMaxFrameBytes
    pasetoMaxTtl := envSecs env "MAILINER_PASETO_MAX_TTL_SECS" config.pasetoMaxTtl
    limits := applyLimitsEnv env config.limits }

/-! ### The safety check -/

/-- The settings that make a public deployment unsafe, with what is said of them. -/
def Config.safetyChecks (config : Config) : List (Bool × String) :=
  [(config.dest.allowedPorts.isNone, "MAILINER_ALLOWED_PORTS=any/* opens every TCP port"),
    (config.dest.allowPrivateDestinations,
      "MAILINER_ALLOW_PRIVATE_DESTS=1 enables SSRF to RFC1918/loopback"),
    (config.dest.allowIpLiterals, "MAILINER_ALLOW_IP_LITERALS=1 allows raw IP destinations"),
    (!config.requireProtocolProbe,
      "MAILINER_REQUIRE_PROTOCOL_PROBE=0 disables the mail-protocol probes"),
    (config.trustForwardedClientIp && config.trustedProxies.isEmpty,
      "MAILINER_TRUST_FORWARDED_CLIENT_IP=1 requires MAILINER_TRUSTED_PROXIES"),
    (config.authMode = .publicReflector ∧
        (config.allowedOrigins = ∅ ∨ "*".toList ∈ config.allowedOrigins),
      "MAILINER_AUTH=public requires MAILINER_ALLOWED_ORIGINS (not *)")]

/-- The caps that a public deployment must not turn off, with their variables. -/
def Config.safetyCaps (config : Config) : List (String × Bool) :=
  [("MAILINER_MAX_GLOBAL_CONNECTIONS", config.limits.maxGlobalConnections = 0),
    ("MAILINER_MAX_CONNS_PER_IP", config.limits.maxConnsPerIp = 0),
    ("MAILINER_CONNECTS_PER_IP_PER_MIN", config.limits.connectsPerIp = 0),
    ("MAILINER_MAX_BYTES_PER_CONNECTION", config.maxBytesPerConnection = 0),
    ("MAILINER_MAX_BYTES_PER_IP_PER_HOUR", config.limits.maxBytesPerIp = 0),
    ("MAILINER_MAX_LIFETIME_SECS", config.maxLifetime = 0)]

/-- An empty list means the process may listen on the internet. -/
def Config.publicSafetyErrors (config : Config) : List String :=
  (config.safetyChecks.filter Prod.fst).map Prod.snd ++
    (config.safetyCaps.filter Prod.snd).map fun cap => cap.1 ++ "=0 disables that cap"

/-! ### `main` -/

structure Args where
  port : Nat := 9400
  bind : Str := "0.0.0.0".toList
  logLevel : Str := "info".toList
  deriving DecidableEq, Repr

/-- The functions of `clap`, `slog` and `tokio` that `main` calls. -/
structure StartLibrary where
  /-- `Args::parse`, of the command line and of the variables `PORT`, `BIND` and `LOG_LEVEL`; an
  error is the text with which it exits. -/
  parseArgs : Env → Except String Args
  /-- `Level::from_str` accepts the name. -/
  isLevel : Str → Bool
  /-- `TcpListener::bind`. -/
  bind : Str → Except String Unit

/-- The configuration with the settings that only `main` and `run_proxy` read. -/
structure Startup where
  config : Config
  bindAddr : Str
  listenPort : Nat
  metricsAuthKey : Option Str
  /-- If set, `/metrics` is served only on this address. -/
  metricsBind : Option Str

def metricsAuthTokenVar : String := "METRICS_AUTH_TOKEN"

def secretVar : String := "MAILINER_PASETO_SECRET"

def parseMetricsAuthKey (debugAssertions : Bool) (env : Env) : Except String (Option Str) :=
  match env metricsAuthTokenVar with
  | some key => .ok (some key)
  | none =>
    if debugAssertions then .ok none
    else .error (metricsAuthTokenVar ++ " is not set in production build!")

def parseLogLevel (lib : StartLibrary) (val : Str) : Except String Unit :=
  if lib.isLevel val then .ok () else .error ("Invalid log level " ++ String.ofList val)

/-- The part of `main` between the log level and the listener. -/
def configure (debugAssertions : Bool) (args : Args) (env : Env) : Except String Startup := do
  let secretKey := parseSecretKey env
  let metricsAuthKey ← parseMetricsAuthKey debugAssertions env
  let config := applyEnv env { secretKey := secretKey }
  let allowUnsafe := envBool env "MAILINER_UNSAFE" false
  let safety := config.publicSafetyErrors
  if !safety.isEmpty && !allowUnsafe && !debugAssertions then
    throw ("refusing to start with unsafe public-hosting settings " ++
      "(set MAILINER_UNSAFE=1 to override): " ++ "; ".intercalate safety)
  if config.authMode = .paseto ∧ config.secretKey = none ∧ !debugAssertions then
    throw (secretVar ++ " is not set in production build!")
  return {
    config := config
    bindAddr := args.bind
    listenPort := args.port
    metricsAuthKey := metricsAuthKey
    metricsBind := (env "MAILINER_METRICS_ADDR").filter fun s => !s.isEmpty }

/-- The text of the address that the process listens on. -/
def Args.address (args : Args) : Str := args.bind ++ ':' :: Nat.toDigits 10 args.port

/-- `main` up to its listener; an error is the text of its exit, of its panic or of what it
returns. -/
def launch (debugAssertions : Bool) (lib : StartLibrary) (env : Env) : Except String Startup := do
  let args ← lib.parseArgs env
  parseLogLevel lib args.logLevel
  let startup ← configure debugAssertions args env
  lib.bind args.address
  return startup

/-- What serves requests behind a start. -/
def Startup.deployment (startup : Startup) (lib : TokenLibrary) (debugAssertions : Bool) :
    Deployment where
  config := startup.config
  lib := lib
  debugAssertions := debugAssertions

/-! ### Routes -/

inductive Route where
  | health
  | proxy
  | metrics
  deriving DecidableEq, Repr

inductive Listener where
  | main
  | metrics
  deriving DecidableEq, Repr

/-- The routes of a listener. The one for metrics is bound only with an address of its own. -/
def Startup.routes (startup : Startup) : Listener → List (Str × Route)
  | .main =>
    [("/health".toList, .health), ("/proxy".toList, .proxy)] ++
      if startup.metricsBind.isNone then [("/metrics".toList, .metrics)] else []
  | .metrics => if startup.metricsBind.isSome then [("/metrics".toList, .metrics)] else []

/-- A request for metrics; the token is the one of the query. -/
structure MetricsRequest where
  listener : Listener
  path : Str
  headers : HeaderMap := {}
  token : Option Str := none

/-- A body of the endpoint. -/
inductive MetricsResponse where
  | encoded (m : Metrics)
  | unauthorized

def metricsHandler (startup : Startup) (m : Metrics) (req : MetricsRequest) : MetricsResponse :=
  match startup.metricsAuthKey with
  | some key =>
    let provided := bearerToken req.headers <|> req.token
    if provided.any fun p => tokenEq (asBytes p) (asBytes key) then .encoded m else .unauthorized
  | none => .encoded m

/-- The answer of the process, should the path be that of the metrics. -/
def Startup.serveMetrics (startup : Startup) (m : Metrics) (req : MetricsRequest) :
    Option MetricsResponse :=
  if (startup.routes req.listener).lookup req.path = some .metrics then
    some (metricsHandler startup m req)
  else none

end WsTcpProxy
