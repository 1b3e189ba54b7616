import WsTcpProxy.Config
import WsTcpProxy.Proto

/-!
# Request headers

What `server.rs` reads from the headers of a request: the origin and the host, the address of
the client behind a proxy, and the token.
-/

namespace WsTcpProxy

/-- Header values under lower-case names, in the order in which they arrived. -/
structure HeaderMap where
  entries : List (Str × Bytes) := []
  deriving DecidableEq, Repr

/-- `HeaderMap::get`: the first value under a name. -/
def HeaderMap.get (headers : HeaderMap) (name : Str) : Option Bytes :=
  (headers.entries.find? fun e => e.1 = name).map Prod.snd

/-- `HeaderValue::to_str`: only visible ASCII and tabs. -/
def headerText (value : Bytes) : Option Str :=
  if value.all fun b => (32 ≤ b && b < 127) || b == 9 then
    some (value.map fun b => Char.ofNat b.toNat)
  else none

def HeaderMap.text (headers : HeaderMap) (name : String) : Option Str :=
  (headers.get name.toList).bind headerText

def originAllowed (headers : HeaderMap) (allowed : Finset Str) : Bool :=
  if allowed = ∅ ∨ "*".toList ∈ allowed then true
  else match headers.text "origin" with
    | none => true
    | some raw => decide (∃ o ∈ allowed, normalizeOrigin o = normalizeOrigin raw)

def hostAllowed (headers : HeaderMap) (allowed : Finset Str) : Bool :=
  if allowed = ∅ then true
  else match headers.text "host" with
    | none => false
    | some raw =>
      let got := normalizeHost raw
      decide (∃ h ∈ allowed,
        got = normalizeHost h ∨ (got.splitOn ':').head? = some (normalizeHost h))

/-- The names of the forwarded-client headers, in the order of preference. -/
def forwardedNames : List String :=
  ["cf-connecting-ip", "x-real-ip", "x-forwarded-for", "x-envoy-external-address"]

def forwardedClientIp (headers : HeaderMap) : Option IpAddr :=
  forwardedNames.findSome? fun name =>
    (headers.text name).bind fun value =>
      (value.splitOn ',').findSome? fun token => parseIpAddr (trim token)

def clientIp (headers : HeaderMap) (peer : SocketAddr) (trustForwarded : Bool)
    (trusted : List Cidr) : IpAddr :=
  if trustForwarded && trusted.any (·.contains peer.ip) then
    (forwardedClientIp headers).getD peer.ip
  else peer.ip

/-! ### Tokens -/

/-- Constant-time comparison. The shorter text is read on as zero bytes, and all differences are
collected in one accumulator. -/
def tokenEq (a b : Bytes) : Bool :=
  let diff := a.length ^^^ b.length
  let n := max a.length b.length
  (List.range n).foldl (fun diff i => diff ||| (a.getD i 0 ^^^ b.getD i 0).toNat) diff == 0

def bearerToken (headers : HeaderMap) : Option Str :=
  (headers.text "authorization").bind fun raw =>
    ((stripPrefix "Bearer ".toList raw <|> stripPrefix "bearer ".toList raw).map trim).filter
      fun s => !s.isEmpty

/-- The token of one offered subprotocol: `bearer.<token>` or a raw `v4.local.*`. -/
def tokenOfProtocol (p : Str) : Option Str :=
  (stripPrefix "bearer.".toList p).filter (fun t => !t.isEmpty) <|>
    if "v4.local.".toList.isPrefixOf p then some p else none

def protocolToken (headers : HeaderMap) : Option Str :=
  (headers.text "sec-websocket-protocol").bind fun raw =>
    ((raw.splitOn ',').map trim).findSome? tokenOfProtocol

def offeredAuthProtocol (headers : HeaderMap) : Option Str :=
  (headers.text "sec-websocket-protocol").bind fun raw =>
    ((raw.splitOn ',').map trim).find? fun p =>
      "bearer.".toList.isPrefixOf p || "v4.local.".toList.isPrefixOf p

structure ProxyQuery where
  token : Str := []
  remote : Str
  deriving DecidableEq, Repr

def proxyToken (query : ProxyQuery) (headers : HeaderMap) : Str :=
  if !query.token.isEmpty then query.token
  else match bearerToken headers with
    | some b => b
    | none => (protocolToken headers).getD []

end WsTcpProxy
