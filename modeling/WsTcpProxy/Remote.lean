import WsTcpProxy.AddrText

/-!
# Remotes

Parsing of the `remote=host:port` parameter (`dest.rs`).
-/

namespace WsTcpProxy

inductive DestError where
  | invalidRemote
  | badPort
  | ipLiteral
  | privateIp
  | dns
  | connect
  deriving DecidableEq, Repr

structure Remote where
  /-- Normalized hostname (lowercase, no trailing dots) or canonical IP text. -/
  host : Str
  port : Nat
  ipLiteral : Option IpAddr
  deriving DecidableEq, Repr

def Remote.destKey (r : Remote) : Str := r.host ++ ':' :: Nat.toDigits 10 r.port

def okOr {ε α : Type} (e : ε) : Option α → Except ε α
  | some a => .ok a
  | none => .error e

def normalizeHostname (host : Str) : Str := toAsciiLowercase (trimEndMatches '.' (trim host))

def maxHostnameLen : Nat := 253

def maxDnsLabelLen : Nat := 63

def isValidDnsLabel (label : Str) : Bool :=
  if label.isEmpty || maxDnsLabelLen < utf8Len label then false
  else if !(label.head?.any isAsciiAlphanumeric) || !(label.getLast?.any isAsciiAlphanumeric) then
    false
  else label.all fun c => isAsciiAlphanumeric c || c == '-'

/-- A plausible DNS name, made of labels of letters, digits and hyphens. -/
def isValidDnsHostname (host : Str) : Bool :=
  if host.isEmpty || maxHostnameLen < utf8Len host then false
  else if host.head? == some '.' || contains "..".toList host then false
  else (host.splitOn '.').all isValidDnsLabel

/-- A numeral of an `inet_aton` address: hexadecimal after `0x`, octal after `0`, or decimal. -/
def parseIpv4Component (s : Str) : Option Nat :=
  if s.isEmpty then none
  else match stripPrefix "0x".toList s <|> stripPrefix "0X".toList s with
    | some hex =>
      if hex.isEmpty || !hex.all (fun c => (toDigit 16 c).isSome) then none
      else parseU32 16 hex
    | none =>
      if 1 < utf8Len s && s.head? == some '0' then
        if !s.all (fun c => '0' ≤ c && c ≤ '7') then none else parseU32 8 s
      else if !s.all isAsciiDigit then none
      else parseU32 10 s

/-- The address of one to four components, as the `match` on their number in
`parse_loose_ipv4` builds it. -/
def looseAddr : List Nat → Option Ipv4Addr
  | [a] => some (.ofNat 32 a)
  | [a, b] =>
    if 0xff < a ∨ 0xffffff < b then none
    else some (BitVec.ofNat 32 a <<< 24 ||| .ofNat 32 b)
  | [a, b, c] =>
    if 0xff < a ∨ 0xff < b ∨ 0xffff < c then none
    else some (BitVec.ofNat 32 a <<< 24 ||| BitVec.ofNat 32 b <<< 16 ||| .ofNat 32 c)
  | [a, b, c, d] =>
    if 0xff < a ∨ 0xff < b ∨ 0xff < c ∨ 0xff < d then none
    else some (BitVec.ofNat 32 a <<< 24 ||| BitVec.ofNat 32 b <<< 16 |||
      BitVec.ofNat 32 c <<< 8 ||| .ofNat 32 d)
  | _ => none

/-- `inet_aton`-style IPv4: one to four dotted parts, each decimal, octal or hexadecimal. -/
def parseLooseIpv4 (s : Str) : Option Ipv4Addr :=
  if s.isEmpty || 32 < utf8Len s then none
  else
    let parts := s.splitOn '.'
    if !(1 ≤ parts.length && parts.length ≤ 4) || parts.any List.isEmpty then none
    else (parts.mapM parseIpv4Component).bind looseAddr

def ipCanonical : IpAddr → Str
  | .v6 v6 =>
    match v6.toIpv4Mapped with
    | some v4 => v4.toText
    | none => v6.toText
  | .v4 v4 => v4.toText

/-- The host and port texts of a trimmed remote: `host:port` or `[ipv6]:port`. -/
def splitRemote (raw : Str) : Except DestError (Str × Str) :=
  match stripPrefix ['['] raw with
  | some rest => do
    let (host, after) ← okOr .invalidRemote (splitOnce ']' rest)
    let port ← okOr .invalidRemote (stripPrefix [':'] after)
    return (host, port)
  | none => do
    let (host, port) ← okOr .invalidRemote (rsplitOnce ':' raw)
    if host.isEmpty || host.contains ':' then throw .invalidRemote
    return (host, port)

/-- The part of `parse_remote` before the host is looked at: the host text as written and
the port number. -/
def hostAndPort (raw : Str) : Except DestError (Str × Nat) := do
  let raw := trim raw
  if raw.isEmpty then throw .invalidRemote
  let (hostRaw, portStr) ← splitRemote raw
  if hostRaw.isEmpty then throw .invalidRemote
  let port ← okOr .invalidRemote (parseU16 portStr)
  if port = 0 then throw .invalidRemote
  return (hostRaw, port)

/-- The part of `parse_remote` that reads the host text: a literal of the standard parser, a
loose IPv4 literal, or a hostname. -/
def classifyHost (hostRaw : Str) (port : Nat) : Except DestError Remote :=
  match parseIpAddr hostRaw with
  | some ip => .ok ⟨ipCanonical ip, port, some ip⟩
  | none =>
    match parseLooseIpv4 hostRaw with
    | some v4 => .ok ⟨ipCanonical (.v4 v4), port, some (.v4 v4)⟩
    | none =>
      let host := normalizeHostname hostRaw
      if isValidDnsHostname host then .ok ⟨host, port, none⟩ else .error .invalidRemote

/-- Parses `host:port` or `[ipv6]:port`. -/
def parseRemote (raw : Str) : Except DestError Remote := do
  let (hostRaw, port) ← hostAndPort raw
  classifyHost hostRaw port

end WsTcpProxy
