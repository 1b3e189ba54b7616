import WsTcpProxy.Dest
import WsTcpProxy.Limits

/-!
# Configuration

The settings of `config.rs` that requests and sessions read.
-/

namespace WsTcpProxy

inductive AuthMode where
  | paseto
  | publicReflector
  deriving DecidableEq, Repr

structure Cidr where
  addr : IpAddr
  bits : Nat
  deriving DecidableEq, Repr

def Cidr.parse (raw : Str) : Option Cidr := do
  let raw := trim raw
  match splitOnce '/' raw with
  | some (a, b) =>
    let addr ← parseIpAddr a
    let bits ← parseU8 b
    let max := match addr with
      | .v4 _ => 32
      | .v6 _ => 128
    if max < bits then none else some { addr := addr, bits := bits }
  | none =>
    let addr ← parseIpAddr raw
    let bits := match addr with
      | .v4 _ => 32
      | .v6 _ => 128
    some { addr := addr, bits := bits }

def Cidr.contains (cidr : Cidr) (ip : IpAddr) : Bool :=
  match cidr.addr, ip with
  | .v4 pre, .v4 x => ipv4In x pre cidr.bits
  | .v6 pre, .v6 x =>
    match pre.toIpv4Mapped, x.toIpv4Mapped with
    | some p4, some x4 => ipv4In x4 p4 (min cidr.bits 32)
    | _, _ => ipv6In x pre cidr.bits
  | .v4 pre, .v6 x =>
    match x.toIpv4Mapped with
    | some v4 => ipv4In v4 pre cidr.bits
    | none => false
  | .v6 _, .v4 _ => false

/-- `Cidr::contains` with its integer operations checked. -/
def Cidr.containsChecked (cidr : Cidr) (ip : IpAddr) : Option Bool :=
  let containsV4 (pre : Ipv4Addr) (bits : Nat) (x : Ipv4Addr) : Option Bool := do
    let mask ← checkedMask 32 bits
    return x &&& mask == pre &&& mask
  match cidr.addr, ip with
  | .v4 pre, .v4 x => containsV4 pre cidr.bits x
  | .v6 pre, .v6 x =>
    match pre.toIpv4Mapped, x.toIpv4Mapped with
    | some p4, some x4 => containsV4 p4 (min cidr.bits 32) x4
    | _, _ => do
      let mask ← checkedMask 128 cidr.bits
      return x &&& mask == pre &&& mask
  | .v4 pre, .v6 x =>
    match x.toIpv4Mapped with
    | some v4 => containsV4 pre cidr.bits v4
    | none => some false
  | .v6 _, .v4 _ => some false

structure Config where
  secretKey : Option (List UInt8) := none
  authMode : AuthMode := .paseto
  /-- How long the WebSocket may be idle before a keepalive ping. -/
  wsIdleTimeout : Duration := fromSecs 30
  wsWriteTimeout : Duration := fromSecs 30
  tcpWriteTimeout : Duration := fromSecs 30
  tcpConnectTimeout : Duration := fromSecs 30
  dnsTimeout : Duration := fromSecs 5
  dest : DestPolicy := {}
  limits : LimitsConfig := {}
  /-- Combined up and down bytes on a single session; `0` is unlimited. -/
  maxBytesPerConnection : Nat := 250 * 1024 * 1024
  /-- Hard session lifetime; `0` is unlimited. -/
  maxLifetime : Duration := fromSecs (24 * 3600)
  trustForwardedClientIp : Bool := false
  trustedProxies : List Cidr := []
  requireProtocolProbe : Bool := true
  allowedOrigins : Finset Str := ∅
  allowedHosts : Finset Str := ∅
  wsMaxMessageBytes : Nat := 1024 * 1024
  wsMaxFrameBytes : Nat := 256 * 1024
  pasetoMaxTtl : Duration := fromSecs 3600

/-- A comma-separated list, without the empty entries. -/
def parseCsvSet (raw : Str) : Finset Str :=
  (((raw.splitOn ',').map trim).filter fun s => !s.isEmpty).toFinset

def normalizeHost (host : Str) : Str := toAsciiLowercase (trimEndMatches '.' (trim host))

def normalizeOrigin (origin : Str) : Str :=
  let origin := trim origin
  if origin = "*".toList then "*".toList
  else match splitOnceStr "://".toList origin with
    | some (scheme, rest) => toAsciiLowercase scheme ++ "://".toList ++ normalizeHost rest
    | none => toAsciiLowercase origin

end WsTcpProxy
