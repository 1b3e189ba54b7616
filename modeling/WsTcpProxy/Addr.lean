import Mathlib.Tactic

/-!
# Network addresses

The parts of `std::net` that the proxy uses. An address is the number that
`u32::from` / `u128::from` gives for it, most significant octet first.
-/

namespace WsTcpProxy

abbrev Ipv4Addr := BitVec 32

abbrev Ipv6Addr := BitVec 128

inductive IpAddr where
  | v4 (addr : Ipv4Addr)
  | v6 (addr : Ipv6Addr)
  deriving DecidableEq, Repr

structure SocketAddr where
  ip : IpAddr
  port : Nat
  deriving DecidableEq, Repr

def Ipv4Addr.new (a b c d : BitVec 8) : Ipv4Addr := a ++ b ++ c ++ d

/-- Octet `i` of `Ipv4Addr::octets`, counted from the most significant one. -/
def Ipv4Addr.octet (ip : Ipv4Addr) (i : Nat) : BitVec 8 := (ip >>> (24 - 8 * i)).setWidth 8

def Ipv6Addr.new (a b c d e f g h : BitVec 16) : Ipv6Addr :=
  a ++ b ++ c ++ d ++ e ++ f ++ g ++ h

/-- Segment `i` of `Ipv6Addr::segments`, counted from the most significant one. -/
def Ipv6Addr.segment (ip : Ipv6Addr) (i : Nat) : BitVec 16 := (ip >>> (112 - 16 * i)).setWidth 16

/-- `Ipv6Addr::to_ipv4_mapped`: the IPv4 address of `::ffff:a.b.c.d`. -/
def Ipv6Addr.toIpv4Mapped (ip : Ipv6Addr) : Option Ipv4Addr :=
  if ip >>> 32 = 0xffff then some (ip.setWidth 32) else none

/-- `Ipv6Addr::to_ipv4`: mapped and compatible addresses. -/
def Ipv6Addr.toIpv4 (ip : Ipv6Addr) : Option Ipv4Addr :=
  if ip >>> 32 = 0xffff ∨ ip >>> 32 = 0 then some (ip.setWidth 32) else none

/-! ### `Ipv4Addr` predicates -/

def Ipv4Addr.isUnspecified (ip : Ipv4Addr) : Bool := ip == 0

def Ipv4Addr.isLoopback (ip : Ipv4Addr) : Bool := ip.octet 0 == 127

def Ipv4Addr.isPrivate (ip : Ipv4Addr) : Bool :=
  ip.octet 0 == 10 ||
  (ip.octet 0 == 172 && 16 ≤ ip.octet 1 && ip.octet 1 ≤ 31) ||
  (ip.octet 0 == 192 && ip.octet 1 == 168)

def Ipv4Addr.isLinkLocal (ip : Ipv4Addr) : Bool := ip.octet 0 == 169 && ip.octet 1 == 254

def Ipv4Addr.isBroadcast (ip : Ipv4Addr) : Bool := ip == Ipv4Addr.new 255 255 255 255

def Ipv4Addr.isDocumentation (ip : Ipv4Addr) : Bool :=
  (ip.octet 0 == 192 && ip.octet 1 == 0 && ip.octet 2 == 2) ||
  (ip.octet 0 == 198 && ip.octet 1 == 51 && ip.octet 2 == 100) ||
  (ip.octet 0 == 203 && ip.octet 1 == 0 && ip.octet 2 == 113)

def Ipv4Addr.isMulticast (ip : Ipv4Addr) : Bool := 224 ≤ ip.octet 0 && ip.octet 0 ≤ 239

/-! ### `Ipv6Addr` predicates -/

def Ipv6Addr.isUnspecified (ip : Ipv6Addr) : Bool := ip == 0

def Ipv6Addr.isLoopback (ip : Ipv6Addr) : Bool := ip == 1

def Ipv6Addr.isMulticast (ip : Ipv6Addr) : Bool := ip.segment 0 &&& 0xff00 == 0xff00

def Ipv6Addr.isUnicastLinkLocal (ip : Ipv6Addr) : Bool := ip.segment 0 &&& 0xffc0 == 0xfe80

def Ipv6Addr.isUniqueLocal (ip : Ipv6Addr) : Bool := ip.segment 0 &&& 0xfe00 == 0xfc00

/-! ### Masks -/

/-- `if bits == 0 { 0 } else { !0 << (w - bits) }` on `w`-bit integers. `none` stands for the
panic of a subtraction below zero or of a shift by the width or more. -/
def checkedMask (w bits : Nat) : Option (BitVec w) :=
  if bits = 0 then some 0
  else if bits ≤ w ∧ w - bits < w then some (BitVec.allOnes w <<< (w - bits))
  else none

end WsTcpProxy
