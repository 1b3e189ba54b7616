import WsTcpProxy.Remote
import Mathlib.Data.Finset.Basic

/-!
# Destination policy

Allowed ports, address classes and the filtering of resolver answers (`dest.rs`).
-/

namespace WsTcpProxy

/-- IMAP, IMAPS, SMTP submission and SMTPS. -/
def defaultAllowedPorts : Finset Nat := {143, 993, 465, 587}

structure DestPolicy where
  /-- `none` allows any port. -/
  allowedPorts : Option (Finset Nat) := some defaultAllowedPorts
  allowPrivateDestinations : Bool := false
  allowIpLiterals : Bool := false
  deriving DecidableEq

def DestPolicy.portAllowed (policy : DestPolicy) (port : Nat) : Bool :=
  match policy.allowedPorts with
  | none => true
  | some set => port ∈ set

/-! ### Address classes -/

def ipv4In (ip pre : Ipv4Addr) (bits : Nat) : Bool :=
  if bits = 0 then true
  else
    let mask : BitVec 32 := BitVec.allOnes 32 <<< (32 - bits)
    ip &&& mask == pre &&& mask

def ipv6In (ip pre : Ipv6Addr) (bits : Nat) : Bool :=
  if bits = 0 then true
  else
    let mask : BitVec 128 := BitVec.allOnes 128 <<< (128 - bits)
    ip &&& mask == pre &&& mask

def isGlobalV4 (ip : Ipv4Addr) : Bool :=
  if ip.isUnspecified || ip.isLoopback || ip.isPrivate || ip.isLinkLocal || ip.isBroadcast ||
      ip.isDocumentation || ip.isMulticast then false
  else if ipv4In ip (.new 0 0 0 0) 8 then false
  else if ipv4In ip (.new 100 64 0 0) 10 then false
  else if ipv4In ip (.new 192 0 0 0) 24 then false
  else if ipv4In ip (.new 198 18 0 0) 15 then false
  else if ipv4In ip (.new 240 0 0 0) 4 then false
  else true

/-- The IPv4 address with the bytes of two segments. -/
def ipv4OfSegments (hi lo : BitVec 16) : Ipv4Addr :=
  .new ((hi >>> 8).setWidth 8) (hi.setWidth 8) ((lo >>> 8).setWidth 8) (lo.setWidth 8)

/-- IPv4 embedded in IPv6: mapped, compatible, well-known NAT64 or 6to4. -/
def embeddedIpv4 (ip : Ipv6Addr) : Option Ipv4Addr :=
  match ip.toIpv4Mapped with
  | some v4 => some v4
  | none =>
    let s := ip.segment
    if s 0 = 0 ∧ s 1 = 0 ∧ s 2 = 0 ∧ s 3 = 0 ∧ s 4 = 0 ∧ s 5 = 0 then ip.toIpv4
    else if s 0 = 0x64 ∧ s 1 = 0xff9b ∧ s 2 = 0 ∧ s 3 = 0 ∧ s 4 = 0 ∧ s 5 = 0 then
      some (ipv4OfSegments (s 6) (s 7))
    else if s 0 = 0x2002 then some (ipv4OfSegments (s 1) (s 2))
    else none

def isGlobalV6 (ip : Ipv6Addr) : Bool :=
  match embeddedIpv4 ip with
  | some v4 => isGlobalV4 v4
  | none =>
    if ip.isUnspecified || ip.isLoopback || ip.isMulticast || ip.isUnicastLinkLocal ||
        ip.isUniqueLocal then false
    else if ipv6In ip (.new 0x2001 0 0 0 0 0 0 0) 23 then false
    else if ipv6In ip (.new 0x2001 0x0db8 0 0 0 0 0 0) 32 then false
    else if ipv6In ip (.new 0x0100 0 0 0 0 0 0 0) 64 then false
    else if ipv6In ip (.new 0x64 0xff9b 1 0 0 0 0 0) 48 then false
    else true

/-- A globally routable unicast address. -/
def isGlobalUnicast : IpAddr → Bool
  | .v4 v4 => isGlobalV4 v4
  | .v6 v6 => isGlobalV6 v6

/-! ### Policy -/

def checkPolicy (remote : Remote) (policy : DestPolicy) : Except DestError Unit :=
  if !policy.portAllowed remote.port then .error .badPort
  else if remote.ipLiteral.isSome && !policy.allowIpLiterals then .error .ipLiteral
  else match remote.ipLiteral with
    | some ip =>
      if !policy.allowPrivateDestinations && !isGlobalUnicast ip then .error .privateIp
      else .ok ()
    | none => .ok ()

end WsTcpProxy
