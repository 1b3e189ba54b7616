import WsTcpProxy.Limits
import WsTcpProxy.Remote

/-!
# Metrics

The labels under which the proxy counts what it turns away, and the counters and the gauge that
requests and sessions move (`metrics.rs`). Counters are naturals; the number of observations
stands for the histogram of connection durations.
-/

namespace WsTcpProxy

inductive RejectReason where
  | auth
  | invalidRemote
  | badPort
  | ipLiteral
  | privateIp
  | dns
  | connect
  | connectRate
  | globalConnectRate
  | distinctDests
  | globalFull
  | perIpFull
  | perDestFull
  | proto
  | byteCap
  | lifetime
  | badOrigin
  | badHost
  deriving DecidableEq, Repr

/-- `RejectReason::from` for a destination error. -/
def RejectReason.ofDestError : DestError → RejectReason
  | .invalidRemote => .invalidRemote
  | .badPort => .badPort
  | .ipLiteral => .ipLiteral
  | .privateIp => .privateIp
  | .dns => .dns
  | .connect => .connect

/-- `RejectReason::from` for a limit error. -/
def RejectReason.ofLimitError : LimitError → RejectReason
  | .globalFull => .globalFull
  | .perIpFull => .perIpFull
  | .perDestFull => .perDestFull
  | .connectRate => .connectRate
  | .globalConnectRate => .globalConnectRate
  | .distinctDests => .distinctDests
  | .byteCap => .byteCap

inductive PortClass where
  | imap
  | imaps
  | smtps
  | submission
  | other
  deriving DecidableEq, Repr

def PortClass.fromPort : Nat → PortClass
  | 143 => .imap
  | 993 => .imaps
  | 465 => .smtps
  | 587 => .submission
  | _ => .other

structure Metrics where
  activeConnections : Int := 0
  connections : PortClass → Nat := fun _ => 0
  rejects : RejectReason → Nat := fun _ => 0
  /-- Observations of `connection_duration`. -/
  durations : Nat := 0

namespace Metrics

def incReject (m : Metrics) (reason : RejectReason) : Metrics :=
  { m with rejects := Function.update m.rejects reason (m.rejects reason + 1) }

def incConnections (m : Metrics) (port : PortClass) : Metrics :=
  { m with connections := Function.update m.connections port (m.connections port + 1) }

/-- `ScopeGauge::new` and its drop. -/
def addActive (m : Metrics) (n : Int) : Metrics :=
  { m with activeConnections := m.activeConnections + n }

/-- The drop of a `ScopeDuration`. -/
def observeDuration (m : Metrics) : Metrics := { m with durations := m.durations + 1 }

end Metrics

end WsTcpProxy
