import WsTcpProxy.Dest
import WsTcpProxy.Limits
import WsTcpProxy.Library.Effects

/-!
# Resolving and dialing

What a request asks of its environment, and the two functions of `dest.rs` that do so. The
resolver, the network and the other requests that share the limiter decide the answers.
-/

namespace WsTcpProxy
open Library

/-- What becomes of an operation under `tokio::time::timeout`. -/
inductive Timed (α : Type) where
  | ok (a : α)
  | failed
  | elapsed
  deriving DecidableEq, Repr

inductive Operation where
  | recordAttempt (client : IpAddr) (dest : Str)
  | lookupHost (host : Str) (port : Nat)
  | connect (addr : SocketAddr)
  | acquire (client : IpAddr) (dest : Str)
  deriving DecidableEq, Repr

/-- A connected stream carries no data of its own. -/
def Operation.Answer : Operation → Type
  | .recordAttempt _ _ => Except LimitError Unit
  | .lookupHost _ _ => Timed (List SocketAddr)
  | .connect _ => Timed Unit
  | .acquire _ _ => Except LimitError ConnectionLease

abbrev Answered := Sigma Operation.Answer

abbrev Handler := Prog Operation Operation.Answer

def recordAttempt (client : IpAddr) (dest : Str) : Handler (Except LimitError Unit) :=
  Prog.call (Operation.recordAttempt client dest)

/-- `tokio::net::lookup_host` under the DNS timeout. -/
def lookupHost (host : Str) (port : Nat) : Handler (Timed (List SocketAddr)) :=
  Prog.call (Operation.lookupHost host port)

/-- `TcpStream::connect` under the connect timeout. -/
def connect (addr : SocketAddr) : Handler (Timed Unit) := Prog.call (Operation.connect addr)

def acquire (client : IpAddr) (dest : Str) : Handler (Except LimitError ConnectionLease) :=
  Prog.call (Operation.acquire client dest)

/-- The addresses of an answer that the policy lets through. -/
def DestPolicy.filterAnswer (policy : DestPolicy) (lookedUp : List SocketAddr) : List SocketAddr :=
  lookedUp.filter fun a => policy.allowPrivateDestinations || isGlobalUnicast a.ip

def resolveFiltered (remote : Remote) (policy : DestPolicy) :
    Handler (Except DestError (List SocketAddr)) :=
  match remote.ipLiteral with
  | some ip =>
    if !policy.allowPrivateDestinations && !isGlobalUnicast ip then pure (.error .privateIp)
    else pure (.ok [⟨ip, remote.port⟩])
  | none => do
    match ← lookupHost remote.host remote.port with
    | .ok lookedUp =>
      let addrs := policy.filterAnswer lookedUp
      if addrs.isEmpty then return .error .privateIp else return .ok addrs
    | .failed => return .error .dns
    | .elapsed => return .error .dns

/-- The loop of `connect_addrs`; the result is the peer of the connected stream. -/
def connectLoop (lastErr : DestError) : List SocketAddr → Handler (Except DestError SocketAddr)
  | [] => pure (.error lastErr)
  | addr :: addrs => do
    match ← connect addr with
    | .ok () => return .ok addr
    | .failed => connectLoop .connect addrs
    | .elapsed => connectLoop .connect addrs

def connectAddrs (addrs : List SocketAddr) : Handler (Except DestError SocketAddr) :=
  connectLoop .connect addrs

end WsTcpProxy
