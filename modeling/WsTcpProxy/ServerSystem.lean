import WsTcpProxy.LimitSystem
import WsTcpProxy.Server

/-!
# The server

All requests run concurrently against one limiter. A step lets a request arrive, answers the
operation that a request waits for, drops a request whose client has gone while it waits for the
network, charges the bytes of an upgraded request or ends its session. Requests are told apart by
a number, which is also the holder of their lease.
-/

namespace WsTcpProxy
open Library

/-- A request with what is left of its handler. -/
structure Active where
  request : Request
  prog : Handler Response
  /-- Neither dropped nor, after an upgrade, at the end of its session. -/
  isOpen : Bool

structure Server where
  limits : LimitSystem
  requests : Nat → Option Active

/-- What the environment of a request decides about its pending operation. -/
inductive Outcome where
  | limiter (now : Instant)
  | resolved (r : Timed (List SocketAddr))
  | connected (r : Timed Unit)
  deriving DecidableEq, Repr

inductive ServerInput where
  | arrive (id : Nat) (request : Request)
  | answer (id : Nat) (outcome : Outcome)
  | drop (id : Nat)
  | charge (id : Nat) (n : Nat) (gcNow now : Instant)
  | hangUp (id : Nat) (now : Instant)

/-- The resolver answers with the port that it was asked for. -/
def Timed.carriesPort (r : Timed (List SocketAddr)) (port : Nat) : Bool :=
  match r with
  | .ok addrs => addrs.all fun a => a.port = port
  | _ => true

namespace Server

def start (cfg : LimitsConfig) (now : Instant) : Server where
  limits := LimitSystem.start cfg now
  requests := fun _ => none

def put (s : Server) (id : Nat) (a : Active) : Server :=
  { s with requests := Function.update s.requests id (some a) }

def openRequest (s : Server) (id : Nat) : Option Active := (s.requests id).filter Active.isOpen

/-- Performs the pending operation of a handler: limiter calls on the limiter, the others with
the given outcome. -/
def respond (limits : LimitSystem) (id : Nat) :
    Handler Response → Outcome → Option (Answered × Handler Response × LimitSystem)
  | .perform (.recordAttempt client dest) next, .limiter now =>
    match limits.step (.recordAttempt client dest now) with
    | some (.attempt r, limits') => some (⟨.recordAttempt client dest, r⟩, next r, limits')
    | _ => none
  | .perform (.lookupHost host port) next, .resolved r =>
    if r.carriesPort port then some (⟨.lookupHost host port, r⟩, next r, limits) else none
  | .perform (.connect addr) next, .connected r => some (⟨.connect addr, r⟩, next r, limits)
  | .perform (.acquire client dest) next, .limiter now =>
    match limits.step (.acquire id client dest now) with
    | some (.lease r, limits') => some (⟨.acquire client dest, r⟩, next r, limits')
    | _ => none
  | _, _ => none

/-- A handler can be dropped only while it waits for the network. -/
def waitsForNetwork (prog : Handler Response) : Bool :=
  match prog.pending with
  | some (.lookupHost _ _) => true
  | some (.connect _) => true
  | _ => false

def upgraded : Handler Response → Option Upgrade
  | .pure (.upgrade u) => some u
  | _ => none

variable (d : Deployment)

/-- A step yields the operation that was answered, with the request it belongs to. -/
def step (s : Server) : ServerInput → Option (Option (Nat × Answered) × Server)
  | .arrive id request =>
    match s.requests id with
    | none => some (none, s.put id ⟨request, proxyHandler d request, true⟩)
    | some _ => none
  | .answer id outcome =>
    (s.openRequest id).bind fun a =>
      (respond s.limits id a.prog outcome).map fun (answered, prog, limits) =>
        (some (id, answered), { s with limits := limits }.put id { a with prog := prog })
  | .drop id =>
    (s.openRequest id).bind fun a =>
      if waitsForNetwork a.prog then some (none, s.put id { a with isOpen := false }) else none
  | .charge id n gcNow now =>
    (s.openRequest id).bind fun a =>
      (upgraded a.prog).bind fun u =>
        (s.limits.step (.addBytes u.client n gcNow now)).map fun (_, limits) =>
          (none, { s with limits := limits })
  | .hangUp id now =>
    (s.openRequest id).bind fun a =>
      (upgraded a.prog).bind fun u =>
        (s.limits.step (.drop ⟨id, u.lease⟩ now)).map fun (_, limits) =>
          (none, { s with limits := limits }.put id { a with isOpen := false })

end Server

/-- Runs of the server under a deployment, from the instant at which it starts. -/
abbrev ServerRuns (d : Deployment) (now : Instant) :=
  Runs (Server.step d) (Server.start d.config.limits now)

abbrev ServerTrace := List (ServerInput × Option (Nat × Answered))

/-- The operations of request `id` with their answers, in order. -/
def historyOf (id : Nat) (trace : ServerTrace) : List Answered :=
  (trace.filterMap Prod.snd).filterMap fun e => if e.1 = id then some e.2 else none

def Server.leasesHeld (s : Server) (id : Nat) : List HeldLease :=
  s.limits.live.filter fun l => l.holder = id

end WsTcpProxy
