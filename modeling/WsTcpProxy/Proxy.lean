import WsTcpProxy.Connection
import WsTcpProxy.ServerSystem

/-!
# The process

Requests, their sessions, the limiter and the metrics together, from the arrival of a request to
the last drop behind its session. Steps of different requests interleave freely. A request is
numbered by its arrival. Unlike in `ServerSystem`, an upgraded request runs its session, whose
charges are answered by the limiter itself, and the end of a session takes several steps.
-/

namespace WsTcpProxy
open Library

/-- What remains to be done behind a session, one awaited call or one drop at a time. -/
inductive Cleanup where
  /-- The Close frame to the client. -/
  | closeFrame
  | closeWs
  | shutdownTcp
  | releaseLease
  | observeDuration
  | leaveGauge
  deriving DecidableEq, Repr

def Phase.inProbe : Phase → Bool
  | .probeTls _ | .probePong _ _ | .flushTls _ | .probeGreeting _ _ | .flushGreeting _ => true
  | _ => false

def Phase.ended : Phase → Bool
  | .refused | .closed => true
  | _ => false

/-- The end of `run`. A failed probe returns early: its lease goes with the `Connection`, after
the locals of `run`. -/
def cleanups (inProbe : Bool) : List Cleanup :=
  if inProbe then [.closeFrame, .shutdownTcp, .observeDuration, .leaveGauge, .releaseLease]
  else [.closeFrame, .closeWs, .shutdownTcp, .releaseLease, .observeDuration, .leaveGauge]

inductive TaskStage where
  | handling (prog : Handler Response)
  /-- The client has gone while the handler waited for the network. -/
  | gone (prog : Handler Response)
  | running (u : Upgrade) (session : Session)
  | ending (u : Upgrade) (left : List Cleanup)

structure Task where
  request : Request
  stage : TaskStage

structure Proxy where
  limits : LimitSystem
  tasks : List Task
  metrics : Metrics

inductive ProxyInput where
  | arrive (id : Nat) (request : Request)
  | answer (id : Nat) (outcome : Outcome)
  | drop (id : Nat)
  /-- The upgrade of the connection succeeds or fails. -/
  | upgrade (id : Nat) (ok : Bool) (now : Instant)
  /-- The outcome that a session awaits; the readings are those of `add_bytes`. -/
  | session (id : Nat) (input : Input) (gcNow now : Instant)
  | cleanup (id : Nat) (now : Instant)

def ProxyInput.id : ProxyInput → Nat
  | .arrive id _ | .answer id _ | .drop id | .upgrade id _ _ | .session id _ _ _ | .cleanup id _ => id

structure Observed where
  answered : Option Answered := none
  /-- The outcome that a session consumed, with the limiter's answer in it, and its effects. -/
  session : Option (Input × List Effect) := none
  /-- The session was inside `probe`. -/
  probing : Bool := false
  limiter : Option (Call × Reply) := none
  cleaned : Option Cleanup := none
  rejects : List RejectReason := []

def rejection : Handler Response → List RejectReason
  | .pure (.reject _ reason _) => [reason]
  | _ => []

def Effect.rejection : Effect → Option RejectReason
  | .rejected reason => some reason
  | _ => none

def Metrics.incRejects (m : Metrics) (reasons : List RejectReason) : Metrics :=
  reasons.foldl Metrics.incReject m

/-- The call on the limiter behind an answered operation. -/
def limiterCall (id : Nat) : Outcome → Answered → Option (Call × Reply)
  | .limiter now, ⟨.recordAttempt client dest, r⟩ =>
    some (.recordAttempt client dest now, .attempt r)
  | .limiter now, ⟨.acquire client dest, r⟩ => some (.acquire id client dest now, .lease r)
  | _, _ => none

/-- The outcome with the limiter's answer, should the session ask for one. -/
def Event.charged (ok : Bool) : Event → Event
  | .wsMessage msg _ => .wsMessage msg ok
  | .tcpRead data _ => .tcpRead data ok
  | e => e

def Input.charged (i : Input) (ok : Bool) : Input := { i with event := i.event.charged ok }

namespace Proxy

def start (cfg : LimitsConfig) (now : Instant) : Proxy where
  limits := LimitSystem.start cfg now
  tasks := []
  metrics := {}

def put (p : Proxy) (id : Nat) (t : Task) : Proxy := { p with tasks := p.tasks.set id t }

/-- A step of a session at the shared limiter: what it did, the session and the limiter after
it. The session asks the limiter at most once, behind its own cap. -/
def sessionStep (cfg : Config) (u : Upgrade) (s : Session) (limits : LimitSystem) (i : Input)
    (gcNow now : Instant) : Option (Observed × Session × LimitSystem) :=
  let observe (limiter : Option (Call × Reply)) (ok : Bool) (effects : List Effect) : Observed :=
    { session := some (i.charged ok, effects)
      probing := s.phase.inProbe
      limiter := limiter
      rejects := effects.filterMap Effect.rejection }
  (Connection.step cfg u.remote s (i.charged true)).bind fun (effects, s') =>
    let n := (effects.map Effect.charge).sum
    if n = 0 then some (observe none true effects, s', limits)
    else
      let call := Call.addBytes u.client n gcNow now
      (limits.step call).bind fun
        | (.bytes (.ok ()), limits) =>
          some (observe (some (call, .bytes (.ok ()))) true effects, s', limits)
        | (reply, limits) =>
          (Connection.step cfg u.remote s (i.charged false)).map fun (effects, s') =>
            (observe (some (call, reply)) false effects, s', limits)

def afterSession (u : Upgrade) (phase : Phase) (s' : Session) : TaskStage :=
  if s'.phase.ended then .ending u (cleanups phase.inProbe) else .running u s'

/-- One action of the end of a session; what becomes of the awaited calls is ignored. -/
def clean (p : Proxy) (id : Nat) (u : Upgrade) (now : Instant) (c : Cleanup) :
    Option (Observed × Proxy) :=
  match c with
  | .closeFrame | .closeWs | .shutdownTcp => some ({ cleaned := some c }, p)
  | .releaseLease =>
    let call := Call.drop ⟨id, u.lease⟩ now
    (p.limits.step call).map fun (reply, limits) =>
      ({ cleaned := some c, limiter := some (call, reply) }, { p with limits := limits })
  | .observeDuration =>
    some ({ cleaned := some c }, { p with metrics := p.metrics.observeDuration })
  | .leaveGauge => some ({ cleaned := some c }, { p with metrics := p.metrics.addActive (-1) })

variable (d : Deployment)

def step (p : Proxy) : ProxyInput → Option (Observed × Proxy)
  | .arrive id request =>
    if id = p.tasks.length then
      let prog := proxyHandler d request
      some ({ rejects := rejection prog },
        { p with
          tasks := p.tasks ++ [⟨request, .handling prog⟩]
          metrics := p.metrics.incRejects (rejection prog) })
    else none
  | .answer id outcome =>
    match p.tasks[id]? with
    | some ⟨request, .handling prog⟩ =>
      (Server.respond p.limits id prog outcome).map fun (answered, prog, limits) =>
        ({ answered := some answered
           limiter := limiterCall id outcome answered
           rejects := rejection prog },
          { p with
            limits := limits
            metrics := p.metrics.incRejects (rejection prog) }.put id ⟨request, .handling prog⟩)
    | _ => none
  | .drop id =>
    match p.tasks[id]? with
    | some ⟨request, .handling prog⟩ =>
      if Server.waitsForNetwork prog then some ({}, p.put id ⟨request, .gone prog⟩) else none
    | _ => none
  | .upgrade id ok now =>
    match p.tasks[id]? with
    | some ⟨request, .handling (.pure (.upgrade u))⟩ =>
      if ok then
        let metrics := (p.metrics.addActive 1).incConnections (.fromPort u.remote.port)
        some ({}, { p with metrics := metrics }.put id
          ⟨request, .running u (Connection.start d.config u.remote now)⟩)
      else some ({}, p.put id ⟨request, .ending u [.releaseLease]⟩)
    | _ => none
  | .session id i gcNow now =>
    match p.tasks[id]? with
    | some ⟨request, .running u s⟩ =>
      (sessionStep d.config u s p.limits i gcNow now).map fun (o, s', limits) =>
        (o,
          { p with
            limits := limits
            metrics := p.metrics.incRejects o.rejects }.put id
            ⟨request, afterSession u s.phase s'⟩)
    | _ => none
  | .cleanup id now =>
    match p.tasks[id]? with
    | some ⟨request, .ending u (c :: left)⟩ =>
      (p.clean id u now c).map fun (o, p') => (o, p'.put id ⟨request, .ending u left⟩)
    | _ => none

end Proxy

abbrev ProxyTrace := List (ProxyInput × Observed)

/-- Runs of the process under a deployment, from the instant at which it starts. -/
abbrev ProxyRuns (d : Deployment) (now : Instant) :=
  Runs (Proxy.step d) (Proxy.start d.config.limits now)

def sessionOf (id : Nat) (trace : ProxyTrace) : SessionTrace :=
  trace.filterMap fun (i, o) => if i.id = id then o.session else none

/-! ### Views -/

/-- What the server knows of a task: its handler, and whether it may still hold a lease. -/
def Task.active (t : Task) : Active :=
  match t.stage with
  | .handling prog => ⟨t.request, prog, true⟩
  | .gone prog => ⟨t.request, prog, false⟩
  | .running u _ => ⟨t.request, .pure (.upgrade u), true⟩
  | .ending u left => ⟨t.request, .pure (.upgrade u), decide (Cleanup.releaseLease ∈ left)⟩

def Proxy.server (p : Proxy) : Server where
  limits := p.limits
  requests := fun id => p.tasks[id]?.map Task.active

def serverView : ProxyInput × Observed → Option (ServerInput × Option (Nat × Answered))
  | (.arrive id request, _) => some (.arrive id request, none)
  | (.answer id outcome, o) => some (.answer id outcome, o.answered.map (Prod.mk id))
  | (.drop id, _) => some (.drop id, none)
  | (.upgrade _ _ _, _) => none
  | (.session id _ _ _, o) =>
    match o.limiter with
    | some (.addBytes _ n gcNow now, _) => some (.charge id n gcNow now, none)
    | _ => none
  | (.cleanup id now, o) =>
    if o.cleaned = some .releaseLease then some (.hangUp id now, none) else none

def limiterView (e : ProxyInput × Observed) : Option (Call × Reply) := e.2.limiter

end WsTcpProxy
