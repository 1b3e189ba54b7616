import WsTcpProxy.Config
import WsTcpProxy.Probe
import WsTcpProxy.Library.Runs

/-!
# Sessions

`Connection::run` (`connection.rs`) as a state machine. A step consumes the outcome of the
operation that the session awaits, at the clock reading at which it continues, and performs
effects: writes to the upstream, messages to the client, charges to the limiter and counted
rejects. Outcomes are arbitrary: which arm of the `select!` completes, when a timeout fires,
how far a write gets, whether a failed send was delivered, and what the limiter answers.
-/

namespace WsTcpProxy
open Library

inductive Phase where
  | probeTls (hello : Bytes)
  | probePong (hello payload : Bytes)
  /-- `probe_tls_sni` writes what is left of the accepted hello. -/
  | flushTls (rest : Bytes)
  | probeGreeting (kind : ProbeKind) (greet : Bytes)
  | flushGreeting (greet : Bytes)
  /-- The head of the relay loop. -/
  | relay
  | sendTcp (rest : Bytes)
  | sendWs (msg : Message)
  /-- The verdict of the probe was a rejection. -/
  | refused
  /-- The session ended in any other way. -/
  | closed
  deriving DecidableEq, Repr

structure Session where
  phase : Phase
  clock : Instant
  deadline : Option Instant
  connBytes : Nat
  deriving DecidableEq, Repr

inductive Event where
  /-- A message arrived; the limiter answers `charge` if it is asked to charge its bytes. -/
  | wsMessage (msg : Message) (charge : Bool)
  | wsError
  | wsEnd
  | wsTimeout
  /-- A read returned; an empty one is the end of the stream. -/
  | tcpRead (data : Bytes) (charge : Bool)
  | tcpError
  | tcpTimeout
  | deadline
  | wrote (n : Nat)
  /-- `write_all` has nothing left and returns. -/
  | writeDone
  | writeFailed
  | sendDone
  /-- A send failed or timed out, before or after the message went out. -/
  | sendFailed (delivered : Bool)
  deriving DecidableEq, Repr

structure Input where
  time : Instant
  event : Event
  deriving DecidableEq, Repr

inductive Effect where
  | wrote (data : Bytes)
  | sent (msg : Message)
  | charged (n : Nat)
  | rejected (reason : RejectReason)
  deriving DecidableEq, Repr

def relayBufferSize : Nat := 1024

/-- The last reading that an `Instant` of 64-bit seconds can hold. -/
def maxInstant : Instant := 2 ^ 63 * 10 ^ 9 - 1

namespace Connection

variable (cfg : Config) (remote : Remote)

def overConnBytes (total : Nat) : Bool :=
  cfg.maxBytesPerConnection != 0 && cfg.maxBytesPerConnection < total

/-- Entering the relay loop. The clock is unbounded here; beyond `maxInstant` the addition panics. -/
def enterRelay (s : Session) : Session :=
  { s with
    phase := .relay
    connBytes := 0
    deadline := if cfg.maxLifetime = 0 then none else some (s.clock + cfg.maxLifetime) }

def start (now : Instant) : Session :=
  let s : Session := { phase := .closed, clock := now, deadline := none, connBytes := 0 }
  match if cfg.requireProtocolProbe then probeForPort remote.port else none with
  | some .tlsSni => { s with phase := .probeTls [] }
  | some kind => { s with phase := .probeGreeting kind [] }
  | none => enterRelay cfg s

def probed : Option ProbeKind :=
  if cfg.requireProtocolProbe then probeForPort remote.port else none

def probeHello (s : Session) (hello : Bytes) : List Effect × Session :=
  match tlsProbeStep remote hello with
  | .more => ([], { s with phase := .probeTls hello })
  | .accepted => ([], { s with phase := .flushTls hello })
  | .rejected => ([.rejected .proto], { s with phase := .refused })

def probeGreet (s : Session) (kind : ProbeKind) (greet : Bytes) : List Effect × Session :=
  match greetingProbeStep kind greet with
  | .more => ([], { s with phase := .probeGreeting kind greet })
  | .accepted => ([], { s with phase := .flushGreeting greet })
  | .rejected => ([.rejected .proto], { s with phase := .refused })

/-- The three arms of the relay that count bytes: the connection cap, then the limiter, then
the send that `next` stands for. -/
def account (s : Session) (data : Bytes) (charge : Bool) (next : Phase) : List Effect × Session :=
  let s := { s with connBytes := saturatingAdd s.connBytes data.length }
  if overConnBytes cfg s.connBytes then ([.rejected .byteCap], { s with phase := .closed })
  else if data.length = 0 then ([], { s with phase := next })
  else if charge then ([.charged data.length], { s with phase := next })
  else ([.rejected .byteCap], { s with phase := .closed })

/-- The verdict of the probe is a rejection. -/
def refuse (s : Session) : Option (List Effect × Session) :=
  some ([.rejected .proto], { s with phase := .refused })

def goto (s : Session) (phase : Phase) : Option (List Effect × Session) :=
  some ([], { s with phase := phase })

def probeTlsEvent (s : Session) (hello : Bytes) : Event → Option (List Effect × Session)
  | .wsMessage (.binary data) _ => some (probeHello remote s (hello ++ data))
  | .wsMessage (.text t) _ => some (probeHello remote s (hello ++ asBytes t))
  | .wsMessage (.ping p) _ => goto s (.probePong hello p)
  | .wsMessage (.pong _) _ => goto s (.probeTls hello)
  | .wsMessage .close _ => refuse s
  | .wsError => refuse s
  | .wsEnd => refuse s
  | .wsTimeout => refuse s
  | _ => none

/-- The answer to a ping; its outcome is ignored. -/
def probePongEvent (s : Session) (hello p : Bytes) : Event → Option (List Effect × Session)
  | .sendDone => some ([.sent (.pong p)], { s with phase := .probeTls hello })
  | .sendFailed delivered =>
    some (if delivered then [.sent (.pong p)] else [], { s with phase := .probeTls hello })
  | _ => none

def flushTlsEvent (s : Session) (rest : Bytes) : Event → Option (List Effect × Session)
  | .wrote n =>
    if n = 0 ∨ rest.length < n then none
    else some ([.wrote (rest.take n)], { s with phase := .flushTls (rest.drop n) })
  | .writeDone => if rest = [] then some ([], enterRelay cfg s) else none
  | .writeFailed => some ([.rejected .proto], { s with phase := .closed })
  | _ => none

def probeGreetingEvent (s : Session) (kind : ProbeKind) (greet : Bytes) :
    Event → Option (List Effect × Session)
  | .tcpRead data _ =>
    if greetingBufferSize < data.length then none
    else if data = [] then refuse s
    else some (probeGreet s kind (greet ++ data))
  | .tcpError => refuse s
  | .tcpTimeout => refuse s
  | _ => none

def flushGreetingEvent (s : Session) (greet : Bytes) : Event → Option (List Effect × Session)
  | .sendDone => some ([.sent (.binary greet)], enterRelay cfg s)
  | .sendFailed delivered =>
    some ((if delivered then [.sent (.binary greet)] else []) ++ [.rejected .proto],
      { s with phase := .closed })
  | _ => none

def relayArms (s : Session) : Event → Option (List Effect × Session)
  | .wsMessage (.binary data) charge => some (account cfg s data charge (.sendTcp data))
  | .wsMessage (.text t) charge => some (account cfg s (asBytes t) charge (.sendTcp (asBytes t)))
  | .wsMessage (.ping p) _ => goto s (.sendWs (.pong p))
  | .wsMessage (.pong _) _ => goto s .relay
  | .wsMessage .close _ => goto s .closed
  | .wsError => goto s .closed
  | .wsEnd => goto s .closed
  | .wsTimeout => goto s (.sendWs (.ping []))
  | .tcpRead data charge =>
    if relayBufferSize < data.length then none
    else if data = [] then goto s .closed
    else some (account cfg s data charge (.sendWs (.binary data)))
  | .tcpError => goto s .closed
  | _ => none

/-- The head of the relay loop. `biased` polls the timer first, so no other arm completes once
it is ready. -/
def relayEvent (s : Session) (event : Event) : Option (List Effect × Session) :=
  if s.deadline.any (· ≤ s.clock) then
    if event = .deadline then some ([.rejected .lifetime], { s with phase := .closed }) else none
  else relayArms cfg s event

def sendTcpEvent (s : Session) (rest : Bytes) : Event → Option (List Effect × Session)
  | .wrote n =>
    if n = 0 ∨ rest.length < n then none
    else some ([.wrote (rest.take n)], { s with phase := .sendTcp (rest.drop n) })
  | .writeDone => if rest = [] then goto s .relay else none
  | .writeFailed => goto s .closed
  | _ => none

def sendWsEvent (s : Session) (msg : Message) : Event → Option (List Effect × Session)
  | .sendDone => some ([.sent msg], { s with phase := .relay })
  | .sendFailed delivered =>
    some (if delivered then [.sent msg] else [], { s with phase := .closed })
  | _ => none

/-- What the outcome of the awaited operation leads to. -/
def react (s : Session) (event : Event) : Option (List Effect × Session) :=
  match s.phase with
  | .probeTls hello => probeTlsEvent remote s hello event
  | .probePong hello p => probePongEvent s hello p event
  | .flushTls rest => flushTlsEvent cfg s rest event
  | .probeGreeting kind greet => probeGreetingEvent s kind greet event
  | .flushGreeting greet => flushGreetingEvent cfg s greet event
  | .relay => relayEvent cfg s event
  | .sendTcp rest => sendTcpEvent s rest event
  | .sendWs msg => sendWsEvent s msg event
  | .refused => none
  | .closed => none

/-- One step, at a clock reading that is not before the last one. -/
def step (s : Session) (i : Input) : Option (List Effect × Session) :=
  if i.time < s.clock then none else react cfg remote { s with clock := i.time } i.event

end Connection

/-- Runs of `Connection::run` started at `now`. -/
abbrev SessionRuns (cfg : Config) (remote : Remote) (now : Instant) :=
  Runs (Connection.step cfg remote) (Connection.start cfg remote now)

/-! ### What a run has moved -/

def Event.received : Event → Bytes
  | .wsMessage msg _ => msg.data.getD []
  | _ => []

def Event.read : Event → Bytes
  | .tcpRead data _ => data
  | _ => []

def Effect.written : Effect → Bytes
  | .wrote data => data
  | _ => []

/-- The payload of a binary message to the client. -/
def Effect.payload : Effect → Option Bytes
  | .sent (.binary data) => some data
  | _ => none

def Effect.charge : Effect → Nat
  | .charged n => n
  | _ => 0

abbrev SessionTrace := List (Input × List Effect)

/-- The payload bytes of the data messages received, in order. -/
def receivedBytes (trace : SessionTrace) : Bytes := trace.flatMap fun x => x.1.event.received

def readBytes (trace : SessionTrace) : Bytes := trace.flatMap fun x => x.1.event.read

def writtenBytes (trace : SessionTrace) : Bytes :=
  trace.flatMap fun x => x.2.flatMap Effect.written

def sentPayloads (trace : SessionTrace) : List Bytes :=
  trace.flatMap fun x => x.2.filterMap Effect.payload

def chargedBytes (trace : SessionTrace) : Nat :=
  (trace.map fun x => (x.2.map Effect.charge).sum).sum

end WsTcpProxy
