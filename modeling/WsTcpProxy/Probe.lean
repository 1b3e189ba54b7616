import WsTcpProxy.Metrics
import WsTcpProxy.Proto

/-!
# Probe loops

The accumulation loops of `probe_tls_sni` and `probe_greeting` (`connection.rs`), up to the
verdict on what has been collected.
-/

namespace WsTcpProxy

inductive Message where
  | binary (data : Bytes)
  | text (s : Str)
  | ping (payload : Bytes)
  | pong (payload : Bytes)
  | close
  deriving DecidableEq, Repr

def asBytes (s : Str) : Bytes := s.flatMap String.utf8EncodeChar

def Message.data : Message → Option Bytes
  | .binary data => some data
  | .text s => some (asBytes s)
  | _ => none

inductive ProbeStep where
  | more
  | accepted
  | rejected
  deriving DecidableEq, Repr

/-- What the TLS probe does after a data message, with `hello` collected so far. -/
def tlsProbeStep (remote : Remote) (hello : Bytes) : ProbeStep :=
  match tlsRecordNeeded hello with
  | .ok 0 =>
    match validateTlsClientHello hello remote.host remote.ipLiteral.isSome with
    | .ok () => .accepted
    | .error _ => .rejected
  | .ok _ => if 16 * 1024 < hello.length then .rejected else .more
  | .error _ => .rejected

/-- `probe_tls_sni` on the messages that arrive, without a timeout or a read error: `none`
while it waits, else the bytes to forward or the reject reason. -/
def probeTlsSni (remote : Remote) (hello : Bytes) :
    List Message → Option (Except RejectReason Bytes)
  | [] => none
  | .close :: _ => some (.error .proto)
  | .ping _ :: rest => probeTlsSni remote hello rest
  | .pong _ :: rest => probeTlsSni remote hello rest
  | .binary data :: rest =>
    match tlsProbeStep remote (hello ++ data) with
    | .more => probeTlsSni remote (hello ++ data) rest
    | .accepted => some (.ok (hello ++ data))
    | .rejected => some (.error .proto)
  | .text s :: rest =>
    match tlsProbeStep remote (hello ++ asBytes s) with
    | .more => probeTlsSni remote (hello ++ asBytes s) rest
    | .accepted => some (.ok (hello ++ asBytes s))
    | .rejected => some (.error .proto)

/-- What the greeting probe does after a read, with `greet` collected so far. -/
def greetingProbeStep (kind : ProbeKind) (greet : Bytes) : ProbeStep :=
  if greetingComplete greet || maxGreetingBytes ≤ greet.length then
    match validateGreeting greet kind with
    | .ok () => .accepted
    | .error _ => .rejected
  else .more

def greetingBufferSize : Nat := 256

/-- `probe_greeting` on what the reads return, without a timeout or a read error; an empty
read is the end of the stream. -/
def probeGreeting (kind : ProbeKind) (greet : Bytes) :
    List Bytes → Option (Except RejectReason Bytes)
  | [] => none
  | [] :: _ => some (.error .proto)
  | read :: rest =>
    match greetingProbeStep kind (greet ++ read) with
    | .more => probeGreeting kind (greet ++ read) rest
    | .accepted => some (.ok (greet ++ read))
    | .rejected => some (.error .proto)

end WsTcpProxy
