import WsTcpProxy.LimitSystem

/-!
# Handlers at the limiter

The order in which a handler calls the limiter: an attempt, the lease after any delay, byte
charges while the lease is live, and the end of the lease. A handler whose attempt or lease is
refused calls no more. Any number of handlers share the limiter, and each of them may stop calling
at any point.
-/

namespace WsTcpProxy
open Library

inductive Stage where
  | idle
  | attempted (ip : IpAddr) (dest : Str)
  | holding (ip : IpAddr) (lease : ConnectionLease)
  | finished
  deriving DecidableEq, Repr

/-- The next call of a handler, with the clock readings of the call. -/
inductive HandlerCall where
  | recordAttempt (ip : IpAddr) (dest : Str) (now : Instant)
  | acquire (now : Instant)
  | addBytes (n : Nat) (gcNow now : Instant)
  | drop (now : Instant)
  deriving DecidableEq, Repr

/-- The call on the limiter, if the stage of the handler admits it. -/
def Stage.call (handler : Nat) : Stage → HandlerCall → Option Call
  | .idle, .recordAttempt ip dest now => some (.recordAttempt ip dest now)
  | .attempted ip dest, .acquire now => some (.acquire handler ip dest now)
  | .holding ip _, .addBytes n gcNow now => some (.addBytes ip n gcNow now)
  | .holding _ lease, .drop now => some (.drop ⟨handler, lease⟩ now)
  | _, _ => none

/-- The stage of the handler after the reply. A refused charge ends the session, which then drops
its lease. -/
def Stage.after : Stage → HandlerCall → Reply → Stage
  | .idle, .recordAttempt ip dest _, .attempt (.ok ()) => .attempted ip dest
  | .attempted ip _, .acquire _, .lease (.ok lease) => .holding ip lease
  | .holding ip lease, .addBytes _ _ _, _ => .holding ip lease
  | _, _, _ => .finished

structure HandlerSystem where
  system : LimitSystem
  stage : Nat → Stage

namespace HandlerSystem

def start (cfg : LimitsConfig) (now : Instant) : HandlerSystem where
  system := LimitSystem.start cfg now
  stage := fun _ => .idle

def step (s : HandlerSystem) : Nat × HandlerCall → Option (Reply × HandlerSystem)
  | (handler, call) =>
    ((s.stage handler).call handler call).bind fun c =>
      (s.system.step c).map fun (reply, system) =>
        (reply,
          { system := system
            stage := Function.update s.stage handler ((s.stage handler).after call reply) })

end HandlerSystem

abbrev HandlerRuns (cfg : LimitsConfig) (t₀ : Instant) :
    List ((Nat × HandlerCall) × Reply) → HandlerSystem → Prop :=
  Runs HandlerSystem.step (HandlerSystem.start cfg t₀)

end WsTcpProxy
