import WsTcpProxy.Limits
import WsTcpProxy.Library.Runs

/-!
# The shared limiter

All handlers share one limiter behind a mutex, so any interleaving of their calls is a
sequence of atomic calls. Each call carries the clock readings that it takes while it holds
the mutex; readings never decrease. A lease can be dropped only while it is live.
-/

namespace WsTcpProxy
open Library

structure HeldLease where
  holder : Nat
  lease : ConnectionLease
  deriving DecidableEq, Repr

/-- The number of live leases whose limit key is `k`. -/
def leasesOf (live : List HeldLease) (k : IpAddr) : Nat :=
  live.countP (fun l => l.lease.ip = k)

def leasesTo (live : List HeldLease) (d : Str) : Nat :=
  live.countP (fun l => l.lease.dest = d)

inductive Call where
  | recordAttempt (ip : IpAddr) (dest : Str) (now : Instant)
  | acquire (holder : Nat) (ip : IpAddr) (dest : Str) (now : Instant)
  | addBytes (ip : IpAddr) (n : Nat) (gcNow now : Instant)
  | drop (held : HeldLease) (now : Instant)
  deriving DecidableEq, Repr

inductive Reply where
  | attempt (r : Except LimitError Unit)
  | lease (r : Except LimitError ConnectionLease)
  | bytes (r : Except LimitError Unit)
  | dropped
  deriving Repr

structure LimitSystem where
  limits : Inner
  live : List HeldLease
  clock : Instant

/-- What a handler holds after its call to `acquire`. -/
def heldBy (holder : Nat) : Except LimitError ConnectionLease → List HeldLease
  | .ok lease => [⟨holder, lease⟩]
  | .error _ => []

namespace LimitSystem

def start (cfg : LimitsConfig) (now : Instant) : LimitSystem where
  limits := Inner.new cfg now
  live := []
  clock := now

def step (s : LimitSystem) : Call → Option (Reply × LimitSystem)
  | .recordAttempt ip dest now =>
    if s.clock ≤ now then
      let (r, g) := s.limits.recordAttempt ip dest now
      some (.attempt r, { s with limits := g, clock := now })
    else none
  | .acquire holder ip dest now =>
    if s.clock ≤ now then
      let (r, g) := s.limits.acquire ip dest now
      some (.lease r, { limits := g, live := s.live ++ heldBy holder r, clock := now })
    else none
  | .addBytes ip n gcNow now =>
    if s.clock ≤ gcNow ∧ gcNow ≤ now then
      let (r, g) := s.limits.addBytes ip n gcNow now
      some (.bytes r, { s with limits := g, clock := now })
    else none
  | .drop held now =>
    if s.clock ≤ now ∧ held ∈ s.live then
      some (.dropped,
        { limits := s.limits.release held.lease.ip held.lease.dest now
          live := s.live.erase held
          clock := now })
    else none

end LimitSystem

/-- Runs of the shared limiter under a configuration, from the instant it is created. -/
abbrev LimitRuns (cfg : LimitsConfig) (t₀ : Instant) : List (Call × Reply) → LimitSystem → Prop :=
  Runs LimitSystem.step (LimitSystem.start cfg t₀)

end WsTcpProxy
