import WsTcpProxy.LimitSystem

/-!
# Reference ledger

The abstract meaning of the limiter: a ledger that never forgets. It keeps every successful
attempt, every accepted charge and every live lease, and decides each call by counting the
entries that are recent at the time of the call.
-/

namespace WsTcpProxy
open Library

structure Attempt where
  time : Instant
  key : IpAddr
  dest : Str
  deriving DecidableEq, Repr

structure Charge where
  time : Instant
  key : IpAddr
  bytes : Nat
  deriving DecidableEq, Repr

structure ReferenceLedger where
  attempts : List Attempt := []
  charges : List Charge := []
  live : List HeldLease := []

namespace ReferenceLedger

def attemptsOf (l : ReferenceLedger) (k : IpAddr) : List Attempt :=
  l.attempts.filter (fun a => a.key = k)

def chargesOf (l : ReferenceLedger) (k : IpAddr) : List Charge :=
  l.charges.filter (fun c => c.key = k)

def decideAttempt (cfg : LimitsConfig) (l : ReferenceLedger) (k : IpAddr) (dest : Str)
    (now : Instant) : Except LimitError Unit :=
  let global := recent Attempt.time now cfg.globalConnectsWindow l.attempts
  let connects := recent Attempt.time now cfg.connectsPerIpWindow (l.attemptsOf k)
  let dests := ((recent Attempt.time now cfg.distinctDestsWindow (l.attemptsOf k)).map
    Attempt.dest).dedup
  if capped cfg.globalConnects global.length then .error .globalConnectRate
  else if capped cfg.connectsPerIp connects.length then .error .connectRate
  else if cfg.distinctDestsPerIp ≠ 0 ∧ dest ∉ dests ∧ cfg.distinctDestsPerIp ≤ dests.length then
    .error .distinctDests
  else .ok ()

def decideAcquire (cfg : LimitsConfig) (l : ReferenceLedger) (k : IpAddr) (dest : Str) :
    Except LimitError ConnectionLease :=
  if capped cfg.maxGlobalConnections l.live.length then .error .globalFull
  else if capped cfg.maxConnsPerIp (leasesOf l.live k) then .error .perIpFull
  else if capped cfg.maxConnsPerDest (leasesTo l.live dest) then .error .perDestFull
  else .ok ⟨k, dest⟩

/-- The total of the recent charges is not rounded; only the sum with `n` is capped. -/
def decideCharge (cfg : LimitsConfig) (l : ReferenceLedger) (k : IpAddr) (n : Nat)
    (now : Instant) : Except LimitError Unit :=
  let sum := ((recent Charge.time now cfg.bytesWindow (l.chargesOf k)).map Charge.bytes).sum
  if cfg.maxBytesPerIp ≠ 0 ∧ n ≠ 0 ∧ cfg.maxBytesPerIp < min (sum + n) u64Max then .error .byteCap
  else .ok ()

def addAttempt (l : ReferenceLedger) (a : Attempt) : Except LimitError Unit → ReferenceLedger
  | .ok () => { l with attempts := l.attempts ++ [a] }
  | .error _ => l

def addCharge (l : ReferenceLedger) (c : Charge) : Except LimitError Unit → ReferenceLedger
  | .ok () => { l with charges := l.charges ++ [c] }
  | .error _ => l

def step (cfg : LimitsConfig) (l : ReferenceLedger) : Call → Reply × ReferenceLedger
  | .recordAttempt ip dest now =>
    let k := limitKey ip cfg.ipv4Prefix cfg.ipv6Prefix
    let r := l.decideAttempt cfg k dest now
    (.attempt r, l.addAttempt ⟨now, k, dest⟩ r)
  | .acquire holder ip dest _ =>
    let k := limitKey ip cfg.ipv4Prefix cfg.ipv6Prefix
    let r := l.decideAcquire cfg k dest
    (.lease r, { l with live := l.live ++ heldBy holder r })
  | .addBytes ip n _ now =>
    let k := limitKey ip cfg.ipv4Prefix cfg.ipv6Prefix
    let r := l.decideCharge cfg k n now
    (.bytes r, l.addCharge ⟨now, k, n⟩ r)
  | .drop held _ => (.dropped, { l with live := l.live.erase held })

/-- The replies of the ledger to a sequence of calls, and the ledger after them. -/
def run (cfg : LimitsConfig) (l : ReferenceLedger) : List Call → List Reply × ReferenceLedger
  | [] => ([], l)
  | c :: cs =>
    let (r, l) := l.step cfg c
    let (rs, l) := l.run cfg cs
    (r :: rs, l)

end ReferenceLedger

/-- The attempts of a trace of the limiter that succeeded, in order. -/
def successfulAttempts (cfg : LimitsConfig) (trace : List (Call × Reply)) : List Attempt :=
  trace.filterMap fun
    | (.recordAttempt ip dest now, .attempt (.ok ())) =>
      some ⟨now, limitKey ip cfg.ipv4Prefix cfg.ipv6Prefix, dest⟩
    | _ => none

/-- The byte charges of a trace of the limiter that were accepted, in order. -/
def acceptedCharges (cfg : LimitsConfig) (trace : List (Call × Reply)) : List Charge :=
  trace.filterMap fun
    | (.addBytes ip n _ now, .bytes (.ok ())) =>
      some ⟨now, limitKey ip cfg.ipv4Prefix cfg.ipv6Prefix, n⟩
    | _ => none

end WsTcpProxy
