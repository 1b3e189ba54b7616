import WsTcpProxy.Addr
import WsTcpProxy.Text
import WsTcpProxy.Library.Table
import WsTcpProxy.Library.TimedQueue

/-!
# Limits

In-process concurrency, connect-rate, destination-diversity and byte caps (`limits.rs`).
Clock readings and durations are in nanoseconds, and `Instant::duration_since` saturates at
zero, as subtraction of naturals does. A `VecDeque` is a list with its front at the head. The
three counters of live leases are naturals: every lease holds an `Arc` of the limiter, whose
reference count is bounded below the range of `usize`. `u64` byte sums saturate explicitly.
-/

namespace WsTcpProxy
open Library

abbrev Instant := Nat

abbrev Duration := Nat

def fromSecs (s : Nat) : Duration := s * 1000000000

def u64Max : Nat := 2 ^ 64 - 1

def saturatingAdd (a b : Nat) : Nat := min (a + b) u64Max

inductive LimitError where
  | globalFull
  | perIpFull
  | perDestFull
  | connectRate
  | globalConnectRate
  | distinctDests
  | byteCap
  deriving DecidableEq, Repr

/-- `0` on a cap means unlimited. The defaults are those of `LimitsConfig::default`. -/
structure LimitsConfig where
  maxGlobalConnections : Nat := 5000
  maxConnsPerIp : Nat := 16
  maxConnsPerDest : Nat := 200
  connectsPerIp : Nat := 10
  connectsPerIpWindow : Duration := fromSecs 60
  distinctDestsPerIp : Nat := 10
  distinctDestsWindow : Duration := fromSecs 60
  globalConnects : Nat := 20
  globalConnectsWindow : Duration := fromSecs 1
  maxBytesPerIp : Nat := 1024 * 1024 * 1024
  bytesWindow : Duration := fromSecs 3600
  ipv4Prefix : Nat := 32
  ipv6Prefix : Nat := 64
  maxTrackedIps : Nat := 50000
  deriving DecidableEq, Repr

/-- `LimitsConfig::unlimited`: every cap is off. -/
def LimitsConfig.unlimited : LimitsConfig where
  maxGlobalConnections := 0
  maxConnsPerIp := 0
  maxConnsPerDest := 0
  connectsPerIp := 0
  distinctDestsPerIp := 0
  globalConnects := 0
  maxBytesPerIp := 0
  maxTrackedIps := 0

/-- Masks `ip` to the configured prefix; IPv4-mapped IPv6 is treated as IPv4. -/
def limitKey (ip : IpAddr) (v4Bits v6Bits : Nat) : IpAddr :=
  let keyV4 (v4 : Ipv4Addr) : IpAddr :=
    let bits := min v4Bits 32
    if bits = 32 then .v4 v4
    else
      let mask : BitVec 32 := if bits = 0 then 0 else BitVec.allOnes 32 <<< (32 - bits)
      .v4 (v4 &&& mask)
  match ip with
  | .v4 v4 => keyV4 v4
  | .v6 v6 =>
    match v6.toIpv4Mapped with
    | some v4 => keyV4 v4
    | none =>
      let bits := min v6Bits 128
      if bits = 128 then .v6 v6
      else
        let mask : BitVec 128 := if bits = 0 then 0 else BitVec.allOnes 128 <<< (128 - bits)
        .v6 (v6 &&& mask)

/-- `limit_key` with its integer operations checked. -/
def limitKeyChecked (ip : IpAddr) (v4Bits v6Bits : Nat) : Option IpAddr :=
  let keyV4 (v4 : Ipv4Addr) : Option IpAddr := do
    let bits := min v4Bits 32
    if bits = 32 then return .v4 v4
    let mask ← checkedMask 32 bits
    return .v4 (v4 &&& mask)
  match ip with
  | .v4 v4 => keyV4 v4
  | .v6 v6 =>
    match v6.toIpv4Mapped with
    | some v4 => keyV4 v4
    | none => do
      let bits := min v6Bits 128
      if bits = 128 then return .v6 v6
      let mask ← checkedMask 128 bits
      return .v6 (v6 &&& mask)

def capped (limit used : Nat) : Bool := limit ≠ 0 && limit ≤ used

def pruneInstants (q : List Instant) (now : Instant) (window : Duration) : List Instant :=
  expireFront id now window q

structure IpState where
  connections : Nat := 0
  connects : List Instant := []
  dests : List (Instant × Str) := []
  bytes : List (Instant × Nat) := []
  bytesSum : Nat := 0
  deriving DecidableEq, Repr

/-- The loop of `IpState::prune` over `bytes`, which takes each popped count off the sum. -/
def pruneBytes (now : Instant) (window : Duration) :
    List (Instant × Nat) → Nat → List (Instant × Nat) × Nat
  | [], sum => ([], sum)
  | (t, n) :: q, sum =>
    if window < now - t then pruneBytes now window q (sum - n) else ((t, n) :: q, sum)

def IpState.prune (st : IpState) (now : Instant) (cfg : LimitsConfig) : IpState :=
  let (bytes, bytesSum) := pruneBytes now cfg.bytesWindow st.bytes st.bytesSum
  { st with
    connects := pruneInstants st.connects now cfg.connectsPerIpWindow
    dests := expireFront Prod.fst now cfg.distinctDestsWindow st.dests
    bytes := bytes
    bytesSum := bytesSum }

def IpState.isIdle (st : IpState) : Bool :=
  st.connections == 0 && st.connects.isEmpty && st.dests.isEmpty && st.bytes.isEmpty

/-- The two `push_back` calls of a successful attempt. -/
def IpState.pushAttempt (st : IpState) (now : Instant) (dest : Str) : IpState :=
  { st with connects := st.connects ++ [now], dests := st.dests ++ [(now, dest)] }

def IpState.pushBytes (st : IpState) (now : Instant) (n : Nat) : IpState :=
  { st with bytes := st.bytes ++ [(now, n)], bytesSum := saturatingAdd st.bytesSum n }

structure Inner where
  cfg : LimitsConfig
  globalConnections : Nat
  globalConnects : List Instant
  perIp : AList fun _ : IpAddr => IpState
  perDest : AList fun _ : Str => Nat
  lastGc : Instant

/-- A live connection slot; the limiter handle of the source is not part of the value. -/
structure ConnectionLease where
  ip : IpAddr
  dest : Str
  deriving DecidableEq, Repr

namespace Inner

def new (cfg : LimitsConfig) (now : Instant) : Inner where
  cfg := cfg
  globalConnections := 0
  globalConnects := []
  perIp := ∅
  perDest := ∅
  lastGc := now

/-- The limit key of an address under the limiter's configuration. -/
def key (g : Inner) (ip : IpAddr) : IpAddr := limitKey ip g.cfg.ipv4Prefix g.cfg.ipv6Prefix

/-- The row `per_ip.entry(ip).or_default()`. -/
def row (g : Inner) (ip : IpAddr) : IpState := g.perIp.rowD ip {}

def setRow (g : Inner) (ip : IpAddr) (st : IpState) : Inner :=
  { g with perIp := g.perIp.insert ip st }

def pruneGlobal (g : Inner) (now : Instant) : Inner :=
  { g with globalConnects := pruneInstants g.globalConnects now g.cfg.globalConnectsWindow }

/-- Drops the rows whose windows have expired and that hold no lease. -/
def gcIdle (g : Inner) (now : Instant) : Inner :=
  let g := g.pruneGlobal now
  { g with
    perIp := g.perIp.retain fun _ st =>
      let st := st.prune now g.cfg
      if st.isIdle then none else some st
    lastGc := now }

def maybeGc (g : Inner) (now : Instant) : Inner :=
  let overdue : Bool := fromSecs 30 ≤ now - g.lastGc
  let large : Bool := 10000 ≤ g.perIp.keys.length
  if overdue || large then g.gcIdle now else g

/-- The guard of `record_attempt` on the number of tracked prefixes. -/
def trackedFull (g : Inner) (ip : IpAddr) : Bool :=
  capped g.cfg.maxTrackedIps g.perIp.keys.length && !decide (ip ∈ g.perIp)

/-- `record_attempt` after the tracked-prefix guard; `ip` is a limit key. -/
def countAttempt (g : Inner) (ip : IpAddr) (dest : Str) (now : Instant) :
    Except LimitError Unit × Inner :=
  if capped g.cfg.globalConnects g.globalConnects.length then
    (.error .globalConnectRate, g)
  else
    let st := (g.row ip).prune now g.cfg
    let unique := (st.dests.map Prod.snd).dedup
    if capped g.cfg.connectsPerIp st.connects.length then
      (.error .connectRate, g.setRow ip st)
    else if g.cfg.distinctDestsPerIp ≠ 0 ∧ dest ∉ unique ∧
        g.cfg.distinctDestsPerIp ≤ unique.length then
      (.error .distinctDests, g.setRow ip st)
    else
      let g := g.setRow ip (st.pushAttempt now dest)
      (.ok (), { g with globalConnects := g.globalConnects ++ [now] })

/-- Counts a connect attempt toward rate and diversity. -/
def recordAttempt (g : Inner) (ip : IpAddr) (dest : Str) (now : Instant) :
    Except LimitError Unit × Inner :=
  let ip := g.key ip
  let g := (g.maybeGc now).pruneGlobal now
  if g.trackedFull ip then
    let g := g.gcIdle now
    if g.trackedFull ip then (.error .globalConnectRate, g) else g.countAttempt ip dest now
  else g.countAttempt ip dest now

def acquire (g : Inner) (ip : IpAddr) (dest : Str) (now : Instant) :
    Except LimitError ConnectionLease × Inner :=
  let ip := g.key ip
  let g := g.maybeGc now
  if capped g.cfg.maxGlobalConnections g.globalConnections then
    (.error .globalFull, g)
  else
    let st := g.row ip
    let g := g.setRow ip st
    if capped g.cfg.maxConnsPerIp st.connections then
      (.error .perIpFull, g)
    else if capped g.cfg.maxConnsPerDest (g.perDest.rowD dest 0) then
      (.error .perDestFull, g)
    else
      let g := g.setRow ip { st with connections := st.connections + 1 }
      (.ok { ip := ip, dest := dest },
        { g with
          globalConnections := g.globalConnections + 1
          perDest := g.perDest.insert dest (g.perDest.rowD dest 0 + 1) })

/-- The `per_ip` part of `release`. -/
def releaseIp (g : Inner) (ip : IpAddr) (now : Instant) : Inner :=
  match g.perIp.lookup ip with
  | none => g
  | some st =>
    let st := { st with connections := st.connections - 1 }.prune now g.cfg
    if st.isIdle then { g with perIp := g.perIp.erase ip } else g.setRow ip st

/-- The `per_dest` part of `release`. -/
def releaseDest (g : Inner) (dest : Str) : Inner :=
  match g.perDest.lookup dest with
  | none => g
  | some c =>
    if c - 1 = 0 then { g with perDest := g.perDest.erase dest }
    else { g with perDest := g.perDest.insert dest (c - 1) }

/-- Gives a slot back; `ip` is the limit key stored in the lease. -/
def release (g : Inner) (ip : IpAddr) (dest : Str) (now : Instant) : Inner :=
  let g := { g with globalConnections := g.globalConnections - 1 }
  (g.releaseIp ip now).releaseDest dest

/-- Charges `n` bytes. The clock is read twice, for the garbage collection and for the entry. -/
def addBytes (g : Inner) (ip : IpAddr) (n : Nat) (gcNow now : Instant) :
    Except LimitError Unit × Inner :=
  if n = 0 then (.ok (), g)
  else
    let ip := g.key ip
    let g := g.maybeGc gcNow
    if g.cfg.maxBytesPerIp = 0 then (.ok (), g)
    else
      let st := (g.row ip).prune now g.cfg
      if g.cfg.maxBytesPerIp < saturatingAdd st.bytesSum n then
        (.error .byteCap, g.setRow ip st)
      else (.ok (), g.setRow ip (st.pushBytes now n))

end Inner

end WsTcpProxy
