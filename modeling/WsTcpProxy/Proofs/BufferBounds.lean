import WsTcpProxy.Proofs.ProxyResources

/-!
# What the process holds

A session buffers what it has taken in and not passed on: the hello or the greeting that its probe
collects, and the one message or read that its relay is sending. As long as the WebSocket library
keeps to the message size it is configured with, this is bounded for every session, and with the
caps of the limiter for the process, for a client prefix and for a destination.
-/

namespace WsTcpProxy

def Message.size : Message → Nat
  | .binary data => data.length
  | .text s => (asBytes s).length
  | .ping p | .pong p => p.length
  | .close => 0

/-- The bytes that a session has taken in and not passed on. -/
def Phase.held : Phase → Nat
  | .probeTls hello => hello.length
  | .probePong hello p => hello.length + p.length
  | .flushTls rest => rest.length
  | .probeGreeting _ greet => greet.length
  | .flushGreeting greet => greet.length
  | .sendTcp rest => rest.length
  | .sendWs msg => msg.size
  | .relay | .refused | .closed => 0

def Task.held (t : Task) : Nat :=
  match t.stage with
  | .running _ s => s.phase.held
  | _ => 0

/-- The largest payload of a control frame. -/
def maxControlPayload : Nat := 125

/-- What the WebSocket library lets through: data messages up to the configured size, and control
frames up to the size that the protocol gives them. -/
def Message.fits (limit : Nat) : Message → Bool
  | .binary data => data.length ≤ limit
  | .text s => (asBytes s).length ≤ limit
  | .ping p | .pong p => p.length ≤ maxControlPayload
  | .close => true

def Event.fits (limit : Nat) : Event → Bool
  | .wsMessage msg _ => msg.fits limit
  | _ => true

/-- The message that a step of a session consumed, if it consumed one, fits. -/
def Observed.fits (limit : Nat) (o : Observed) : Bool :=
  match o.session with
  | some (i, _) => i.event.fits limit
  | none => true

/-- What a session holds at most. -/
def Config.sessionCap (cfg : Config) : Nat :=
  16 * 1024 + max cfg.wsMaxMessageBytes maxControlPayload

/-- What the sessions hold whose lease is counted by `q`. -/
def Proxy.heldUnder (q : ConnectionLease → Bool) (p : Proxy) : Nat :=
  Library.total (fun t => if t.lease.any q then t.held else 0) p.tasks

end WsTcpProxy

namespace WsTcpProxy.Proofs
open Library

/-- The bound of each buffer. -/
def Buffered (limit : Nat) : Phase → Prop
  | .probeTls hello => hello.length ≤ 16 * 1024
  | .probePong hello p => hello.length ≤ 16 * 1024 ∧ p.length ≤ maxControlPayload
  | .flushTls rest => rest.length ≤ 16 * 1024 + limit
  | .probeGreeting _ greet => greet.length < maxGreeting
  | .flushGreeting greet => greet.length < maxGreeting + greetingBufferSize
  | .sendTcp rest => rest.length ≤ limit
  | .sendWs msg => msg.size ≤ relayBufferSize
  | .relay | .refused | .closed => True

lemma Buffered.held_le {cfg : Config} {phase : Phase} (h : Buffered cfg.wsMaxMessageBytes phase) :
    phase.held ≤ cfg.sessionCap := by
  unfold Config.sessionCap
  cases phase with
  | relay | refused | closed => exact Nat.zero_le _
  | _ =>
    simp only [Buffered, maxControlPayload, maxGreeting, greetingBufferSize, relayBufferSize] at h
    simp only [Phase.held, maxControlPayload]
    omega

/-! ### Sessions -/

section Sessions

variable {cfg : Config} {remote : Remote} {s s' : Session} {e : Event} {effects : List Effect}
  {limit : Nat}

/-- The hello that the probe goes on collecting is not longer than a record. -/
lemma length_of_tlsProbe_more {hello : Bytes} (h : tlsProbeStep remote hello = .more) :
    hello.length ≤ 16 * 1024 := by
  unfold tlsProbeStep at h
  split at h
  · split at h <;> cases h
  · split at h
    · cases h
    · omega
  · cases h

lemma length_of_greetingProbe_more {kind : ProbeKind} {greet : Bytes}
    (h : greetingProbeStep kind greet = .more) : greet.length < maxGreeting := by
  unfold greetingProbeStep at h
  split at h
  · split at h <;> cases h
  · rename_i hopen
    rw [Bool.not_eq_true, Bool.or_eq_false_iff] at hopen
    exact not_le.1 (of_decide_eq_false hopen.2)

lemma buffered_probeHello {hello data : Bytes} (hhello : hello.length ≤ 16 * 1024)
    (hdata : data.length ≤ limit)
    (h : Connection.probeHello remote s (hello ++ data) = (effects, s')) :
    Buffered limit s'.phase := by
  unfold Connection.probeHello at h
  split at h
  · cases h
    exact length_of_tlsProbe_more ‹_›
  · cases h
    change (hello ++ data).length ≤ _
    rw [List.length_append]
    omega
  · cases h
    trivial

lemma buffered_probeTls {hello : Bytes} (hhello : hello.length ≤ 16 * 1024) (he : e.fits limit = true)
    (h : Connection.probeTlsEvent remote s hello e = some (effects, s')) :
    Buffered limit s'.phase := by
  cases e with
  | wsMessage msg ok =>
    cases msg with
    | binary data | text t => exact buffered_probeHello hhello (of_decide_eq_true he) (Option.some.inj h)
    | ping p =>
      cases h
      exact ⟨hhello, of_decide_eq_true he⟩
    | pong p =>
      cases h
      exact hhello
    | close =>
      cases h
      trivial
  | wsError | wsEnd | wsTimeout =>
    cases h
    trivial
  | _ => cases h

lemma buffered_probePong {hello p : Bytes} (hhello : hello.length ≤ 16 * 1024)
    (h : Connection.probePongEvent s hello p e = some (effects, s')) :
    Buffered limit s'.phase := by
  cases e with
  | sendDone | sendFailed delivered =>
    cases h
    exact hhello
  | _ => cases h

lemma buffered_flushTls {rest : Bytes} (hrest : rest.length ≤ 16 * 1024 + limit)
    (h : Connection.flushTlsEvent cfg s rest e = some (effects, s')) :
    Buffered limit s'.phase := by
  cases e with
  | wrote n =>
    rw [Connection.flushTlsEvent] at h
    split at h
    · cases h
    · cases h
      change (rest.drop n).length ≤ _
      rw [List.length_drop]
      omega
  | writeDone =>
    rw [Connection.flushTlsEvent] at h
    split at h
    · cases h
      trivial
    · cases h
  | writeFailed =>
    cases h
    trivial
  | _ => cases h

lemma buffered_probeGreeting {kind : ProbeKind} {greet : Bytes} (hgreet : greet.length < maxGreeting)
    (h : Connection.probeGreetingEvent s kind greet e = some (effects, s')) :
    Buffered limit s'.phase := by
  cases e with
  | tcpRead data ok =>
    rw [Connection.probeGreetingEvent] at h
    split at h
    · cases h
    · split at h
      · cases h
        trivial
      · have h := Option.some.inj h
        unfold Connection.probeGreet at h
        split at h
        · cases h
          exact length_of_greetingProbe_more ‹_›
        · cases h
          change (greet ++ data).length < _
          rw [List.length_append]
          omega
        · cases h
          trivial
  | tcpError | tcpTimeout =>
    cases h
    trivial
  | _ => cases h

lemma buffered_flushGreeting {greet : Bytes}
    (h : Connection.flushGreetingEvent cfg s greet e = some (effects, s')) :
    Buffered limit s'.phase := by
  cases e with
  | sendDone | sendFailed delivered =>
    cases h
    trivial
  | _ => cases h

lemma buffered_account {data : Bytes} {ok : Bool} {next : Phase} (hnext : Buffered limit next)
    (h : Connection.account cfg s data ok next = (effects, s')) : Buffered limit s'.phase := by
  unfold Connection.account at h
  dsimp only at h
  split at h
  · cases h
    trivial
  · split at h
    · cases h
      exact hnext
    · split at h
      · cases h
        exact hnext
      · cases h
        trivial

lemma buffered_relayArms (he : e.fits limit = true)
    (h : Connection.relayArms cfg s e = some (effects, s')) : Buffered limit s'.phase := by
  cases e with
  | wsMessage msg ok =>
    cases msg with
    | binary data =>
      have hdata : data.length ≤ limit := of_decide_eq_true he
      have hnext : Buffered limit (.sendTcp data) := hdata
      exact buffered_account hnext (Option.some.inj h)
    | text t =>
      have hdata : (asBytes t).length ≤ limit := of_decide_eq_true he
      have hnext : Buffered limit (.sendTcp (asBytes t)) := hdata
      exact buffered_account hnext (Option.some.inj h)
    | ping p =>
      cases h
      exact (of_decide_eq_true he).trans (by decide)
    | pong p | close =>
      cases h
      trivial
  | tcpRead data ok =>
    rw [Connection.relayArms] at h
    split at h
    · cases h
    · split at h
      · cases h
        trivial
      · have hnext : Buffered limit (.sendWs (.binary data)) := not_lt.1 ‹_›
        exact buffered_account hnext (Option.some.inj h)
  | wsTimeout =>
    cases h
    exact Nat.zero_le _
  | wsError | wsEnd | tcpError =>
    cases h
    trivial
  | _ => cases h

lemma buffered_relay (he : e.fits limit = true)
    (h : Connection.relayEvent cfg s e = some (effects, s')) : Buffered limit s'.phase := by
  unfold Connection.relayEvent at h
  split at h
  · split at h
    · cases h
      trivial
    · cases h
  · exact buffered_relayArms he h

lemma buffered_sendTcp {rest : Bytes} (hrest : rest.length ≤ limit)
    (h : Connection.sendTcpEvent s rest e = some (effects, s')) : Buffered limit s'.phase := by
  cases e with
  | wrote n =>
    rw [Connection.sendTcpEvent] at h
    split at h
    · cases h
    · cases h
      change (rest.drop n).length ≤ _
      rw [List.length_drop]
      omega
  | writeDone =>
    rw [Connection.sendTcpEvent] at h
    split at h
    · cases h
      trivial
    · cases h
  | writeFailed =>
    cases h
    trivial
  | _ => cases h

lemma buffered_sendWs {msg : Message}
    (h : Connection.sendWsEvent s msg e = some (effects, s')) : Buffered limit s'.phase := by
  cases e with
  | sendDone | sendFailed delivered =>
    cases h
    trivial
  | _ => cases h

/-- No step overfills a buffer. -/
lemma Buffered.step {i : Input} (hs : Buffered limit s.phase) (he : i.event.fits limit = true)
    (h : Connection.step cfg remote s i = some (effects, s')) : Buffered limit s'.phase := by
  unfold Connection.step at h
  split at h
  · cases h
  · unfold Connection.react at h
    dsimp only at h
    cases hp : s.phase <;> rw [hp] at h hs
    case probeTls hello => exact buffered_probeTls hs he h
    case probePong hello p => exact buffered_probePong hs.1 h
    case flushTls rest => exact buffered_flushTls hs h
    case probeGreeting kind greet => exact buffered_probeGreeting hs h
    case flushGreeting greet => exact buffered_flushGreeting h
    case relay => exact buffered_relay he h
    case sendTcp rest => exact buffered_sendTcp hs h
    case sendWs msg => exact buffered_sendWs h
    case refused | closed => cases h

lemma buffered_start (cfg : Config) (remote : Remote) (now : Instant) :
    Buffered limit (Connection.start cfg remote now).phase := by
  unfold Connection.start
  dsimp only
  split
  · exact Nat.zero_le _
  · exact Nat.succ_pos _
  · trivial

/-- The buffers of a session stay within their bounds. -/
theorem Buffered.of_runs {now : Instant} {trace : SessionTrace}
    (hfits : ∀ x ∈ trace, x.1.event.fits limit = true) (h : SessionRuns cfg remote now trace s) :
    Buffered limit s.phase := by
  revert hfits
  refine h.invariant (P := fun trace s =>
    (∀ x ∈ trace, x.1.event.fits limit = true) → Buffered limit s.phase) ?_ ?_
  · intro _
    exact buffered_start _ _ _
  · intro trace s i effects s' hs hstep hfits
    have hbefore := hs fun x hx => hfits x (List.mem_append_left _ hx)
    exact hbefore.step (hfits (i, effects) (List.mem_append_right _ (List.mem_singleton_self _))) hstep

end Sessions

/-! ### The process -/

section Process

variable {d : Deployment} {now : Instant} {trace : ProxyTrace} {p : Proxy} {limit : Nat}

lemma fits_sessionOf (hfits : ∀ x ∈ trace, x.2.fits limit = true) (id : Nat) :
    ∀ x ∈ sessionOf id trace, x.1.event.fits limit = true := by
  intro x hx
  obtain ⟨⟨i, o⟩, hmem, hsession⟩ := List.mem_filterMap.1 hx
  have ho := hfits (i, o) hmem
  dsimp only at hsession
  split at hsession
  · rw [Observed.fits, hsession] at ho
    exact ho
  · cases hsession

/-- Every session stays within its cap. -/
lemma task_held_le (h : ProxyRuns d now trace p)
    (hfits : ∀ x ∈ trace, x.2.fits d.config.wsMaxMessageBytes = true) :
    ∀ t ∈ p.tasks, t.held ≤ d.config.sessionCap := by
  intro t ht
  obtain ⟨id, hid⟩ := List.mem_iff_getElem?.1 ht
  have hsession := session_run h id
  rw [hid] at hsession
  obtain ⟨request, stage⟩ := t
  cases stage with
  | running u s =>
    obtain ⟨now, hrun⟩ := hsession
    exact (Buffered.of_runs (fits_sessionOf hfits id) hrun).held_le
  | _ => exact Nat.zero_le _

/-- Only a session that holds a lease holds anything. -/
lemma held_of_unleased {t : Task} (h : t.lease = none) : t.held = 0 := by
  obtain ⟨request, stage⟩ := t
  cases stage with
  | running u s => cases h
  | _ => rfl

lemma held_total (p : Proxy) : total Task.held p.tasks = p.heldUnder fun _ => true := by
  unfold Proxy.heldUnder
  congr 1
  funext t
  cases h : t.lease with
  | none => exact held_of_unleased h
  | some l => rfl

/-- What the sessions of some leases hold is bounded by how many these are. -/
lemma heldUnder_le (h : ProxyRuns d now trace p)
    (hfits : ∀ x ∈ trace, x.2.fits d.config.wsMaxMessageBytes = true) (q : ConnectionLease → Bool) :
    p.heldUnder q ≤ p.limits.live.countP (fun l => q l.lease) * d.config.sessionCap := by
  rw [live_countP h]
  refine total_le_countP ?_ ?_
  · intro t ht
    split
    · exact task_held_le h hfits t ht
    · exact Nat.zero_le _
  · intro t _ hq
    rw [if_neg (by simp [hq])]

/-- If no message exceeds the configured size, a session never holds more than a TLS record and one
message. The sessions of the process, of a prefix and to a destination together hold at most as
many times that as the limiter lets there be connections. -/
theorem memory_bounded (d : Deployment) (now : Instant) (trace : ProxyTrace) (p : Proxy)
    (h : ProxyRuns d now trace p)
    (hfits : ∀ x ∈ trace, x.2.fits d.config.wsMaxMessageBytes = true) :
    (∀ t ∈ p.tasks, t.held ≤ d.config.sessionCap) ∧
    (d.config.limits.maxGlobalConnections ≠ 0 →
      total Task.held p.tasks ≤ d.config.limits.maxGlobalConnections * d.config.sessionCap) ∧
    (∀ k, d.config.limits.maxConnsPerIp ≠ 0 →
      p.heldUnder (fun l => l.ip = k) ≤ d.config.limits.maxConnsPerIp * d.config.sessionCap) ∧
    ∀ dest, d.config.limits.maxConnsPerDest ≠ 0 →
      p.heldUnder (fun l => l.dest = dest) ≤
        d.config.limits.maxConnsPerDest * d.config.sessionCap := by
  have hledger := LeaseLedger.of_runs (limiter_run h)
  have hheld := heldUnder_le h hfits
  refine ⟨task_held_le h hfits, ?_, ?_, ?_⟩
  · intro hcap
    have hall := hheld fun _ => true
    rw [List.countP_true, ← held_total] at hall
    exact hall.trans (Nat.mul_le_mul_right _ (hledger.globalCap hcap))
  · intro k hcap
    exact (hheld _).trans (Nat.mul_le_mul_right _ (hledger.ipCap k hcap))
  · intro dest hcap
    exact (hheld _).trans (Nat.mul_le_mul_right _ (hledger.destCap dest hcap))

/-- A session that holds the three bytes of a message. -/
theorem memory_bounded_mail :
    ∃ trace p, ProxyRuns openDeployment 0 trace p ∧ total Task.held p.tasks = 3 ∧
      total Task.held p.tasks ≤ openDeployment.config.limits.maxGlobalConnections *
        openDeployment.config.sessionCap := by
  have h : ProxyRuns openDeployment 0 _ _ := Runs.of_inputs mailInputs rfl
  exact ⟨_, _, h, rfl, (memory_bounded openDeployment 0 _ _ h (List.all_eq_true.1 rfl)).2.1 (by decide)⟩

end Process

end WsTcpProxy.Proofs
