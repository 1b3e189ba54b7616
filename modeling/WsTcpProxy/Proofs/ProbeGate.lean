import WsTcpProxy.Proofs.ByteStreams
import WsTcpProxy.Proofs.TlsFragmentation

/-!
# The probe gate

With the probes on, nothing crosses a session before its probe has accepted, and nothing at
all when the verdict is a rejection.
-/

namespace WsTcpProxy.Proofs
open Library

/-- Nothing has crossed in either direction. -/
def Untouched (trace : SessionTrace) : Prop := writtenBytes trace = [] ∧ sentPayloads trace = []

/-- The bytes start with a complete record that is an acceptable ClientHello. -/
def TlsGate (remote : Remote) (received : Bytes) : Prop :=
  ∃ record, record <+: received ∧ record.length = 5 + recordLen record ∧
    validateTlsClientHello record remote.host remote.ipLiteral.isSome = .ok ()

/-- The upstream's bytes started with an acceptable greeting, and it was the first message to
the client. -/
def GreetingGate (kind : ProbeKind) (read : Bytes) (sent : List Bytes) : Prop :=
  ∃ greet, greet <+: read ∧ validateGreeting greet kind = .ok () ∧ sent.head? = some greet

lemma TlsGate.mono {remote : Remote} {received : Bytes} (h : TlsGate remote received) (more : Bytes) :
    TlsGate remote (received ++ more) := by
  obtain ⟨record, hinit, hlen, hval⟩ := h
  exact ⟨record, hinit.trans (List.prefix_append _ _), hlen, hval⟩

lemma GreetingGate.mono {kind : ProbeKind} {read : Bytes} {sent : List Bytes}
    (h : GreetingGate kind read sent) (more : Bytes) (later : List Bytes) :
    GreetingGate kind (read ++ more) (sent ++ later) := by
  obtain ⟨greet, hinit, hval, hhead⟩ := h
  refine ⟨greet, hinit.trans (List.prefix_append _ _), hval, ?_⟩
  rw [List.head?_append, hhead]
  rfl

/-- An accepted hello starts with its record. -/
lemma tlsGate_of_accepted {remote : Remote} {hello : Bytes}
    (h : tlsProbeStep remote hello = .accepted) : TlsGate remote hello := by
  have hval := tlsProbeStep_accepted_iff.1 h
  obtain ⟨hheader, hlen⟩ := (tlsRecordNeeded_zero_iff hello).1 (validate_complete hval)
  have hinit : hello.take (5 + recordLen hello) <+: hello := List.take_prefix _ _
  have htake : (hello.take (5 + recordLen hello)).length = 5 + recordLen hello := by
    rw [List.length_take]
    omega
  obtain ⟨-, hrec⟩ := hheader.of_initial hinit (by omega)
  refine ⟨hello.take (5 + recordLen hello), hinit, by omega, ?_⟩
  exact tlsProbeStep_accepted_iff.1 (tlsProbeStep_complete hval hinit (by omega))

lemma validateGreeting_of_accepted {kind : ProbeKind} {greet : Bytes}
    (h : greetingProbeStep kind greet = .accepted) : validateGreeting greet kind = .ok () := by
  unfold greetingProbeStep at h
  split at h
  · split at h
    · assumption
    · cases h
  · cases h

/-! ### Behind the probe -/

def Passed : Phase → Prop
  | .relay | .sendTcp _ | .sendWs _ | .closed => True
  | _ => False

section Steps

variable {cfg : Config} {remote : Remote} {trace : SessionTrace} {s s' : Session} {i : Input}
  {effects : List Effect}

lemma Passed.step {e : Event} (hstep : SessionStep cfg remote s e effects s') (h : Passed s.phase) :
    Passed s'.phase := by
  cases hstep with
  | relayUp hp _ hx =>
    obtain ⟨hs, -⟩ | ⟨rfl, -⟩ := account_spec hx
    · rw [hs]
      trivial
    · trivial
  | relayDown hp hx =>
    obtain ⟨hs, -⟩ | ⟨rfl, -⟩ := account_spec hx
    · rw [hs]
      trivial
    · trivial
  | relayControl hp _ _ hphase =>
    obtain rfl | ⟨p, rfl⟩ | ⟨p, rfl⟩ := hphase <;> trivial
  | relayClosed | dataWrote | dataDone | dataFailed | messageSent | messageFailed => trivial
  | helloData hp | helloControl hp | helloRefused hp | helloPonged hp | helloWrote hp
  | helloFlushed hp | helloFailed hp | greetRead hp | greetRefused hp | greetSent hp
  | greetFailed hp =>
    rw [hp] at h
    exact h.elim

lemma Untouched.quiet (h : Untouched trace) (hq : QuietEffects effects) :
    Untouched (trace ++ [(i, effects)]) := by
  constructor
  · rw [writtenBytes_concat, h.1, hq.1]
    rfl
  · rw [sentPayloads_concat, h.2, hq.2.1]
    rfl

/-! ### The TLS probe -/

def TlsGated (remote : Remote) (trace : SessionTrace) (phase : Phase) : Prop :=
  match phase with
  | .probeTls _ | .probePong _ _ | .refused => Untouched trace
  | .probeGreeting _ _ | .flushGreeting _ => False
  | _ => TlsGate remote (receivedBytes trace)

lemma tlsGated_of_passed {phase : Phase} (h : Passed phase) :
    TlsGated remote trace phase ↔ TlsGate remote (receivedBytes trace) := by
  cases phase with
  | relay | sendTcp | sendWs | closed => rfl
  | probeTls | probePong | flushTls | probeGreeting | flushGreeting | refused => exact h.elim

lemma TlsGated.step (hstep : SessionStep cfg remote s i.event effects s')
    (h : TlsGated remote trace s.phase) (hstreams : Streams trace s.phase) :
    TlsGated remote (trace ++ [(i, effects)]) s'.phase := by
  have hgate : TlsGate remote (receivedBytes trace) →
      TlsGate remote (receivedBytes (trace ++ [(i, effects)])) := by
    rw [receivedBytes_concat]
    exact fun hg => hg.mono _
  by_cases hpassed : Passed s.phase
  · rw [tlsGated_of_passed hpassed] at h
    rw [tlsGated_of_passed (Passed.step hstep hpassed)]
    exact hgate h
  have hlive := not_ended_of_step hstep
  have hhello : Untouched trace → receivedBytes trace = pendingUp s.phase := by
    intro hu
    rw [hstreams.up.kept hlive, hu.1]
    rfl
  generalize he : i.event = e at hstep
  cases hstep with
  | helloData hp hd hx =>
    rw [hp] at h hhello
    obtain ⟨hq, hcases⟩ := probeHello_spec hx
    obtain ⟨hs, -⟩ | ⟨hs, hacc⟩ | hs := hcases
    · rw [hs]
      exact Untouched.quiet h hq
    · rw [hs]
      change TlsGate remote _
      rw [receivedBytes_concat, hhello h, he, received_of_data hd]
      exact tlsGate_of_accepted hacc
    · rw [hs]
      exact Untouched.quiet h hq
  | helloControl hp _ _ hphase =>
    rw [hp] at h
    obtain rfl | ⟨p, rfl⟩ := hphase
    · exact Untouched.quiet h quiet_nil
    · exact Untouched.quiet h quiet_nil
  | helloRefused hp =>
    rw [hp] at h
    exact Untouched.quiet h (quiet_rejected _)
  | helloPonged hp _ _ hq =>
    rw [hp] at h
    exact Untouched.quiet h hq
  | helloWrote hp | helloFlushed hp | helloFailed hp =>
    rw [hp] at h
    exact hgate h
  | greetRead hp | greetRefused hp | greetSent hp | greetFailed hp =>
    rw [hp] at h
    exact h.elim
  | relayUp hp | relayDown hp | relayControl hp | relayClosed hp | dataWrote hp | dataDone hp
  | dataFailed hp | messageSent hp | messageFailed hp =>
    rw [hp] at hpassed
    exact absurd trivial hpassed

/-! ### The greeting probe -/

def GreetingGated (kind : ProbeKind) (trace : SessionTrace) (phase : Phase) : Prop :=
  match phase with
  | .probeGreeting k _ => k = kind ∧ Untouched trace
  | .flushGreeting greet => validateGreeting greet kind = .ok () ∧ Untouched trace
  | .refused => Untouched trace
  | .probeTls _ | .probePong _ _ | .flushTls _ => False
  | _ => Untouched trace ∧ phase = .closed ∨
      GreetingGate kind (readBytes trace) (sentPayloads trace)

lemma greetingGated_of_passed {kind : ProbeKind} {phase : Phase} (h : Passed phase) :
    GreetingGated kind trace phase ↔
      Untouched trace ∧ phase = .closed ∨
        GreetingGate kind (readBytes trace) (sentPayloads trace) := by
  cases phase with
  | relay | sendTcp | sendWs | closed => rfl
  | probeTls | probePong | flushTls | probeGreeting | flushGreeting | refused => exact h.elim

lemma GreetingGated.step {kind : ProbeKind} (hstep : SessionStep cfg remote s i.event effects s')
    (h : GreetingGated kind trace s.phase) (hstreams : Streams trace s.phase) :
    GreetingGated kind (trace ++ [(i, effects)]) s'.phase := by
  have hlive := not_ended_of_step hstep
  have hgreet : ∀ greet, s.phase = .flushGreeting greet → Untouched trace →
      readBytes trace = greet := by
    intro greet hp hu
    rw [hstreams.down.kept hlive, hu.2, hp]
    rfl
  by_cases hpassed : Passed s.phase
  · rw [greetingGated_of_passed hpassed] at h
    rw [greetingGated_of_passed (Passed.step hstep hpassed)]
    obtain ⟨-, hclosed⟩ | hgate := h
    · exact absurd (.inr hclosed) hlive
    · rw [readBytes_concat, sentPayloads_concat]
      exact .inr (hgate.mono _ _)
  generalize he : i.event = e at hstep
  cases hstep with
  | greetRead hp hx =>
    rw [hp] at h
    obtain ⟨rfl, hu⟩ := h
    obtain ⟨hq, hcases⟩ := probeGreet_spec hx
    obtain ⟨hs, -⟩ | ⟨hs, hacc⟩ | hs := hcases
    · rw [hs]
      exact ⟨rfl, hu.quiet hq⟩
    · rw [hs]
      exact ⟨validateGreeting_of_accepted hacc, hu.quiet hq⟩
    · rw [hs]
      exact hu.quiet hq
  | greetRefused hp =>
    rw [hp] at h
    exact Untouched.quiet h.2 (quiet_rejected _)
  | @greetSent greet hp =>
    have hread := hgreet greet hp
    rw [hp] at h
    rw [greetingGated_of_passed (show Passed (Connection.enterRelay cfg s).phase from trivial),
      readBytes_concat, sentPayloads_concat, hread h.2, h.2.2]
    exact .inr ⟨greet, List.prefix_append _ _, h.1, rfl⟩
  | @greetFailed greet delivered hp =>
    have hread := hgreet greet hp
    rw [hp] at h
    rw [greetingGated_of_passed (show Passed Phase.closed from trivial)]
    cases delivered with
    | false => exact .inl ⟨Untouched.quiet h.2 (quiet_rejected _), rfl⟩
    | true =>
      rw [readBytes_concat, sentPayloads_concat, hread h.2, h.2.2]
      exact .inr ⟨greet, List.prefix_append _ _, h.1, rfl⟩
  | helloData hp | helloControl hp | helloRefused hp | helloPonged hp | helloWrote hp
  | helloFlushed hp | helloFailed hp =>
    rw [hp] at h
    exact h.elim
  | relayUp hp | relayDown hp | relayControl hp | relayClosed hp | dataWrote hp | dataDone hp
  | dataFailed hp | messageSent hp | messageFailed hp =>
    rw [hp] at hpassed
    exact absurd trivial hpassed

end Steps

/-! ### Runs -/

section Sessions

variable {cfg : Config} {remote : Remote} {now : Instant} {trace : SessionTrace} {s : Session}

lemma TlsGated.of_runs (hprobe : cfg.requireProtocolProbe = true)
    (hport : probeForPort remote.port = some .tlsSni) (h : SessionRuns cfg remote now trace s) :
    TlsGated remote trace s.phase := by
  have hstart : (Connection.start cfg remote now).phase = .probeTls [] := by
    simp [Connection.start, hprobe, hport]
  have hinv : Streams trace s.phase ∧ TlsGated remote trace s.phase :=
    h.invariant (P := fun trace s => Streams trace s.phase ∧ TlsGated remote trace s.phase)
      ⟨Streams.start cfg remote now, by rw [hstart]; exact ⟨rfl, rfl⟩⟩
      fun _ _ _ _ _ hs hstep =>
        ⟨Streams.step (step_cases hstep) hs.1, TlsGated.step (step_cases hstep) hs.2 hs.1⟩
  exact hinv.2

lemma GreetingGated.of_runs {kind : ProbeKind} (hprobe : cfg.requireProtocolProbe = true)
    (hport : probeForPort remote.port = some kind) (hkind : kind ≠ .tlsSni)
    (h : SessionRuns cfg remote now trace s) : GreetingGated kind trace s.phase := by
  have hstart : (Connection.start cfg remote now).phase = .probeGreeting kind [] := by
    cases kind with
    | tlsSni => exact absurd rfl hkind
    | imapGreeting => simp [Connection.start, hprobe, hport]
    | smtpGreeting => simp [Connection.start, hprobe, hport]
  have hinv : Streams trace s.phase ∧ GreetingGated kind trace s.phase :=
    h.invariant (P := fun trace s => Streams trace s.phase ∧ GreetingGated kind trace s.phase)
      ⟨Streams.start cfg remote now, by rw [hstart]; exact ⟨rfl, rfl, rfl⟩⟩
      fun _ _ _ _ _ hs hstep =>
        ⟨Streams.step (step_cases hstep) hs.1, GreetingGated.step (step_cases hstep) hs.2 hs.1⟩
  exact hinv.2

lemma Passed.of_runs (hport : probeForPort remote.port = none)
    (h : SessionRuns cfg remote now trace s) : Passed s.phase := by
  have hstart : (Connection.start cfg remote now).phase = .relay := by
    simp [Connection.start, Connection.enterRelay, hport]
  apply h.state_invariant (P := fun s => Passed s.phase)
  · rw [hstart]
    trivial
  · intro _ _ _ _ hs hstep
    exact Passed.step (step_cases hstep) hs

lemma TlsGated.gate {phase : Phase} (h : TlsGated remote trace phase) (hcross : ¬ Untouched trace) :
    TlsGate remote (receivedBytes trace) := by
  cases phase with
  | probeTls | probePong | refused => exact absurd h hcross
  | probeGreeting | flushGreeting => exact h.elim
  | flushTls | relay | sendTcp | sendWs | closed => exact h

lemma GreetingGated.gate {kind : ProbeKind} {phase : Phase} (h : GreetingGated kind trace phase)
    (hcross : ¬ Untouched trace) : GreetingGate kind (readBytes trace) (sentPayloads trace) := by
  cases phase with
  | probeGreeting | flushGreeting => exact absurd h.2 hcross
  | refused => exact absurd h hcross
  | probeTls | probePong | flushTls => exact h.elim
  | relay | sendTcp | sendWs | closed => exact h.resolve_left fun hu => hcross hu.1

lemma untouched_of_refused (hprobe : cfg.requireProtocolProbe = true)
    (h : SessionRuns cfg remote now trace s) (hrefused : s.phase = .refused) : Untouched trace := by
  cases hport : probeForPort remote.port with
  | none =>
    have hpassed := Passed.of_runs hport h
    rw [hrefused] at hpassed
    exact hpassed.elim
  | some kind =>
    by_cases hkind : kind = .tlsSni
    · have hgated := TlsGated.of_runs hprobe (hkind ▸ hport) h
      rw [hrefused] at hgated
      exact hgated
    · have hgated := GreetingGated.of_runs hprobe hport hkind h
      rw [hrefused] at hgated
      exact hgated

end Sessions

/-- The probe gate, at every point of every session with the probes on: on the TLS ports nothing
has crossed unless the client's bytes start with an accepted ClientHello record; on the greeting
ports nothing has crossed unless the upstream's bytes start with an accepted greeting, which is
then the client's first message; and nothing has crossed if the verdict was a rejection. -/
theorem probe_gate (cfg : Config) (remote : Remote) (now : Instant) (trace : SessionTrace)
    (s : Session) (hprobe : cfg.requireProtocolProbe = true)
    (h : SessionRuns cfg remote now trace s) :
    (remote.port = 993 ∨ remote.port = 465 →
      writtenBytes trace ≠ [] ∨ sentPayloads trace ≠ [] → TlsGate remote (receivedBytes trace)) ∧
    (remote.port = 143 → writtenBytes trace ≠ [] ∨ sentPayloads trace ≠ [] →
      GreetingGate .imapGreeting (readBytes trace) (sentPayloads trace)) ∧
    (remote.port = 587 → writtenBytes trace ≠ [] ∨ sentPayloads trace ≠ [] →
      GreetingGate .smtpGreeting (readBytes trace) (sentPayloads trace)) ∧
    (s.phase = .refused → writtenBytes trace = [] ∧ sentPayloads trace = []) := by
  have htouched : writtenBytes trace ≠ [] ∨ sentPayloads trace ≠ [] → ¬ Untouched trace := by
    rintro (hw | hs) hu
    · exact hw hu.1
    · exact hs hu.2
  refine ⟨?_, ?_, ?_, untouched_of_refused hprobe h⟩
  · intro hport hcross
    have hkind : probeForPort remote.port = some .tlsSni := by
      obtain hport | hport := hport <;> rw [hport] <;> rfl
    exact (TlsGated.of_runs hprobe hkind h).gate (htouched hcross)
  · intro hport hcross
    have hkind : probeForPort remote.port = some .imapGreeting := by rw [hport]; rfl
    exact (GreetingGated.of_runs hprobe hkind (by simp) h).gate (htouched hcross)
  · intro hport hcross
    have hkind : probeForPort remote.port = some .smtpGreeting := by rw [hport]; rfl
    exact (GreetingGated.of_runs hprobe hkind (by simp) h).gate (htouched hcross)

theorem probe_gate_imap :
    GreetingGate .imapGreeting (readBytes imapTrace) (sentPayloads imapTrace) :=
  (probe_gate {} imapRemote 0 imapTrace _ rfl imapTrace_runs).2.1 rfl (.inl (by decide))

end WsTcpProxy.Proofs
