import WsTcpProxy.Connection

/-!
# Steps of a session

Everything a step of `Connection::run` can do, and what the trace records of it.
-/

namespace WsTcpProxy.Proofs
open Library

/-- Effects that move and charge no payload. -/
def QuietEffects (effects : List Effect) : Prop :=
  effects.flatMap Effect.written = [] ∧ effects.filterMap Effect.payload = [] ∧
    (effects.map Effect.charge).sum = 0

/-- Everything that an event can do in each phase. -/
inductive SessionStep (cfg : Config) (remote : Remote) (s : Session) :
    Event → List Effect → Session → Prop
  | helloData {hello data : Bytes} {msg : Message} {charge : Bool} (hp : s.phase = .probeTls hello)
      {effects : List Effect} {s' : Session} (hd : msg.data = some data)
      (hx : Connection.probeHello remote s (hello ++ data) = (effects, s')) :
      SessionStep cfg remote s (.wsMessage msg charge) effects s'
  | helloControl {hello : Bytes} {phase : Phase} {e : Event} (hp : s.phase = .probeTls hello)
      (he : e.received = []) (hr : e.read = [])
      (hphase : phase = .probeTls hello ∨ ∃ p, phase = .probePong hello p) :
      SessionStep cfg remote s e [] { s with phase := phase }
  | helloRefused {hello : Bytes} {e : Event} (hp : s.phase = .probeTls hello)
      (he : e.received = []) (hr : e.read = []) :
      SessionStep cfg remote s e [.rejected .proto] { s with phase := .refused }
  | helloPonged {hello p : Bytes} {e : Event} {effects : List Effect}
      (hp : s.phase = .probePong hello p) (he : e.received = []) (hr : e.read = [])
      (hq : QuietEffects effects) :
      SessionStep cfg remote s e effects { s with phase := .probeTls hello }
  | helloWrote {rest : Bytes} {n : Nat} (hp : s.phase = .flushTls rest) (hn : n ≤ rest.length) :
      SessionStep cfg remote s (.wrote n) [.wrote (rest.take n)]
        { s with phase := .flushTls (rest.drop n) }
  | helloFlushed (hp : s.phase = .flushTls []) :
      SessionStep cfg remote s .writeDone [] (Connection.enterRelay cfg s)
  | helloFailed {rest : Bytes} (hp : s.phase = .flushTls rest) :
      SessionStep cfg remote s .writeFailed [.rejected .proto] { s with phase := .closed }
  | greetRead {kind : ProbeKind} {greet data : Bytes} {charge : Bool} {effects : List Effect}
      {s' : Session} (hp : s.phase = .probeGreeting kind greet)
      (hx : Connection.probeGreet s kind (greet ++ data) = (effects, s')) :
      SessionStep cfg remote s (.tcpRead data charge) effects s'
  | greetRefused {kind : ProbeKind} {greet : Bytes} {e : Event}
      (hp : s.phase = .probeGreeting kind greet) (he : e.received = []) (hr : e.read = []) :
      SessionStep cfg remote s e [.rejected .proto] { s with phase := .refused }
  | greetSent {greet : Bytes} (hp : s.phase = .flushGreeting greet) :
      SessionStep cfg remote s .sendDone [.sent (.binary greet)] (Connection.enterRelay cfg s)
  | greetFailed {greet : Bytes} {delivered : Bool} (hp : s.phase = .flushGreeting greet) :
      SessionStep cfg remote s (.sendFailed delivered)
        ((if delivered then [.sent (.binary greet)] else []) ++ [.rejected .proto])
        { s with phase := .closed }
  | relayUp {data : Bytes} {msg : Message} {charge : Bool} {effects : List Effect} {s' : Session}
      (hp : s.phase = .relay) (hd : msg.data = some data)
      (hx : Connection.account cfg s data charge (.sendTcp data) = (effects, s')) :
      SessionStep cfg remote s (.wsMessage msg charge) effects s'
  | relayDown {data : Bytes} {charge : Bool} {effects : List Effect} {s' : Session}
      (hp : s.phase = .relay)
      (hx : Connection.account cfg s data charge (.sendWs (.binary data)) = (effects, s')) :
      SessionStep cfg remote s (.tcpRead data charge) effects s'
  | relayControl {phase : Phase} {e : Event} (hp : s.phase = .relay) (he : e.received = [])
      (hr : e.read = [])
      (hphase : phase = .relay ∨ (∃ p, phase = .sendWs (.ping p)) ∨ ∃ p, phase = .sendWs (.pong p)) :
      SessionStep cfg remote s e [] { s with phase := phase }
  | relayClosed {e : Event} {effects : List Effect} (hp : s.phase = .relay) (he : e.received = [])
      (hr : e.read = []) (hq : QuietEffects effects) :
      SessionStep cfg remote s e effects { s with phase := .closed }
  | dataWrote {rest : Bytes} {n : Nat} (hp : s.phase = .sendTcp rest) (hn : n ≤ rest.length) :
      SessionStep cfg remote s (.wrote n) [.wrote (rest.take n)]
        { s with phase := .sendTcp (rest.drop n) }
  | dataDone (hp : s.phase = .sendTcp []) :
      SessionStep cfg remote s .writeDone [] { s with phase := .relay }
  | dataFailed {rest : Bytes} (hp : s.phase = .sendTcp rest) :
      SessionStep cfg remote s .writeFailed [] { s with phase := .closed }
  | messageSent {msg : Message} (hp : s.phase = .sendWs msg) :
      SessionStep cfg remote s .sendDone [.sent msg] { s with phase := .relay }
  | messageFailed {msg : Message} {delivered : Bool} (hp : s.phase = .sendWs msg) :
      SessionStep cfg remote s (.sendFailed delivered) (if delivered then [.sent msg] else [])
        { s with phase := .closed }

section Cases

variable {cfg : Config} {remote : Remote} {s s' : Session} {e : Event} {effects : List Effect}

lemma quiet_nil : QuietEffects [] := ⟨rfl, rfl, rfl⟩

lemma quiet_rejected (reason : RejectReason) : QuietEffects [.rejected reason] := ⟨rfl, rfl, rfl⟩

lemma quiet_pong (p : Bytes) (delivered : Bool) :
    QuietEffects (if delivered then [.sent (.pong p)] else []) := by
  cases delivered <;> exact ⟨rfl, rfl, rfl⟩

lemma probeTls_cases {hello : Bytes} (hp : s.phase = .probeTls hello)
    (h : Connection.probeTlsEvent remote s hello e = some (effects, s')) :
    SessionStep cfg remote s e effects s' := by
  cases e with
  | wsMessage msg charge =>
    cases msg with
    | binary data => exact .helloData hp rfl (Option.some.inj h)
    | text t => exact .helloData hp rfl (Option.some.inj h)
    | ping p =>
      cases h
      exact .helloControl hp rfl rfl (.inr ⟨p, rfl⟩)
    | pong p =>
      cases h
      exact .helloControl hp rfl rfl (.inl rfl)
    | close =>
      cases h
      exact .helloRefused hp rfl rfl
  | wsError =>
    cases h
    exact .helloRefused hp rfl rfl
  | wsEnd =>
    cases h
    exact .helloRefused hp rfl rfl
  | wsTimeout =>
    cases h
    exact .helloRefused hp rfl rfl
  | _ => cases h

lemma relayArms_cases (hp : s.phase = .relay)
    (h : Connection.relayArms cfg s e = some (effects, s')) :
    SessionStep cfg remote s e effects s' := by
  cases e with
  | wsMessage msg charge =>
    cases msg with
    | binary data => exact .relayUp hp rfl (Option.some.inj h)
    | text t => exact .relayUp hp rfl (Option.some.inj h)
    | ping p =>
      cases h
      exact .relayControl hp rfl rfl (.inr (.inr ⟨p, rfl⟩))
    | pong p =>
      cases h
      exact .relayControl hp rfl rfl (.inl rfl)
    | close =>
      cases h
      exact .relayClosed hp rfl rfl quiet_nil
  | wsTimeout =>
    cases h
    exact .relayControl hp rfl rfl (.inr (.inl ⟨[], rfl⟩))
  | tcpRead data charge =>
    rw [Connection.relayArms] at h
    split at h
    · cases h
    · split at h
      · rename_i hdata
        cases h
        exact .relayClosed hp rfl hdata quiet_nil
      · exact .relayDown hp (Option.some.inj h)
  | wsError =>
    cases h
    exact .relayClosed hp rfl rfl quiet_nil
  | wsEnd =>
    cases h
    exact .relayClosed hp rfl rfl quiet_nil
  | tcpError =>
    cases h
    exact .relayClosed hp rfl rfl quiet_nil
  | _ => cases h

/-- Once the deadline has passed, the head of the loop only ends the session. -/
lemma relay_cases (hp : s.phase = .relay)
    (h : Connection.relayEvent cfg s e = some (effects, s')) :
    SessionStep cfg remote s e effects s' := by
  unfold Connection.relayEvent at h
  split at h
  · split at h
    · rename_i he
      cases h
      subst he
      exact .relayClosed hp rfl rfl (quiet_rejected .lifetime)
    · cases h
  · exact relayArms_cases hp h

lemma flushTls_cases {rest : Bytes} (hp : s.phase = .flushTls rest)
    (h : Connection.flushTlsEvent cfg s rest e = some (effects, s')) :
    SessionStep cfg remote s e effects s' := by
  cases e with
  | wrote n =>
    rw [Connection.flushTlsEvent] at h
    split at h
    · cases h
    · cases h
      exact .helloWrote hp (by omega)
  | writeDone =>
    rw [Connection.flushTlsEvent] at h
    split at h
    · rename_i hrest
      cases h
      exact .helloFlushed (hrest ▸ hp)
    · cases h
  | writeFailed =>
    cases h
    exact .helloFailed hp
  | _ => cases h

lemma probeGreeting_cases {kind : ProbeKind} {greet : Bytes}
    (hp : s.phase = .probeGreeting kind greet)
    (h : Connection.probeGreetingEvent s kind greet e = some (effects, s')) :
    SessionStep cfg remote s e effects s' := by
  cases e with
  | tcpRead data charge =>
    rw [Connection.probeGreetingEvent] at h
    split at h
    · cases h
    · split at h
      · rename_i hdata
        cases h
        exact .greetRefused hp rfl hdata
      · exact .greetRead hp (Option.some.inj h)
  | tcpError =>
    cases h
    exact .greetRefused hp rfl rfl
  | tcpTimeout =>
    cases h
    exact .greetRefused hp rfl rfl
  | _ => cases h

lemma sendTcp_cases {rest : Bytes} (hp : s.phase = .sendTcp rest)
    (h : Connection.sendTcpEvent s rest e = some (effects, s')) :
    SessionStep cfg remote s e effects s' := by
  cases e with
  | wrote n =>
    rw [Connection.sendTcpEvent] at h
    split at h
    · cases h
    · cases h
      exact .dataWrote hp (by omega)
  | writeDone =>
    rw [Connection.sendTcpEvent] at h
    split at h
    · rename_i hrest
      cases h
      exact .dataDone (hrest ▸ hp)
    · cases h
  | writeFailed =>
    cases h
    exact .dataFailed hp
  | _ => cases h

/-- Every step has one of these forms: the cases are the phases. -/
theorem react_cases (h : Connection.react cfg remote s e = some (effects, s')) :
    SessionStep cfg remote s e effects s' := by
  unfold Connection.react at h
  split at h
  · exact probeTls_cases ‹_› h
  · rename_i hello p hp
    cases e with
    | sendDone =>
      cases h
      exact .helloPonged hp rfl rfl (quiet_pong p true)
    | sendFailed delivered =>
      cases h
      exact .helloPonged hp rfl rfl (quiet_pong p delivered)
    | _ => cases h
  · exact flushTls_cases ‹_› h
  · exact probeGreeting_cases ‹_› h
  · rename_i greet hp
    cases e with
    | sendDone =>
      cases h
      exact .greetSent hp
    | sendFailed delivered =>
      cases h
      exact .greetFailed hp
    | _ => cases h
  · exact relay_cases ‹_› h
  · exact sendTcp_cases ‹_› h
  · rename_i msg hp
    cases e with
    | sendDone =>
      cases h
      exact .messageSent hp
    | sendFailed delivered =>
      cases h
      exact .messageFailed hp
    | _ => cases h
  · cases h
  · cases h

lemma step_cases {i : Input} (h : Connection.step cfg remote s i = some (effects, s')) :
    SessionStep cfg remote { s with clock := i.time } i.event effects s' := by
  unfold Connection.step at h
  split at h
  · cases h
  · exact react_cases h

end Cases

/-! ### Accounting and verdicts -/

section Specs

variable {cfg : Config} {remote : Remote} {s s' : Session} {effects : List Effect}

/-- Counted data goes on to be sent, charged in full, or the session closes. -/
lemma account_spec {data : Bytes} {charge : Bool} {next : Phase}
    (h : Connection.account cfg s data charge next = (effects, s')) :
    (s'.phase = .closed ∧ QuietEffects effects) ∨
    (s' = { s with phase := next, connBytes := saturatingAdd s.connBytes data.length } ∧
      Connection.overConnBytes cfg (saturatingAdd s.connBytes data.length) = false ∧
      effects.flatMap Effect.written = [] ∧ effects.filterMap Effect.payload = [] ∧
      (effects.map Effect.charge).sum = data.length) := by
  unfold Connection.account at h
  dsimp only at h
  split at h
  · cases h
    exact .inl ⟨rfl, quiet_rejected _⟩
  · rename_i hover
    have hover' := Bool.not_eq_true _ ▸ hover
    split at h
    · rename_i hlen
      cases h
      exact .inr ⟨rfl, hover', rfl, rfl, hlen.symm⟩
    · split at h
      · cases h
        exact .inr ⟨rfl, hover', rfl, rfl, rfl⟩
      · cases h
        exact .inl ⟨rfl, quiet_rejected _⟩

/-- The verdict on a hello moves nothing; an acceptance leaves all of it to be flushed. -/
lemma probeHello_spec {hello : Bytes}
    (h : Connection.probeHello remote s hello = (effects, s')) :
    QuietEffects effects ∧
      ((s'.phase = .probeTls hello ∧ tlsProbeStep remote hello = .more) ∨
       (s'.phase = .flushTls hello ∧ tlsProbeStep remote hello = .accepted) ∨
       s'.phase = .refused) := by
  unfold Connection.probeHello at h
  split at h
  · cases h
    exact ⟨quiet_nil, .inl ⟨rfl, ‹_›⟩⟩
  · cases h
    exact ⟨quiet_nil, .inr (.inl ⟨rfl, ‹_›⟩)⟩
  · cases h
    exact ⟨quiet_rejected _, .inr (.inr rfl)⟩

lemma probeGreet_spec {kind : ProbeKind} {greet : Bytes}
    (h : Connection.probeGreet s kind greet = (effects, s')) :
    QuietEffects effects ∧
      ((s'.phase = .probeGreeting kind greet ∧ greetingProbeStep kind greet = .more) ∨
       (s'.phase = .flushGreeting greet ∧ greetingProbeStep kind greet = .accepted) ∨
       s'.phase = .refused) := by
  unfold Connection.probeGreet at h
  split at h
  · cases h
    exact ⟨quiet_nil, .inl ⟨rfl, ‹_›⟩⟩
  · cases h
    exact ⟨quiet_nil, .inr (.inl ⟨rfl, ‹_›⟩)⟩
  · cases h
    exact ⟨quiet_rejected _, .inr (.inr rfl)⟩

/-- What arrives with a data message is its payload. -/
lemma received_of_data {msg : Message} {data : Bytes} {charge : Bool} (h : msg.data = some data) :
    (Event.wsMessage msg charge).received = data := by
  rw [Event.received, h]
  rfl

end Specs

/-! ### The trace after one more step -/

section Trace

variable (trace : SessionTrace) (i : Input) (effects : List Effect)

lemma receivedBytes_concat :
    receivedBytes (trace ++ [(i, effects)]) = receivedBytes trace ++ i.event.received := by
  simp [receivedBytes]

lemma readBytes_concat :
    readBytes (trace ++ [(i, effects)]) = readBytes trace ++ i.event.read := by
  simp [readBytes]

lemma writtenBytes_concat :
    writtenBytes (trace ++ [(i, effects)]) =
      writtenBytes trace ++ effects.flatMap Effect.written := by
  simp [writtenBytes]

lemma sentPayloads_concat :
    sentPayloads (trace ++ [(i, effects)]) =
      sentPayloads trace ++ effects.filterMap Effect.payload := by
  simp [sentPayloads]

lemma chargedBytes_concat :
    chargedBytes (trace ++ [(i, effects)]) =
      chargedBytes trace + (effects.map Effect.charge).sum := by
  simp [chargedBytes]

end Trace

end WsTcpProxy.Proofs
