import WsTcpProxy.Proofs.ByteStreams

/-!
# Messages to the client

The WebSocket messages that a session sends, with their boundaries and their order: what the probe
sends, then one message for every event of the relay that calls for one.
-/

namespace WsTcpProxy

def Effect.message : Effect → Option Message
  | .sent msg => some msg
  | _ => none

/-- The answer to a ping. -/
def Event.pongs : Event → List Message
  | .wsMessage (.ping p) _ => [.pong p]
  | _ => []

/-- What the relay sends the client for an event. -/
def Event.answers : Event → List Message
  | .wsTimeout => [.ping []]
  | .tcpRead data _ => [.binary data]
  | e => e.pongs

def sentMessages (trace : SessionTrace) : List Message :=
  trace.flatMap fun x => x.2.filterMap Effect.message

def pongsOwed (trace : SessionTrace) : List Message := trace.flatMap fun x => x.1.event.pongs

def answersOwed (trace : SessionTrace) : List Message := trace.flatMap fun x => x.1.event.answers

/-- The message that is about to be sent. -/
def Phase.message : Phase → List Message
  | .probePong _ p => [.pong p]
  | .flushGreeting greet => [.binary greet]
  | .sendWs msg => [msg]
  | _ => []

end WsTcpProxy

namespace WsTcpProxy.Proofs
open Library

/-- Pings are answered in order; an answer may be missing only where a send failed. -/
structure PongsSent (probe : SessionTrace) (sent : List Message) : Prop where
  sublist : sent.Sublist (pongsOwed probe)
  complete : (∀ x ∈ probe, ∀ delivered, x.1.event ≠ .sendFailed delivered) → sent = pongsOwed probe

/-- What a probe has sent when the relay starts: answers to pings, or the greeting in one message. -/
def Introduced (kind : Option ProbeKind) (probe : SessionTrace) : Prop :=
  match kind with
  | none => probe = []
  | some .tlsSni => PongsSent probe (sentMessages probe)
  | some _ => sentMessages probe = [.binary (readBytes probe)]

/-- What a probe has sent while it is under way, or when the session ends in it. -/
def Underway (kind : Option ProbeKind) (probe : SessionTrace) : Prop :=
  match kind with
  | none => False
  | some .tlsSni => (sentMessages probe).Sublist (pongsOwed probe)
  | some _ => sentMessages probe = [] ∨ sentMessages probe = [.binary (readBytes probe)]

def TlsProbing : Phase → Prop
  | .probeTls _ | .probePong _ _ | .flushTls _ => True
  | _ => False

def Relaying : Phase → Prop
  | .relay | .sendTcp _ | .sendWs _ => True
  | _ => False

section Traces

variable {trace : SessionTrace} {i : Input} {effects : List Effect}

lemma sentMessages_concat :
    sentMessages (trace ++ [(i, effects)]) = sentMessages trace ++ effects.filterMap Effect.message := by
  rw [sentMessages, List.flatMap_append]
  exact congrArg _ (List.append_nil _)

lemma pongsOwed_concat : pongsOwed (trace ++ [(i, effects)]) = pongsOwed trace ++ i.event.pongs := by
  rw [pongsOwed, List.flatMap_append]
  exact congrArg _ (List.append_nil _)

lemma answersOwed_concat :
    answersOwed (trace ++ [(i, effects)]) = answersOwed trace ++ i.event.answers := by
  rw [answersOwed, List.flatMap_append]
  exact congrArg _ (List.append_nil _)

end Traces

/-! ### The relay -/

section Relay

variable {cfg : Config} {remote : Remote} {s s' : Session} {e : Event} {effects : List Effect}

/-- A step of the relay stays in it or closes, and holds back at most one message. -/
structure RelayStep (s : Session) (e : Event) (effects : List Effect) (s' : Session) : Prop where
  phase : Relaying s'.phase ∨ s'.phase = .closed
  flows : Flows s.phase.message e.answers (effects.filterMap Effect.message) s'.phase.message
    (Ended s'.phase)

lemma RelayStep.closed (heffects : effects.filterMap Effect.message = []) (hs : s'.phase = .closed) :
    RelayStep s e effects s' := by
  refine ⟨.inr hs, .of_ended (.inr hs) ?_⟩
  rw [heffects]
  exact List.nil_prefix

lemma RelayStep.held {next : Phase} (hmessage : s.phase.message ++ e.answers = next.message)
    (hnext : Relaying next) : RelayStep s e [] { s with phase := next } :=
  ⟨.inl hnext, .of_kept hmessage⟩

lemma RelayStep.account {data : Bytes} {charge : Bool} {next : Phase}
    (hmessage : s.phase.message ++ e.answers = next.message) (hnext : Relaying next)
    (h : Connection.account cfg s data charge next = (effects, s')) : RelayStep s e effects s' := by
  unfold Connection.account at h
  dsimp only at h
  split at h
  · cases h
    exact .closed rfl rfl
  · split at h
    · cases h
      exact ⟨.inl hnext, .of_kept hmessage⟩
    · split at h
      · cases h
        exact ⟨.inl hnext, .of_kept hmessage⟩
      · cases h
        exact .closed rfl rfl

lemma relayStep_relay (hp : s.phase = .relay)
    (h : Connection.relayEvent cfg s e = some (effects, s')) : RelayStep s e effects s' := by
  have hmessage (next : Phase) (hanswers : e.answers = next.message) :
      s.phase.message ++ e.answers = next.message := by
    rw [hp, hanswers]
    rfl
  unfold Connection.relayEvent at h
  split at h
  · split at h
    · cases h
      exact .closed rfl rfl
    · cases h
  cases e with
  | wsMessage msg charge =>
    cases msg with
    | binary data => exact .account (hmessage (.sendTcp data) rfl) trivial (Option.some.inj h)
    | text t => exact .account (hmessage (.sendTcp (asBytes t)) rfl) trivial (Option.some.inj h)
    | ping p =>
      cases h
      exact .held (hmessage (.sendWs (.pong p)) rfl) trivial
    | pong p =>
      cases h
      exact .held (hmessage .relay rfl) trivial
    | close =>
      cases h
      exact .closed rfl rfl
  | wsTimeout =>
    cases h
    exact .held (hmessage (.sendWs (.ping [])) rfl) trivial
  | tcpRead data charge =>
    rw [Connection.relayArms] at h
    split at h
    · cases h
    · split at h
      · cases h
        exact .closed rfl rfl
      · exact .account (hmessage (.sendWs (.binary data)) rfl) trivial (Option.some.inj h)
  | wsError =>
    cases h
    exact .closed rfl rfl
  | wsEnd =>
    cases h
    exact .closed rfl rfl
  | tcpError =>
    cases h
    exact .closed rfl rfl
  | _ => cases h

lemma relayStep_sendTcp {rest : Bytes} (hp : s.phase = .sendTcp rest)
    (h : Connection.sendTcpEvent s rest e = some (effects, s')) : RelayStep s e effects s' := by
  cases e with
  | wrote n =>
    rw [Connection.sendTcpEvent] at h
    split at h
    · cases h
    · cases h
      refine ⟨.inl trivial, .of_kept ?_⟩
      rw [hp]
      rfl
  | writeDone =>
    rw [Connection.sendTcpEvent] at h
    split at h
    · cases h
      refine .held ?_ trivial
      rw [hp]
      rfl
    · cases h
  | writeFailed =>
    cases h
    exact .closed rfl rfl
  | _ => cases h

lemma relayStep_sendWs {msg : Message} (hp : s.phase = .sendWs msg)
    (h : Connection.sendWsEvent s msg e = some (effects, s')) : RelayStep s e effects s' := by
  cases e with
  | sendDone =>
    cases h
    refine ⟨.inl trivial, .of_kept ?_⟩
    rw [hp]
    rfl
  | sendFailed delivered =>
    cases h
    refine ⟨.inr rfl, .of_ended (.inr rfl) ?_⟩
    rw [hp]
    cases delivered
    · exact List.nil_prefix
    · exact List.prefix_refl _
  | _ => cases h

/-- In the relay, every event is answered by its own message, in order. -/
lemma relayStep_react (hphase : Relaying s.phase)
    (h : Connection.react cfg remote s e = some (effects, s')) : RelayStep s e effects s' := by
  unfold Connection.react at h
  split at h
  · rw [‹s.phase = _›] at hphase
    exact hphase.elim
  · rw [‹s.phase = _›] at hphase
    exact hphase.elim
  · rw [‹s.phase = _›] at hphase
    exact hphase.elim
  · rw [‹s.phase = _›] at hphase
    exact hphase.elim
  · rw [‹s.phase = _›] at hphase
    exact hphase.elim
  · exact relayStep_relay ‹_› h
  · exact relayStep_sendTcp ‹_› h
  · exact relayStep_sendWs ‹_› h
  · cases h
  · cases h

end Relay

/-! ### The probes -/

section Probes

variable {cfg : Config} {remote : Remote} {s s' : Session} {e : Event} {effects : List Effect}
  {kind : ProbeKind}

/-- A step of the TLS probe answers a ping at once, whatever becomes of the answer. -/
structure TlsStep (s : Session) (e : Event) (effects : List Effect) (s' : Session) : Prop where
  phase : TlsProbing s'.phase ∨ s'.phase = .relay ∨ Ended s'.phase
  sublist : (effects.filterMap Effect.message ++ s'.phase.message).Sublist (s.phase.message ++ e.pongs)
  complete : ¬ Ended s'.phase → (∀ delivered, e ≠ .sendFailed delivered) →
    effects.filterMap Effect.message ++ s'.phase.message = s.phase.message ++ e.pongs

lemma TlsStep.of_eq (hphase : TlsProbing s'.phase ∨ s'.phase = .relay ∨ Ended s'.phase)
    (h : effects.filterMap Effect.message ++ s'.phase.message = s.phase.message ++ e.pongs) :
    TlsStep s e effects s' :=
  ⟨hphase, h ▸ List.Sublist.refl _, fun _ _ => h⟩

lemma TlsStep.ended (hphase : Ended s'.phase) (h : effects.filterMap Effect.message = []) :
    TlsStep s e effects s' := by
  refine ⟨.inr (.inr hphase), ?_, fun hlive => absurd hphase hlive⟩
  obtain hp | hp := hphase <;> rw [h, hp] <;> exact List.nil_sublist _

lemma tlsStep_probeHello {hello hello' : Bytes} (hp : s.phase = .probeTls hello) (hpongs : e.pongs = [])
    (h : Connection.probeHello remote s hello' = (effects, s')) : TlsStep s e effects s' := by
  have hnone : s.phase.message ++ e.pongs = [] := by
    rw [hp, hpongs]
    rfl
  unfold Connection.probeHello at h
  split at h
  · cases h
    exact .of_eq (.inl trivial) hnone.symm
  · cases h
    exact .of_eq (.inl trivial) hnone.symm
  · cases h
    exact .ended (.inl rfl) rfl

lemma tlsStep_probeTls {hello : Bytes} (hp : s.phase = .probeTls hello)
    (h : Connection.probeTlsEvent remote s hello e = some (effects, s')) : TlsStep s e effects s' := by
  cases e with
  | wsMessage msg charge =>
    cases msg with
    | binary data => exact tlsStep_probeHello hp rfl (Option.some.inj h)
    | text t => exact tlsStep_probeHello hp rfl (Option.some.inj h)
    | ping p =>
      cases h
      refine .of_eq (.inl trivial) ?_
      rw [hp]
      rfl
    | pong p =>
      cases h
      refine .of_eq (.inl trivial) ?_
      rw [hp]
      rfl
    | close =>
      cases h
      exact .ended (.inl rfl) rfl
  | wsError =>
    cases h
    exact .ended (.inl rfl) rfl
  | wsEnd =>
    cases h
    exact .ended (.inl rfl) rfl
  | wsTimeout =>
    cases h
    exact .ended (.inl rfl) rfl
  | _ => cases h

lemma tlsStep_probePong {hello p : Bytes} (hp : s.phase = .probePong hello p)
    (h : Connection.probePongEvent s hello p e = some (effects, s')) : TlsStep s e effects s' := by
  cases e with
  | sendDone =>
    cases h
    refine .of_eq (.inl trivial) ?_
    rw [hp]
    rfl
  | sendFailed delivered =>
    cases h
    refine ⟨.inl trivial, ?_, fun _ hsent => absurd rfl (hsent delivered)⟩
    rw [hp]
    cases delivered
    · exact List.nil_sublist _
    · exact List.Sublist.refl _
  | _ => cases h

lemma tlsStep_flushTls {rest : Bytes} (hp : s.phase = .flushTls rest)
    (h : Connection.flushTlsEvent cfg s rest e = some (effects, s')) : TlsStep s e effects s' := by
  cases e with
  | wrote n =>
    rw [Connection.flushTlsEvent] at h
    split at h
    · cases h
    · cases h
      refine .of_eq (.inl trivial) ?_
      rw [hp]
      rfl
  | writeDone =>
    rw [Connection.flushTlsEvent] at h
    split at h
    · cases h
      refine .of_eq (.inr (.inl rfl)) ?_
      rw [hp]
      rfl
    · cases h
  | writeFailed =>
    cases h
    exact .ended (.inr rfl) rfl
  | _ => cases h

lemma tlsStep_react (hphase : TlsProbing s.phase)
    (h : Connection.react cfg remote s e = some (effects, s')) : TlsStep s e effects s' := by
  unfold Connection.react at h
  split at h
  · exact tlsStep_probeTls ‹_› h
  · exact tlsStep_probePong ‹_› h
  · exact tlsStep_flushTls ‹_› h
  all_goals
    rw [‹s.phase = _›] at hphase
    exact hphase.elim

/-- A step of a greeting probe keeps the greeting together, and sends nothing. -/
lemma greetingStep_probe {greet : Bytes} (hp : s.phase = .probeGreeting kind greet)
    (h : Connection.react cfg remote s e = some (effects, s')) :
    effects.filterMap Effect.message = [] ∧ (s'.phase = .probeGreeting kind (greet ++ e.read) ∨
      s'.phase = .flushGreeting (greet ++ e.read) ∨ Ended s'.phase) := by
  rw [Connection.react, hp] at h
  cases e with
  | tcpRead data charge =>
    dsimp only [Connection.probeGreetingEvent] at h
    split at h
    · cases h
    · split at h
      · cases h
        exact ⟨rfl, .inr (.inr (.inl rfl))⟩
      · have hgreet := Option.some.inj h
        unfold Connection.probeGreet at hgreet
        split at hgreet
        · cases hgreet
          exact ⟨rfl, .inl rfl⟩
        · cases hgreet
          exact ⟨rfl, .inr (.inl rfl)⟩
        · cases hgreet
          exact ⟨rfl, .inr (.inr (.inl rfl))⟩
  | tcpError =>
    cases h
    exact ⟨rfl, .inr (.inr (.inl rfl))⟩
  | tcpTimeout =>
    cases h
    exact ⟨rfl, .inr (.inr (.inl rfl))⟩
  | _ => cases h

lemma greetingStep_flush {greet : Bytes} (hp : s.phase = .flushGreeting greet)
    (h : Connection.react cfg remote s e = some (effects, s')) :
    e.read = [] ∧
      ((effects.filterMap Effect.message = [.binary greet] ∧ (s'.phase = .relay ∨ Ended s'.phase)) ∨
        (effects.filterMap Effect.message = [] ∧ Ended s'.phase)) := by
  rw [Connection.react, hp] at h
  cases e with
  | sendDone =>
    cases h
    exact ⟨rfl, .inl ⟨rfl, .inl rfl⟩⟩
  | sendFailed delivered =>
    cases h
    cases delivered
    · exact ⟨rfl, .inr ⟨rfl, .inr rfl⟩⟩
    · exact ⟨rfl, .inl ⟨rfl, .inr (.inr rfl)⟩⟩
  | _ => cases h

end Probes

/-! ### Sessions -/

/-- What the client has been told in a session of a probe of the given kind. -/
inductive Told (kind : Option ProbeKind) (trace : SessionTrace) (phase : Phase) : Prop
  | tls (hkind : kind = some .tlsSni) (hphase : TlsProbing phase)
      (hsent : PongsSent trace (sentMessages trace ++ phase.message))
  | greeting {k : ProbeKind} (hkind : kind = some k) (hk : k ≠ .tlsSni)
      (hphase : phase = .probeGreeting k (readBytes trace) ∨ phase = .flushGreeting (readBytes trace))
      (hsent : sentMessages trace = [])
  | relayed {probe relay : SessionTrace} (htrace : trace = probe ++ relay)
      (hprobe : Introduced kind probe) (hphase : Relaying phase ∨ phase = .closed)
      (hsent : Conveyed (answersOwed relay) (sentMessages relay) phase.message (Ended phase))
  | brokenOff (hphase : Ended phase) (hsent : Underway kind trace)

section Sessions

variable {cfg : Config} {remote : Remote} {trace : SessionTrace} {s s' : Session} {i : Input}
  {effects : List Effect} {kind : Option ProbeKind} {probe : SessionTrace}

lemma conveyed_nil : Conveyed (answersOwed []) (sentMessages []) Phase.relay.message (Ended .relay) :=
  .of_kept rfl

lemma TlsStep.owed_sublist (h : TlsStep s i.event effects s')
    (hsent : (sentMessages trace ++ s.phase.message).Sublist (pongsOwed trace)) :
    (sentMessages (trace ++ [(i, effects)]) ++ s'.phase.message).Sublist
      (pongsOwed (trace ++ [(i, effects)])) := by
  rw [sentMessages_concat, pongsOwed_concat, List.append_assoc]
  refine (h.sublist.append_left _).trans ?_
  rw [← List.append_assoc]
  exact hsent.append_right _

lemma TlsStep.owed (h : TlsStep s i.event effects s') (hlive : ¬ Ended s'.phase)
    (hsent : PongsSent trace (sentMessages trace ++ s.phase.message)) :
    PongsSent (trace ++ [(i, effects)])
      (sentMessages (trace ++ [(i, effects)]) ++ s'.phase.message) := by
  refine ⟨h.owed_sublist hsent.sublist, ?_⟩
  intro hnone
  have hbefore := hsent.complete fun x hx => hnone x (List.mem_append_left _ hx)
  have hnow := h.complete hlive (hnone (i, effects) (List.mem_append_right _ List.mem_cons_self))
  rw [sentMessages_concat, pongsOwed_concat, List.append_assoc, hnow, ← List.append_assoc, hbefore]

lemma Told.step_tls (hkind : kind = some .tlsSni) (h : TlsStep s i.event effects s')
    (hsent : PongsSent trace (sentMessages trace ++ s.phase.message)) :
    Told kind (trace ++ [(i, effects)]) s'.phase := by
  subst hkind
  obtain hphase | hphase | hphase := h.phase
  · refine .tls rfl hphase (h.owed ?_ hsent)
    rintro (hp | hp) <;> rw [hp] at hphase <;> exact hphase
  · have howed := h.owed (by rw [hphase]; rintro (hp | hp) <;> cases hp) hsent
    have hmessage : Phase.relay.message = [] := rfl
    rw [hphase, hmessage, List.append_nil] at howed
    rw [hphase]
    exact .relayed (List.append_nil _).symm howed (.inl trivial) conveyed_nil
  · exact .brokenOff hphase ((List.sublist_append_left _ _).trans (h.owed_sublist hsent.sublist))

lemma introduced_of_greeting {k : ProbeKind} (hkind : kind = some k) (hk : k ≠ .tlsSni)
    (h : sentMessages probe = [.binary (readBytes probe)]) : Introduced kind probe := by
  subst hkind
  cases k with
  | tlsSni => exact absurd rfl hk
  | imapGreeting => exact h
  | smtpGreeting => exact h

lemma underway_of_greeting {k : ProbeKind} (hkind : kind = some k) (hk : k ≠ .tlsSni)
    (h : sentMessages probe = [] ∨ sentMessages probe = [.binary (readBytes probe)]) :
    Underway kind probe := by
  subst hkind
  cases k with
  | tlsSni => exact absurd rfl hk
  | imapGreeting => exact h
  | smtpGreeting => exact h

lemma Told.step_greeting {k : ProbeKind} (hkind : kind = some k) (hk : k ≠ .tlsSni)
    (hphase : s.phase = .probeGreeting k (readBytes trace) ∨ s.phase = .flushGreeting (readBytes trace))
    (hsent : sentMessages trace = [])
    (h : Connection.react cfg remote s i.event = some (effects, s')) :
    Told kind (trace ++ [(i, effects)]) s'.phase := by
  have hsent' : sentMessages (trace ++ [(i, effects)]) = effects.filterMap Effect.message := by
    rw [sentMessages_concat, hsent, List.nil_append]
  obtain hp | hp := hphase
  · obtain ⟨hnone, hs⟩ := greetingStep_probe hp h
    rw [hnone] at hsent'
    rw [← readBytes_concat trace i effects] at hs
    obtain hs | hs | hs := hs
    · exact .greeting hkind hk (.inl hs) hsent'
    · exact .greeting hkind hk (.inr hs) hsent'
    · exact .brokenOff hs (underway_of_greeting hkind hk (.inl hsent'))
  · obtain ⟨hread, hcases⟩ := greetingStep_flush hp h
    have hkept : readBytes (trace ++ [(i, effects)]) = readBytes trace := by
      rw [readBytes_concat, hread, List.append_nil]
    obtain ⟨hgreet, hs | hs⟩ | ⟨hnone, hs⟩ := hcases
    · rw [hgreet, ← hkept] at hsent'
      rw [hs]
      exact .relayed (List.append_nil _).symm (introduced_of_greeting hkind hk hsent') (.inl trivial)
        conveyed_nil
    · rw [hgreet, ← hkept] at hsent'
      exact .brokenOff hs (underway_of_greeting hkind hk (.inr hsent'))
    · rw [hnone] at hsent'
      exact .brokenOff hs (underway_of_greeting hkind hk (.inl hsent'))

lemma Told.step (h : Told kind trace s.phase)
    (hstep : Connection.step cfg remote s i = some (effects, s')) :
    Told kind (trace ++ [(i, effects)]) s'.phase := by
  have hlive := not_ended_of_step (step_cases hstep)
  unfold Connection.step at hstep
  split at hstep
  · cases hstep
  cases h with
  | tls hkind hphase hsent =>
    have htls : TlsStep { s with clock := i.time } i.event effects s' := tlsStep_react hphase hstep
    exact .step_tls (s := { s with clock := i.time }) hkind htls hsent
  | greeting hkind hk hphase hsent =>
    exact .step_greeting (s := { s with clock := i.time }) hkind hk hphase hsent hstep
  | @relayed probe relay htrace hprobe hphase hsent =>
    have hrelaying : Relaying s.phase := by
      obtain hphase | hphase := hphase
      · exact hphase
      · exact absurd (.inr hphase) hlive
    have hrelay : RelayStep { s with clock := i.time } i.event effects s' :=
      relayStep_react hrelaying hstep
    have htrace' : trace ++ [(i, effects)] = probe ++ (relay ++ [(i, effects)]) := by
      rw [htrace, List.append_assoc]
    refine .relayed htrace' hprobe hrelay.phase ?_
    rw [answersOwed_concat, sentMessages_concat]
    exact hsent.step hlive hrelay.flows
  | brokenOff hphase hsent => exact absurd hphase hlive

lemma Told.start (cfg : Config) (remote : Remote) (now : Instant) :
    Told (Connection.probed cfg remote) [] (Connection.start cfg remote now).phase := by
  have hprobed : Connection.probed cfg remote =
      if cfg.requireProtocolProbe then probeForPort remote.port else none := rfl
  unfold Connection.start
  rw [← hprobed]
  dsimp only
  split
  · exact .tls ‹_› trivial ⟨List.Sublist.refl _, fun _ => rfl⟩
  · rename_i k hk hkind
    exact .greeting hkind hk (.inl rfl) rfl
  · rename_i hnone
    refine .relayed (List.append_nil []).symm ?_ (.inl trivial) conveyed_nil
    rw [hnone]
    rfl

lemma Told.of_runs {now : Instant} (h : SessionRuns cfg remote now trace s) :
    Told (Connection.probed cfg remote) trace s.phase :=
  h.invariant (P := fun trace s => Told (Connection.probed cfg remote) trace s.phase)
    (Told.start cfg remote now) fun _ _ _ _ _ htold hstep => htold.step hstep

/-- A session is still in its probe, or ended there, or its relay has started. -/
lemma Told.underway_or_relayed {phase : Phase} (h : Told kind trace phase) :
    (Underway kind trace ∧ phase ≠ .relay) ∨
      ∃ probe relay, trace = probe ++ relay ∧ Introduced kind probe ∧
        Conveyed (answersOwed relay) (sentMessages relay) phase.message (Ended phase) := by
  cases h with
  | tls hkind hphase hsent =>
    subst hkind
    refine .inl ⟨(List.sublist_append_left _ _).trans hsent.sublist, ?_⟩
    rintro rfl
    exact hphase
  | greeting hkind hk hphase hsent =>
    refine .inl ⟨underway_of_greeting hkind hk (.inl hsent), ?_⟩
    obtain rfl | rfl := hphase <;> exact Phase.noConfusion
  | relayed htrace hprobe _ hsent => exact .inr ⟨_, _, htrace, hprobe, hsent⟩
  | brokenOff hphase hsent =>
    refine .inl ⟨hsent, ?_⟩
    obtain rfl | rfl := hphase <;> exact Phase.noConfusion

end Sessions

/-- Every session is a probe followed by a relay, and what the client is sent is, in this order, what
the probe says and one message for each event of the relay that calls for one: a read of the upstream
in one binary message, a pong for a ping, a ping for a time of idleness. None is missing at the head
of the relay. -/
theorem client_messages (cfg : Config) (remote : Remote) (now : Instant) (trace : SessionTrace)
    (s : Session) (h : SessionRuns cfg remote now trace s) :
    ∃ probe relay, trace = probe ++ relay ∧
      (Introduced (Connection.probed cfg remote) probe ∨
        (Underway (Connection.probed cfg remote) probe ∧ relay = [])) ∧
      sentMessages relay <+: answersOwed relay ∧
      (s.phase = .relay → Introduced (Connection.probed cfg remote) probe ∧
        sentMessages relay = answersOwed relay) := by
  obtain ⟨hsent, hnot⟩ | ⟨probe, relay, htrace, hprobe, hsent⟩ := (Told.of_runs h).underway_or_relayed
  · exact ⟨trace, [], (List.append_nil trace).symm, .inr ⟨hsent, rfl⟩, List.prefix_refl _,
      fun hrelay => absurd hrelay hnot⟩
  · refine ⟨probe, relay, htrace, .inl hprobe, hsent.initial, ?_⟩
    intro hrelay
    refine ⟨hprobe, ?_⟩
    have hkept := hsent.kept (by rw [hrelay]; rintro (hp | hp) <;> cases hp)
    rw [hrelay] at hkept
    exact (hkept.trans (List.append_nil _)).symm

theorem client_messages_imap :
    ∃ probe relay, imapTrace = probe ++ relay ∧
      sentMessages probe = [.binary (readBytes probe)] ∧ sentMessages relay = answersOwed relay := by
  obtain ⟨probe, relay, htrace, -, -, hrelay⟩ :=
    client_messages {} imapRemote 0 imapTrace _ imapTrace_runs
  obtain ⟨hprobe, hsent⟩ := hrelay rfl
  exact ⟨probe, relay, htrace, hprobe, hsent⟩

end WsTcpProxy.Proofs
