import WsTcpProxy.Library.Flow
import WsTcpProxy.Proofs.SessionSteps

/-!
# Byte streams

In each direction, what has gone out followed by what is held is what has come in, through the
probe, the hand-over to the relay and every turn of its loop.
-/

namespace WsTcpProxy.Proofs
open Library

/-- Client bytes that are held for the upstream. -/
def pendingUp : Phase → Bytes
  | .probeTls hello => hello
  | .probePong hello _ => hello
  | .flushTls rest => rest
  | .sendTcp rest => rest
  | _ => []

/-- Upstream bytes that are held for the client. -/
def pendingDown : Phase → Bytes
  | .probeGreeting _ greet => greet
  | .flushGreeting greet => greet
  | .sendWs (.binary data) => data
  | _ => []

def Ended (phase : Phase) : Prop := phase = .refused ∨ phase = .closed

section Steps

variable {cfg : Config} {remote : Remote} {s s' : Session} {e : Event} {effects : List Effect}

lemma step_flows_up (h : SessionStep cfg remote s e effects s') :
    Flows (pendingUp s.phase) e.received (effects.flatMap Effect.written) (pendingUp s'.phase)
      (Ended s'.phase) := by
  cases h with
  | helloData hp hd hx =>
    obtain ⟨⟨hw, -, -⟩, hcases⟩ := probeHello_spec hx
    rw [hp, hw, received_of_data hd]
    obtain ⟨hs, -⟩ | ⟨hs, -⟩ | hs := hcases
    · rw [hs]
      exact .of_kept rfl
    · rw [hs]
      exact .of_kept rfl
    · exact .of_ended (.inl hs) List.nil_prefix
  | helloControl hp he hr hphase =>
    rw [hp, he]
    obtain rfl | ⟨p, rfl⟩ := hphase
    · exact .of_kept (List.append_nil _)
    · exact .of_kept (List.append_nil _)
  | helloRefused hp he hr => exact .of_ended (.inl rfl) List.nil_prefix
  | helloPonged hp he hr hq =>
    rw [hp, he, hq.1]
    exact .of_kept (List.append_nil _)
  | helloWrote hp hn =>
    rw [hp]
    apply Flows.of_kept
    simp [pendingUp, Event.received, Effect.written]
  | helloFlushed hp =>
    rw [hp]
    exact .of_kept rfl
  | helloFailed hp => exact .of_ended (.inr rfl) List.nil_prefix
  | greetRead hp hx =>
    obtain ⟨⟨hw, -, -⟩, hcases⟩ := probeGreet_spec hx
    rw [hp, hw]
    obtain ⟨hs, -⟩ | ⟨hs, -⟩ | hs := hcases
    · rw [hs]
      exact .of_kept rfl
    · rw [hs]
      exact .of_kept rfl
    · exact .of_ended (.inl hs) List.nil_prefix
  | greetRefused hp he hr => exact .of_ended (.inl rfl) List.nil_prefix
  | greetSent hp =>
    rw [hp]
    exact .of_kept rfl
  | @greetFailed greet delivered hp =>
    apply Flows.of_ended (.inr rfl)
    cases delivered <;> exact List.nil_prefix
  | relayUp hp hd hx =>
    rw [hp, received_of_data hd]
    obtain ⟨hs, hw, -, -⟩ | ⟨rfl, -, hw, -, -⟩ := account_spec hx
    · rw [hw]
      exact .of_ended (.inr hs) List.nil_prefix
    · rw [hw]
      exact .of_kept rfl
  | relayDown hp hx =>
    rw [hp]
    obtain ⟨hs, hw, -, -⟩ | ⟨rfl, -, hw, -, -⟩ := account_spec hx
    · rw [hw]
      exact .of_ended (.inr hs) List.nil_prefix
    · rw [hw]
      exact .of_kept rfl
  | relayControl hp he hr hphase =>
    rw [hp, he]
    obtain rfl | ⟨p, rfl⟩ | ⟨p, rfl⟩ := hphase
    · exact .of_kept rfl
    · exact .of_kept rfl
    · exact .of_kept rfl
  | relayClosed hp he hr hq =>
    rw [hq.1]
    exact .of_ended (.inr rfl) List.nil_prefix
  | dataWrote hp hn =>
    rw [hp]
    apply Flows.of_kept
    simp [pendingUp, Event.received, Effect.written]
  | dataDone hp =>
    rw [hp]
    exact .of_kept rfl
  | dataFailed hp => exact .of_ended (.inr rfl) List.nil_prefix
  | messageSent hp =>
    rw [hp]
    exact .of_kept rfl
  | @messageFailed msg delivered hp =>
    apply Flows.of_ended (.inr rfl)
    cases delivered <;> exact List.nil_prefix

lemma step_flows_down (h : SessionStep cfg remote s e effects s') :
    Flows (pendingDown s.phase) e.read (effects.filterMap Effect.payload).flatten
      (pendingDown s'.phase) (Ended s'.phase) := by
  cases h with
  | helloData hp hd hx =>
    obtain ⟨⟨-, hw, -⟩, hcases⟩ := probeHello_spec hx
    rw [hp, hw]
    obtain ⟨hs, -⟩ | ⟨hs, -⟩ | hs := hcases
    · rw [hs]
      exact .of_kept rfl
    · rw [hs]
      exact .of_kept rfl
    · exact .of_ended (.inl hs) List.nil_prefix
  | helloControl hp he hr hphase =>
    rw [hp, hr]
    obtain rfl | ⟨p, rfl⟩ := hphase
    · exact .of_kept rfl
    · exact .of_kept rfl
  | helloRefused hp he hr => exact .of_ended (.inl rfl) List.nil_prefix
  | helloPonged hp he hr hq =>
    rw [hp, hr, hq.2.1]
    exact .of_kept rfl
  | helloWrote hp hn =>
    rw [hp]
    exact .of_kept rfl
  | helloFlushed hp =>
    rw [hp]
    exact .of_kept rfl
  | helloFailed hp => exact .of_ended (.inr rfl) List.nil_prefix
  | greetRead hp hx =>
    obtain ⟨⟨-, hw, -⟩, hcases⟩ := probeGreet_spec hx
    rw [hp, hw]
    obtain ⟨hs, -⟩ | ⟨hs, -⟩ | hs := hcases
    · rw [hs]
      exact .of_kept rfl
    · rw [hs]
      exact .of_kept rfl
    · exact .of_ended (.inl hs) List.nil_prefix
  | greetRefused hp he hr => exact .of_ended (.inl rfl) List.nil_prefix
  | greetSent hp =>
    rw [hp]
    apply Flows.of_kept
    simp [pendingDown, Connection.enterRelay, Event.read, Effect.payload]
  | @greetFailed greet delivered hp =>
    rw [hp]
    apply Flows.of_ended (.inr rfl)
    cases delivered with
    | false => exact List.nil_prefix
    | true =>
      change [greet].flatten <+: greet ++ []
      simp
  | relayUp hp hd hx =>
    rw [hp]
    obtain ⟨hs, -, hw, -⟩ | ⟨rfl, -, -, hw, -⟩ := account_spec hx
    · rw [hw]
      exact .of_ended (.inr hs) List.nil_prefix
    · rw [hw]
      exact .of_kept rfl
  | relayDown hp hx =>
    rw [hp]
    obtain ⟨hs, -, hw, -⟩ | ⟨rfl, -, -, hw, -⟩ := account_spec hx
    · rw [hw]
      exact .of_ended (.inr hs) List.nil_prefix
    · rw [hw]
      exact .of_kept rfl
  | relayControl hp he hr hphase =>
    rw [hp, hr]
    obtain rfl | ⟨p, rfl⟩ | ⟨p, rfl⟩ := hphase
    · exact .of_kept rfl
    · exact .of_kept rfl
    · exact .of_kept rfl
  | relayClosed hp he hr hq =>
    rw [hq.2.1]
    exact .of_ended (.inr rfl) List.nil_prefix
  | dataWrote hp hn =>
    rw [hp]
    exact .of_kept rfl
  | dataDone hp =>
    rw [hp]
    exact .of_kept rfl
  | dataFailed hp => exact .of_ended (.inr rfl) List.nil_prefix
  | @messageSent msg hp =>
    rw [hp]
    apply Flows.of_kept
    cases msg <;> simp [pendingDown, Event.read, Effect.payload]
  | @messageFailed msg delivered hp =>
    rw [hp]
    apply Flows.of_ended (.inr rfl)
    cases delivered <;> cases msg <;> simp [pendingDown, Event.read, Effect.payload]

lemma not_ended_of_step (h : SessionStep cfg remote s e effects s') : ¬ Ended s.phase := by
  rintro (hend | hend) <;> cases h <;> simp_all

end Steps

/-! ### Runs -/

structure Streams (trace : SessionTrace) (phase : Phase) : Prop where
  up : Conveyed (receivedBytes trace) (writtenBytes trace) (pendingUp phase) (Ended phase)
  down : Conveyed (readBytes trace) (sentPayloads trace).flatten (pendingDown phase) (Ended phase)

lemma Streams.start (cfg : Config) (remote : Remote) (now : Instant) :
    Streams [] (Connection.start cfg remote now).phase := by
  have hpending : pendingUp (Connection.start cfg remote now).phase = [] ∧
      pendingDown (Connection.start cfg remote now).phase = [] := by
    unfold Connection.start
    dsimp only
    split
    · exact ⟨rfl, rfl⟩
    · exact ⟨rfl, rfl⟩
    · exact ⟨rfl, rfl⟩
  refine ⟨.of_kept ?_, .of_kept ?_⟩
  · rw [hpending.1]
    rfl
  · rw [hpending.2]
    rfl

lemma Streams.step {cfg : Config} {remote : Remote} {trace : SessionTrace} {s s' : Session}
    {i : Input} {effects : List Effect} (hstep : SessionStep cfg remote s i.event effects s')
    (h : Streams trace s.phase) : Streams (trace ++ [(i, effects)]) s'.phase := by
  have hlive := not_ended_of_step hstep
  constructor
  · rw [receivedBytes_concat, writtenBytes_concat]
    exact h.up.step hlive (step_flows_up hstep)
  · rw [readBytes_concat, sentPayloads_concat, List.flatten_append]
    exact h.down.step hlive (step_flows_down hstep)

lemma Streams.of_runs {cfg : Config} {remote : Remote} {now : Instant} {trace : SessionTrace}
    {s : Session} (h : SessionRuns cfg remote now trace s) : Streams trace s.phase :=
  h.invariant (P := fun trace s => Streams trace s.phase) (Streams.start cfg remote now)
    fun _ _ _ _ _ hs hstep => Streams.step (step_cases hstep) hs

/-- At every point of every session the bytes written upstream are a prefix of the data received
and the bytes sent to the client a prefix of the data read; at the head of the relay loop both
are equal. -/
theorem byte_streams_faithful (cfg : Config) (remote : Remote) (now : Instant)
    (trace : SessionTrace) (s : Session) (h : SessionRuns cfg remote now trace s) :
    writtenBytes trace <+: receivedBytes trace ∧
      (sentPayloads trace).flatten <+: readBytes trace ∧
      (s.phase = .relay → writtenBytes trace = receivedBytes trace ∧
        (sentPayloads trace).flatten = readBytes trace) := by
  have hs := Streams.of_runs h
  refine ⟨hs.up.initial, hs.down.initial, ?_⟩
  intro hrelay
  have hlive : ¬ Ended s.phase := by
    rw [hrelay]
    rintro (hend | hend) <;> cases hend
  have hup := hs.up.kept hlive
  have hdown := hs.down.kept hlive
  rw [hrelay] at hup hdown
  exact ⟨by simpa [pendingUp] using hup.symm, by simpa [pendingDown] using hdown.symm⟩

/-- An IMAP session: the greeting arrives in two reads and is sent on, then a byte of the client
is relayed. -/
def imapTrace : SessionTrace :=
  [(⟨1, .tcpRead (asciiBytes "* O") true⟩, []), (⟨2, .tcpRead (asciiBytes "K\n") true⟩, []),
    (⟨3, .sendDone⟩, [.sent (.binary (asciiBytes "* OK\n"))]),
    (⟨4, .wsMessage (.binary [97]) true⟩, [.charged 1]), (⟨5, .wrote 1⟩, [.wrote [97]]),
    (⟨6, .writeDone⟩, [])]

def imapRemote : Remote := ⟨"mail".toList, 143, none⟩

lemma imapTrace_runs :
    SessionRuns {} imapRemote 0 imapTrace ⟨.relay, 6, some (3 + fromSecs (24 * 3600)), 1⟩ :=
  Runs.of_inputs (imapTrace.map Prod.fst) rfl

theorem byte_streams_faithful_imap :
    writtenBytes imapTrace = receivedBytes imapTrace ∧
      (sentPayloads imapTrace).flatten = readBytes imapTrace :=
  (byte_streams_faithful {} imapRemote 0 imapTrace _ imapTrace_runs).2.2 rfl

end WsTcpProxy.Proofs
