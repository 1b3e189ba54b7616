import WsTcpProxy.Proofs.SessionSteps

/-!
# Session byte caps

What a session delivers is charged to the limiter and counted against the connection's cap
before it is sent, except for what the probes flush.
-/

namespace WsTcpProxy.Proofs
open Library

/-- The payload bytes that a session has delivered, in both directions. -/
def deliveredBytes (trace : SessionTrace) : Nat :=
  (writtenBytes trace).length + (sentPayloads trace).flatten.length

/-- What has been delivered is within the connection's cap and has been charged. -/
def BytesCovered (cfg : Config) (trace : SessionTrace) : Prop :=
  (cfg.maxBytesPerConnection ≠ 0 → deliveredBytes trace ≤ cfg.maxBytesPerConnection) ∧
    deliveredBytes trace ≤ chargedBytes trace

/-- The step delivers bytes that a probe has collected. -/
def probeDelivers (phase : Phase) (e : Event) : Bool :=
  match phase, e with
  | .flushTls _, .wrote _ => true
  | .flushGreeting _, .sendDone => true
  | .flushGreeting _, .sendFailed delivered => delivered
  | _, _ => false

/-- Runs in which no probe delivers what it collected. -/
abbrev UnprobedRuns (cfg : Config) (remote : Remote) (now : Instant) :=
  Runs (guarded (fun s i => !probeDelivers s.phase i.event) (Connection.step cfg remote))
    (Connection.start cfg remote now)

/-- Bytes that are counted and charged but not yet delivered. -/
def relayHeld : Phase → Nat
  | .sendTcp rest => rest.length
  | .sendWs (.binary data) => data.length
  | _ => 0

/-- The phases in which the byte counter of the connection is in use. -/
def Counting : Phase → Prop
  | .relay | .sendTcp _ | .sendWs _ => True
  | _ => False

/-- The phases before the relay, in which nothing is counted or charged. -/
def Probing : Phase → Prop
  | .relay | .sendTcp _ | .sendWs _ | .closed => False
  | _ => True

def delivered (effects : List Effect) : Nat :=
  (effects.flatMap Effect.written).length + (effects.filterMap Effect.payload).flatten.length

def charge (effects : List Effect) : Nat := (effects.map Effect.charge).sum

lemma delivered_quiet {effects : List Effect} (h : QuietEffects effects) : delivered effects = 0 := by
  rw [delivered, h.1, h.2.1]
  rfl

lemma delivered_wrote (data : Bytes) : delivered [.wrote data] = data.length := by
  change (data ++ []).length + 0 = data.length
  simp

lemma delivered_sent (msg : Message) : delivered [.sent msg] = relayHeld (.sendWs msg) := by
  cases msg with
  | binary data =>
    change 0 + (data ++ []).length = data.length
    simp
  | _ => rfl

/-- What one step does to the byte counts. -/
structure ByteStep (cfg : Config) (s s' : Session) (e : Event) (effects : List Effect) : Prop where
  covered : delivered effects + relayHeld s'.phase ≤ relayHeld s.phase + charge effects
  offered : charge effects ≤ e.received.length + e.read.length
  counted : Counting s'.phase →
    (Counting s.phase ∧ min s'.connBytes u64Max = min (s.connBytes + charge effects) u64Max) ∨
    (Probing s.phase ∧ s'.connBytes = 0 ∧ charge effects = 0)
  probed : Probing s'.phase → Probing s.phase ∧ charge effects = 0
  capped : cfg.maxBytesPerConnection ≠ 0 → charge effects = 0 ∨
    Counting s'.phase ∧ s'.connBytes ≤ cfg.maxBytesPerConnection

section Steps

variable {cfg : Config} {remote : Remote} {s s' : Session} {e : Event} {effects : List Effect}

/-- A step that charges nothing delivers at most what was held. -/
lemma ByteStep.of_uncharged (hcharge : charge effects = 0)
    (hheld : delivered effects + relayHeld s'.phase ≤ relayHeld s.phase)
    (hcount : Counting s'.phase →
      (Counting s.phase ∧ s'.connBytes = s.connBytes) ∨ (Probing s.phase ∧ s'.connBytes = 0))
    (hprobe : Probing s'.phase → Probing s.phase) : ByteStep cfg s s' e effects where
  covered := by omega
  offered := by omega
  counted := by
    intro hc
    obtain ⟨hs, hb⟩ | ⟨hs, hb⟩ := hcount hc
    · exact .inl ⟨hs, by rw [hb, hcharge, Nat.add_zero]⟩
    · exact .inr ⟨hs, hb, hcharge⟩
  probed hp := ⟨hprobe hp, hcharge⟩
  capped _ := .inl hcharge

/-- A step without payload whose next phase only waits or has ended. -/
lemma ByteStep.of_quiet (hq : QuietEffects effects) (hheld : relayHeld s'.phase = 0)
    (hcount : Counting s'.phase →
      (Counting s.phase ∧ s'.connBytes = s.connBytes) ∨ (Probing s.phase ∧ s'.connBytes = 0))
    (hprobe : Probing s'.phase → Probing s.phase) : ByteStep cfg s s' e effects := by
  apply ByteStep.of_uncharged hq.2.2 _ hcount hprobe
  rw [delivered_quiet hq, hheld]
  exact Nat.zero_le _

lemma ByteStep.of_closed (hq : QuietEffects effects) (hs : s'.phase = .closed) :
    ByteStep cfg s s' e effects := by
  apply ByteStep.of_quiet hq
  · rw [hs]
    rfl
  · rw [hs]
    exact False.elim
  · rw [hs]
    exact False.elim

lemma ByteStep.of_probing (hq : QuietEffects effects) (hs : Probing s.phase)
    (hs' : Probing s'.phase) : ByteStep cfg s s' e effects := by
  have hidle : relayHeld s'.phase = 0 ∧ ¬ Counting s'.phase := by
    cases h : s'.phase <;> simp_all [Probing, relayHeld, Counting]
  exact .of_quiet hq hidle.1 (fun hc => absurd hc hidle.2) fun _ => hs

/-- Accounted data is charged in full and within the cap before it is held for sending. -/
lemma ByteStep.of_account {data : Bytes} {ok : Bool} {next : Phase} (hp : s.phase = .relay)
    (hx : Connection.account cfg s data ok next = (effects, s'))
    (hheld : relayHeld next = data.length) (hcount : Counting next)
    (hle : data.length ≤ e.received.length + e.read.length) : ByteStep cfg s s' e effects := by
  obtain ⟨hs, hq⟩ | ⟨rfl, hover, hw, hs, hc⟩ := account_spec hx
  · exact .of_closed hq hs
  · have hcharge : charge effects = data.length := hc
    have hdelivered : delivered effects = 0 := by
      rw [delivered, hw, hs]
      rfl
    have hnext : ¬ Probing next := by
      cases next <;> simp_all [Probing, Counting]
    constructor
    · rw [hdelivered, hcharge, hp]
      change 0 + relayHeld next ≤ 0 + data.length
      omega
    · omega
    · intro _
      refine .inl ⟨by rw [hp]; trivial, ?_⟩
      rw [hcharge]
      exact min_eq_left (Nat.min_le_right _ _)
    · intro h
      exact absurd h hnext
    · intro hcap
      have hle' : saturatingAdd s.connBytes data.length ≤ cfg.maxBytesPerConnection := by
        simp only [Connection.overConnBytes, Bool.and_eq_false_iff, bne_eq_false_iff_eq,
          decide_eq_false_iff_not, Nat.not_lt] at hover
        exact hover.resolve_left hcap
      exact .inr ⟨hcount, hle'⟩

lemma byteStep_of_step (h : SessionStep cfg remote s e effects s')
    (hprobe : probeDelivers s.phase e = false) : ByteStep cfg s s' e effects := by
  cases h with
  | helloData hp hd hx =>
    obtain ⟨hq, hcases⟩ := probeHello_spec hx
    apply ByteStep.of_probing hq
    · rw [hp]
      trivial
    · obtain ⟨hs, -⟩ | ⟨hs, -⟩ | hs := hcases <;> rw [hs] <;> trivial
  | helloControl hp he hr hphase =>
    apply ByteStep.of_probing quiet_nil
    · rw [hp]
      trivial
    · obtain rfl | ⟨p, rfl⟩ := hphase <;> trivial
  | helloRefused hp he hr | greetRefused hp he hr =>
    apply ByteStep.of_probing (quiet_rejected _)
    · rw [hp]
      trivial
    · trivial
  | helloPonged hp he hr hq =>
    apply ByteStep.of_probing hq
    · rw [hp]
      trivial
    · trivial
  | helloWrote hp hn =>
    rw [hp] at hprobe
    cases hprobe
  | helloFlushed hp =>
    apply ByteStep.of_quiet quiet_nil rfl
    · intro _
      exact .inr ⟨by rw [hp]; trivial, rfl⟩
    · exact False.elim
  | helloFailed hp => exact .of_closed (quiet_rejected _) rfl
  | greetRead hp hx =>
    obtain ⟨hq, hcases⟩ := probeGreet_spec hx
    apply ByteStep.of_probing hq
    · rw [hp]
      trivial
    · obtain ⟨hs, -⟩ | ⟨hs, -⟩ | hs := hcases <;> rw [hs] <;> trivial
  | greetSent hp =>
    rw [hp] at hprobe
    cases hprobe
  | @greetFailed greet delivered hp =>
    rw [hp] at hprobe
    obtain rfl : delivered = false := hprobe
    exact .of_closed (quiet_rejected _) rfl
  | @relayUp data msg charge effects s' hp hd hx =>
    apply ByteStep.of_account hp hx rfl trivial
    rw [received_of_data hd]
    exact Nat.le_add_right _ _
  | relayDown hp hx => exact .of_account hp hx rfl trivial (Nat.le_add_left _ _)
  | relayControl hp he hr hphase =>
    apply ByteStep.of_quiet quiet_nil
    · obtain rfl | ⟨p, rfl⟩ | ⟨p, rfl⟩ := hphase <;> rfl
    · intro _
      exact .inl ⟨by rw [hp]; trivial, rfl⟩
    · obtain rfl | ⟨p, rfl⟩ | ⟨p, rfl⟩ := hphase <;> exact False.elim
  | relayClosed hp he hr hq => exact .of_closed hq rfl
  | @dataWrote rest n hp hn =>
    apply ByteStep.of_uncharged rfl
    · rw [hp, delivered_wrote, List.length_take]
      change min n rest.length + (rest.drop n).length ≤ rest.length
      rw [List.length_drop]
      omega
    · intro _
      exact .inl ⟨by rw [hp]; trivial, rfl⟩
    · exact False.elim
  | dataDone hp =>
    apply ByteStep.of_quiet quiet_nil rfl
    · intro _
      exact .inl ⟨by rw [hp]; trivial, rfl⟩
    · exact False.elim
  | dataFailed hp => exact .of_closed quiet_nil rfl
  | @messageSent msg hp =>
    apply ByteStep.of_uncharged rfl
    · rw [hp, delivered_sent]
      exact le_rfl
    · intro _
      exact .inl ⟨by rw [hp]; trivial, rfl⟩
    · exact False.elim
  | @messageFailed msg delivered hp =>
    apply ByteStep.of_uncharged
    · cases delivered <;> rfl
    · rw [hp]
      cases delivered with
      | false => exact Nat.zero_le _
      | true => exact (delivered_sent msg).le
    · exact False.elim
    · exact False.elim

end Steps

/-! ### Runs -/

structure Accounted (cfg : Config) (trace : SessionTrace) (s : Session) : Prop where
  covered : deliveredBytes trace + relayHeld s.phase ≤ chargedBytes trace
  offered : chargedBytes trace ≤ (receivedBytes trace).length + (readBytes trace).length
  counted : Counting s.phase → min s.connBytes u64Max = min (chargedBytes trace) u64Max
  probed : Probing s.phase → chargedBytes trace = 0
  capped : cfg.maxBytesPerConnection ≠ 0 →
    min (chargedBytes trace) u64Max ≤ cfg.maxBytesPerConnection

lemma deliveredBytes_concat (trace : SessionTrace) (i : Input) (effects : List Effect) :
    deliveredBytes (trace ++ [(i, effects)]) = deliveredBytes trace + delivered effects := by
  rw [deliveredBytes, deliveredBytes, delivered, writtenBytes_concat, sentPayloads_concat,
    List.flatten_append, List.length_append, List.length_append]
  omega

lemma Accounted.start (cfg : Config) (remote : Remote) (now : Instant) :
    Accounted cfg [] (Connection.start cfg remote now) := by
  have hstart : relayHeld (Connection.start cfg remote now).phase = 0 ∧
      (Connection.start cfg remote now).connBytes = 0 := by
    unfold Connection.start
    dsimp only
    split <;> exact ⟨rfl, rfl⟩
  constructor
  · rw [hstart.1]
    exact le_rfl
  · exact le_rfl
  · intro _
    rw [hstart.2]
    rfl
  · intro _
    rfl
  · intro _
    exact Nat.zero_le _

lemma Accounted.step {cfg : Config} {trace : SessionTrace} {s s' : Session} {i : Input}
    {effects : List Effect} (hstep : ByteStep cfg s s' i.event effects)
    (h : Accounted cfg trace s) : Accounted cfg (trace ++ [(i, effects)]) s' := by
  have hcharged : chargedBytes (trace ++ [(i, effects)]) = chargedBytes trace + charge effects :=
    chargedBytes_concat trace i effects
  have hcounted : Counting s'.phase →
      min s'.connBytes u64Max = min (chargedBytes trace + charge effects) u64Max := by
    intro hc
    obtain ⟨hs, hb⟩ | ⟨hs, hb, h0⟩ := hstep.counted hc
    · have := h.counted hs
      omega
    · rw [hb, h.probed hs, h0]
  constructor
  · rw [deliveredBytes_concat, hcharged]
    have := h.covered
    have := hstep.covered
    omega
  · rw [hcharged, receivedBytes_concat, readBytes_concat, List.length_append, List.length_append]
    have := h.offered
    have := hstep.offered
    omega
  · rw [hcharged]
    exact hcounted
  · intro hp
    rw [hcharged, h.probed (hstep.probed hp).1, (hstep.probed hp).2]
  · intro hcap
    rw [hcharged]
    obtain h0 | ⟨hc, hle⟩ := hstep.capped hcap
    · rw [h0, Nat.add_zero]
      exact h.capped hcap
    · rw [← hcounted hc]
      exact (Nat.min_le_left _ _).trans hle

lemma Accounted.of_runs {cfg : Config} {remote : Remote} {now : Instant} {trace : SessionTrace}
    {s : Session} (h : UnprobedRuns cfg remote now trace s) : Accounted cfg trace s := by
  refine h.invariant (P := fun trace s => Accounted cfg trace s) (Accounted.start cfg remote now) ?_
  intro trace s i effects s' hs hstep
  obtain ⟨hprobe, hstep⟩ := guarded_some hstep
  have hb := byteStep_of_step (step_cases hstep) (by simpa using hprobe)
  exact Accounted.step hb ⟨hs.covered, hs.offered, hs.counted, hs.probed, hs.capped⟩

/-- In every session in which no probe delivers what it collected, what has been delivered is
charged, and within the connection's cap as long as the counter has not saturated. -/
theorem bytes_covered_unprobed (cfg : Config) (remote : Remote) (now : Instant)
    (trace : SessionTrace) (s : Session) (h : UnprobedRuns cfg remote now trace s)
    (hmax : cfg.maxBytesPerConnection < u64Max ∨
      (receivedBytes trace).length + (readBytes trace).length ≤ u64Max) :
    BytesCovered cfg trace := by
  have ha := Accounted.of_runs h
  have hcovered : deliveredBytes trace ≤ chargedBytes trace := by
    have := ha.covered
    omega
  refine ⟨?_, hcovered⟩
  intro hcap
  have hle := ha.capped hcap
  have := ha.offered
  omega

/-- A greeting of 6 bytes is sent on under a cap of one byte, and nothing is charged. -/
theorem greeting_not_covered :
    ∃ trace s, SessionRuns { maxBytesPerConnection := 1 } ⟨"mail".toList, 143, none⟩ 0 trace s ∧
      deliveredBytes trace = 6 ∧ chargedBytes trace = 0 ∧
      ¬ BytesCovered { maxBytesPerConnection := 1 } trace :=
  ⟨[(⟨1, .tcpRead (asciiBytes "* OK\r\n") true⟩, []),
      (⟨2, .sendDone⟩, [.sent (.binary (asciiBytes "* OK\r\n"))])],
    ⟨.relay, 2, some (2 + fromSecs (24 * 3600)), 0⟩,
    Runs.of_inputs [⟨1, .tcpRead (asciiBytes "* OK\r\n") true⟩, ⟨2, .sendDone⟩] rfl,
    by decide, by decide, fun h => absurd (h.1 (by decide)) (by decide)⟩

/-- A session on a port without probe relays two bytes under a cap of four. -/
def plainTrace : SessionTrace :=
  [(⟨1, .wsMessage (.binary [97]) true⟩, [.charged 1]), (⟨2, .wrote 1⟩, [.wrote [97]]),
    (⟨3, .writeDone⟩, []), (⟨4, .tcpRead [98] true⟩, [.charged 1]),
    (⟨5, .sendDone⟩, [.sent (.binary [98])])]

theorem bytes_covered_unprobed_plain :
    deliveredBytes plainTrace = 2 ∧ BytesCovered { maxBytesPerConnection := 4 } plainTrace :=
  ⟨by decide, bytes_covered_unprobed { maxBytesPerConnection := 4 } ⟨"mail".toList, 4190, none⟩ 0
    plainTrace ⟨.relay, 5, some (0 + fromSecs (24 * 3600)), 2⟩
    (Runs.of_inputs (plainTrace.map Prod.fst) rfl) (.inl (by decide))⟩

end WsTcpProxy.Proofs
