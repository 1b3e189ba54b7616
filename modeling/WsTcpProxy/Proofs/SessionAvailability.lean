import WsTcpProxy.Proofs.ByteStreams
import WsTcpProxy.Proofs.GreetingSegmentation
import WsTcpProxy.Proofs.SessionLifetime
import WsTcpProxy.Proofs.TlsFragmentation

/-!
# Availability of sessions

A session ends for a cause: it stays open while both peers keep to their protocol and nothing
fails, however their bytes are cut and interleaved.
-/

namespace WsTcpProxy

/-- What does not give a session a cause to end: data that the limiter lets through, control
frames, an idle client, progress of a write, and an unanswered ping of the probe. -/
def harmless (s : Session) (i : Input) : Bool :=
  match i.event with
  | .wsMessage msg charge => msg != .close && charge
  | .tcpRead data charge => !data.isEmpty && charge
  | .wsTimeout => s.phase == .relay
  | .sendFailed _ =>
    match s.phase with
    | .probePong _ _ => true
    | _ => false
  | .wrote _ => true
  | .writeDone => true
  | .sendDone => true
  | _ => false

end WsTcpProxy

namespace WsTcpProxy.Proofs
open Library

/-- The client opens with a ClientHello for the host where the port calls for one, in a record that
fits the buffer of the probe with its header; the upstream opens with a greeting where the port calls
for that, and the greeting is one no later than its reader stops: at the first newline or at 512 bytes. -/
def Opens (cfg : Config) (remote : Remote) (up down : Bytes) : Prop :=
  match Connection.probed cfg remote with
  | none => True
  | some .tlsSni =>
    validateTlsClientHello up remote.host remote.ipLiteral.isSome = .ok () ∧ recordLen up ≤ 16380
  | some kind => ∃ m e, firstStop down = some m ∧ openingEnd kind down = some e ∧ e ≤ m

/-- The configured cap admits the bytes of both directions together. -/
def FitsCap (cfg : Config) (up down : Bytes) : Prop :=
  cfg.maxBytesPerConnection = 0 ∨ up.length + down.length ≤ cfg.maxBytesPerConnection

/-! ### Verdicts -/

section Verdicts

variable {remote : Remote} {up down p : Bytes}

lemma tlsProbeStep_ne_rejected
    (hval : validateTlsClientHello up remote.host remote.ipLiteral.isSome = .ok ())
    (hshort : recordLen up ≤ 16380) (hp : p <+: up) : tlsProbeStep remote p ≠ .rejected := by
  obtain ⟨hheader, -⟩ := (tlsRecordNeeded_zero_iff up).1 (validate_complete hval)
  by_cases hlen : 5 + recordLen up ≤ p.length
  · rw [tlsProbeStep_complete hval hp hlen]
    exact ProbeStep.noConfusion
  · rw [tlsProbeStep_incomplete hheader hp (by omega), if_neg (by omega)]
    exact ProbeStep.noConfusion

lemma greetingProbeStep_ne_rejected {kind : ProbeKind} {m e : ℕ} (hstop : firstStop down = some m)
    (hopening : openingEnd kind down = some e) (hle : e ≤ m) (hp : p <+: down) :
    greetingProbeStep kind p ≠ .rejected := by
  obtain ⟨-, -, hcomplete⟩ := firstStop_some hstop
  unfold greetingProbeStep
  split
  · rename_i hdone
    have hfull : greetingComplete p := by
      obtain hdone | hlong := Bool.or_eq_true_iff.mp hdone
      · exact hdone
      · rw [greetingComplete, Bool.or_eq_true]
        exact .inr hlong
    have hm := (hcomplete p hp).1 hfull
    have hval : validateGreeting p kind = .ok () := by
      rw [List.prefix_iff_eq_take.1 hp, validateGreeting_take]
      exact ⟨e, hopening, by omega⟩
    rw [hval]
    exact ProbeStep.noConfusion
  · exact ProbeStep.noConfusion

end Verdicts

/-! ### Steps -/

/-- Behind the verdict of the probe, and open. -/
def Settled : Phase → Prop
  | .flushTls _ | .flushGreeting _ | .relay | .sendTcp _ | .sendWs _ => True
  | _ => False

/-- An open session, with what its probe has collected so far. -/
structure Alive (cfg : Config) (remote : Remote) (trace : SessionTrace) (s : Session) : Prop where
  phase : Settled s.phase ∨
    (Connection.probed cfg remote = some .tlsSni ∧ (s.phase = .probeTls (receivedBytes trace) ∨
      ∃ p, s.phase = .probePong (receivedBytes trace) p)) ∨
    ∃ kind, Connection.probed cfg remote = some kind ∧ kind ≠ .tlsSni ∧
      s.phase = .probeGreeting kind (readBytes trace)
  counted : s.connBytes ≤ (receivedBytes trace).length + (readBytes trace).length
  unrejected : ∀ x ∈ trace, ∀ reason, .rejected reason ∉ x.2

section Steps

variable {cfg : Config} {remote : Remote} {trace : SessionTrace} {s s' : Session} {i : Input}
  {effects : List Effect} {up down : Bytes}

/-- A step that counts no more than it takes in and rejects nothing keeps the session open, if it
ends in an open phase. -/
lemma Alive.next (h : Alive cfg remote trace s)
    (hphase : Settled s'.phase ∨
      (Connection.probed cfg remote = some .tlsSni ∧
        (s'.phase = .probeTls (receivedBytes trace ++ i.event.received) ∨
          ∃ p, s'.phase = .probePong (receivedBytes trace ++ i.event.received) p)) ∨
      ∃ kind, Connection.probed cfg remote = some kind ∧ kind ≠ .tlsSni ∧
        s'.phase = .probeGreeting kind (readBytes trace ++ i.event.read))
    (hcount : s'.connBytes ≤ s.connBytes + (i.event.received.length + i.event.read.length))
    (hrejected : ∀ reason, .rejected reason ∉ effects) :
    Alive cfg remote (trace ++ [(i, effects)]) s' := by
  refine ⟨?_, ?_, ?_⟩
  · rw [receivedBytes_concat, readBytes_concat]
    exact hphase
  · have hold := h.counted
    rw [receivedBytes_concat, readBytes_concat, List.length_append, List.length_append]
    omega
  · intro x hx
    obtain hx | hx := List.mem_append.1 hx
    · exact h.unrejected x hx
    · rw [List.mem_singleton.1 hx]
      exact hrejected

lemma Alive.probed_tls (h : Alive cfg remote trace s) {hello : Bytes}
    (hp : s.phase = .probeTls hello ∨ ∃ p, s.phase = .probePong hello p) :
    Connection.probed cfg remote = some .tlsSni ∧ hello = receivedBytes trace := by
  obtain hs | ⟨hprobed, hs⟩ | ⟨kind, -, -, hs⟩ := h.phase
  · obtain hp | ⟨p, hp⟩ := hp <;> rw [hp] at hs <;> exact hs.elim
  · refine ⟨hprobed, ?_⟩
    obtain hp | ⟨p, hp⟩ := hp <;> rw [hp] at hs <;> obtain hs | ⟨q, hs⟩ := hs <;> cases hs <;> rfl
  · obtain hp | ⟨p, hp⟩ := hp <;> rw [hp] at hs <;> cases hs

lemma Alive.probed_greeting (h : Alive cfg remote trace s) {kind : ProbeKind} {greet : Bytes}
    (hp : s.phase = .probeGreeting kind greet) :
    Connection.probed cfg remote = some kind ∧ kind ≠ .tlsSni ∧ greet = readBytes trace := by
  obtain hs | ⟨-, hs⟩ | ⟨kind', hprobed, hkind, hs⟩ := h.phase <;> rw [hp] at hs
  · exact hs.elim
  · obtain hs | ⟨q, hs⟩ := hs <;> cases hs
  · cases hs
    exact ⟨hprobed, hkind, rfl⟩

/-- A data message of the TLS probe. -/
lemma Alive.hello (h : Alive cfg remote trace s) {hello data : Bytes} {msg : Message} {charge : Bool}
    (hp : s.phase = .probeTls hello) (hopens : Opens cfg remote up down)
    (hup : receivedBytes (trace ++ [(i, effects)]) <+: up) (hi : i.event = .wsMessage msg charge)
    (hd : msg.data = some data)
    (hx : Connection.probeHello remote { s with clock := i.time } (hello ++ data) = (effects, s')) :
    Alive cfg remote (trace ++ [(i, effects)]) s' := by
  obtain ⟨hprobed, rfl⟩ := h.probed_tls (.inl hp)
  have hreceived : i.event.received = data := by rw [hi, received_of_data hd]
  rw [Opens, hprobed] at hopens
  rw [receivedBytes_concat, hreceived] at hup
  have hverdict := tlsProbeStep_ne_rejected hopens.1 hopens.2 hup
  unfold Connection.probeHello at hx
  split at hx
  · cases hx
    refine h.next (.inr (.inl ⟨hprobed, .inl ?_⟩)) (Nat.le_add_right _ _) (fun _ => List.not_mem_nil)
    rw [hreceived]
  · cases hx
    exact h.next (.inl trivial) (Nat.le_add_right _ _) (fun _ => List.not_mem_nil)
  · exact absurd ‹_› hverdict

lemma Alive.probeTls (h : Alive cfg remote trace s) {hello : Bytes} (hp : s.phase = .probeTls hello)
    (hharm : harmless s i = true) (hopens : Opens cfg remote up down)
    (hup : receivedBytes (trace ++ [(i, effects)]) <+: up)
    (hx : Connection.probeTlsEvent remote { s with clock := i.time } hello i.event = some (effects, s')) :
    Alive cfg remote (trace ++ [(i, effects)]) s' := by
  have hcontrol {phase : Phase} (hi : i.event.received = [])
      (hphase : phase = .probeTls hello ∨ ∃ p, phase = .probePong hello p) :
      Alive cfg remote (trace ++ [(i, [])]) { s with clock := i.time, phase := phase } := by
    obtain ⟨hprobed, rfl⟩ := h.probed_tls (.inl hp)
    refine h.next (.inr (.inl ⟨hprobed, ?_⟩)) (Nat.le_add_right _ _) (fun _ => List.not_mem_nil)
    rw [hi, List.append_nil]
    exact hphase
  cases hi : i.event with
  | wsMessage msg charge =>
    rw [hi] at hx
    cases msg with
    | binary data => exact h.hello hp hopens hup hi rfl (Option.some.inj hx)
    | text t => exact h.hello hp hopens hup hi rfl (Option.some.inj hx)
    | ping p =>
      cases hx
      exact hcontrol (by rw [hi]; rfl) (.inr ⟨p, rfl⟩)
    | pong p =>
      cases hx
      exact hcontrol (by rw [hi]; rfl) (.inl rfl)
    | close => simp [harmless, hi] at hharm
  | wsTimeout => simp [harmless, hi, hp] at hharm
  | wsError => simp [harmless, hi] at hharm
  | wsEnd => simp [harmless, hi] at hharm
  | _ =>
    rw [hi] at hx
    cases hx

lemma Alive.probePong (h : Alive cfg remote trace s) {hello p : Bytes}
    (hp : s.phase = .probePong hello p)
    (hx : Connection.probePongEvent { s with clock := i.time } hello p i.event = some (effects, s')) :
    Alive cfg remote (trace ++ [(i, effects)]) s' := by
  obtain ⟨hprobed, rfl⟩ := h.probed_tls (.inr ⟨p, hp⟩)
  have hback (hi : i.event.received = []) (heffects : ∀ reason, .rejected reason ∉ effects) :
      Alive cfg remote (trace ++ [(i, effects)])
        { s with clock := i.time, phase := .probeTls (receivedBytes trace) } := by
    refine h.next (.inr (.inl ⟨hprobed, .inl ?_⟩)) (Nat.le_add_right _ _) heffects
    rw [hi, List.append_nil]
  cases hi : i.event with
  | sendDone =>
    rw [hi] at hx
    cases hx
    exact hback (by rw [hi]; rfl) (by simp)
  | sendFailed delivered =>
    rw [hi] at hx
    cases hx
    exact hback (by rw [hi]; rfl) (by cases delivered <;> simp)
  | _ =>
    rw [hi] at hx
    cases hx

lemma Alive.probeGreeting (h : Alive cfg remote trace s) {kind : ProbeKind} {greet : Bytes}
    (hp : s.phase = .probeGreeting kind greet) (hharm : harmless s i = true)
    (hopens : Opens cfg remote up down) (hdown : readBytes (trace ++ [(i, effects)]) <+: down)
    (hx : Connection.probeGreetingEvent { s with clock := i.time } kind greet i.event =
      some (effects, s')) :
    Alive cfg remote (trace ++ [(i, effects)]) s' := by
  obtain ⟨hprobed, hkind, rfl⟩ := h.probed_greeting hp
  cases hi : i.event with
  | tcpRead data charge =>
    have hread : i.event.read = data := by
      rw [hi]
      rfl
    have hstop : ∃ m e, firstStop down = some m ∧ openingEnd kind down = some e ∧ e ≤ m := by
      rw [Opens, hprobed] at hopens
      cases kind with
      | tlsSni => exact absurd rfl hkind
      | imapGreeting => exact hopens
      | smtpGreeting => exact hopens
    obtain ⟨m, e, hstop, hopening, hle⟩ := hstop
    rw [readBytes_concat, hread] at hdown
    have hverdict := greetingProbeStep_ne_rejected hstop hopening hle hdown
    rw [hi, Connection.probeGreetingEvent] at hx
    split at hx
    · cases hx
    · split at hx
      · rename_i hdata
        simp [harmless, hi, hdata] at hharm
      · replace hx := Option.some.inj hx
        unfold Connection.probeGreet at hx
        split at hx
        · cases hx
          refine h.next (.inr (.inr ⟨kind, hprobed, hkind, ?_⟩)) (Nat.le_add_right _ _)
            (fun _ => List.not_mem_nil)
          rw [hread]
        · cases hx
          exact h.next (.inl trivial) (Nat.le_add_right _ _) (fun _ => List.not_mem_nil)
        · exact absurd ‹_› hverdict
  | tcpError => simp [harmless, hi] at hharm
  | tcpTimeout => simp [harmless, hi] at hharm
  | _ =>
    rw [hi] at hx
    cases hx

lemma Alive.account (h : Alive cfg remote trace s) (hfits : FitsCap cfg up down)
    (hup : receivedBytes (trace ++ [(i, effects)]) <+: up)
    (hdown : readBytes (trace ++ [(i, effects)]) <+: down) {data : Bytes} {next : Phase}
    (hlen : data.length = i.event.received.length + i.event.read.length) (hnext : Settled next)
    (hx : Connection.account cfg { s with clock := i.time } data true next = (effects, s')) :
    Alive cfg remote (trace ++ [(i, effects)]) s' := by
  have hcount : saturatingAdd s.connBytes data.length ≤ s.connBytes + data.length := Nat.min_le_left _ _
  have hover : Connection.overConnBytes cfg (saturatingAdd s.connBytes data.length) = false := by
    have hold := h.counted
    have hupLen := hup.length_le
    have hdownLen := hdown.length_le
    rw [receivedBytes_concat, List.length_append] at hupLen
    rw [readBytes_concat, List.length_append] at hdownLen
    rw [Connection.overConnBytes, Bool.and_eq_false_iff, bne_eq_false_iff_eq, decide_eq_false_iff_not]
    obtain hfits | hfits := hfits
    · exact .inl hfits
    · right
      omega
  unfold Connection.account at hx
  dsimp only at hx
  rw [hover, if_neg Bool.false_ne_true] at hx
  split at hx
  · cases hx
    refine h.next (.inl hnext) ?_ (fun _ => List.not_mem_nil)
    rw [← hlen]
    exact hcount
  · cases hx
    refine h.next (.inl hnext) ?_ (by simp)
    rw [← hlen]
    exact hcount

lemma Alive.relay (h : Alive cfg remote trace s) (hharm : harmless s i = true)
    (hfits : FitsCap cfg up down) (hup : receivedBytes (trace ++ [(i, effects)]) <+: up)
    (hdown : readBytes (trace ++ [(i, effects)]) <+: down)
    (hx : Connection.relayEvent cfg { s with clock := i.time } i.event = some (effects, s')) :
    Alive cfg remote (trace ++ [(i, effects)]) s' := by
  have hcontrol {phase : Phase} (hphase : Settled phase) :
      Alive cfg remote (trace ++ [(i, [])]) { s with clock := i.time, phase := phase } :=
    h.next (.inl hphase) (Nat.le_add_right _ _) (fun _ => List.not_mem_nil)
  unfold Connection.relayEvent at hx
  split at hx
  · split at hx
    · rename_i hi
      simp [harmless, hi] at hharm
    · cases hx
  cases hi : i.event with
  | wsMessage msg charge =>
    rw [hi] at hx
    have hgranted : msg ≠ .close ∧ charge = true := by simpa [harmless, hi] using hharm
    obtain ⟨hmsg, rfl⟩ := hgranted
    cases msg with
    | binary data =>
      refine h.account hfits hup hdown ?_ ?_ (Option.some.inj hx)
      · rw [hi]
        rfl
      · trivial
    | text t =>
      refine h.account hfits hup hdown ?_ ?_ (Option.some.inj hx)
      · rw [hi]
        rfl
      · trivial
    | ping p =>
      cases hx
      exact hcontrol trivial
    | pong p =>
      cases hx
      exact hcontrol trivial
    | close => exact absurd rfl hmsg
  | tcpRead data charge =>
    rw [hi, Connection.relayArms] at hx
    have hgranted : data ≠ [] ∧ charge = true := by simpa [harmless, hi] using hharm
    obtain ⟨hdata, rfl⟩ := hgranted
    split at hx
    · cases hx
    · refine h.account hfits hup hdown ?_ ?_ (Option.some.inj hx)
      · rw [hi]
        exact (Nat.zero_add _).symm
      · trivial
  | wsTimeout =>
    rw [hi] at hx
    cases hx
    exact hcontrol trivial
  | wsError => simp [harmless, hi] at hharm
  | wsEnd => simp [harmless, hi] at hharm
  | tcpError => simp [harmless, hi] at hharm
  | _ =>
    rw [hi] at hx
    cases hx

lemma Alive.settle (h : Alive cfg remote trace s) (hphase : Settled s'.phase)
    (hcount : s'.connBytes ≤ s.connBytes) (hrejected : ∀ reason, .rejected reason ∉ effects) :
    Alive cfg remote (trace ++ [(i, effects)]) s' :=
  h.next (.inl hphase) (hcount.trans (Nat.le_add_right _ _)) hrejected

lemma Alive.flushTls (h : Alive cfg remote trace s) (hharm : harmless s i = true) {rest : Bytes}
    (hx : Connection.flushTlsEvent cfg { s with clock := i.time } rest i.event = some (effects, s')) :
    Alive cfg remote (trace ++ [(i, effects)]) s' := by
  cases hi : i.event with
  | wrote n =>
    rw [hi, Connection.flushTlsEvent] at hx
    split at hx
    · cases hx
    · cases hx
      exact h.settle trivial le_rfl (by simp)
  | writeDone =>
    rw [hi, Connection.flushTlsEvent] at hx
    split at hx
    · cases hx
      exact h.settle trivial (Nat.zero_le _) (by simp)
    · cases hx
  | writeFailed => simp [harmless, hi] at hharm
  | _ =>
    rw [hi] at hx
    cases hx

lemma Alive.sendTcp (h : Alive cfg remote trace s) (hharm : harmless s i = true) {rest : Bytes}
    (hx : Connection.sendTcpEvent { s with clock := i.time } rest i.event = some (effects, s')) :
    Alive cfg remote (trace ++ [(i, effects)]) s' := by
  cases hi : i.event with
  | wrote n =>
    rw [hi, Connection.sendTcpEvent] at hx
    split at hx
    · cases hx
    · cases hx
      exact h.settle trivial le_rfl (by simp)
  | writeDone =>
    rw [hi, Connection.sendTcpEvent] at hx
    split at hx
    · cases hx
      exact h.settle trivial le_rfl (by simp)
    · cases hx
  | writeFailed => simp [harmless, hi] at hharm
  | _ =>
    rw [hi] at hx
    cases hx

/-- A message to the client goes out. -/
lemma Alive.send (h : Alive cfg remote trace s)
    (hphase : (∃ msg, s.phase = .sendWs msg) ∨ ∃ greet, s.phase = .flushGreeting greet)
    (hharm : harmless s i = true)
    (hx : Connection.react cfg remote { s with clock := i.time } i.event = some (effects, s')) :
    Alive cfg remote (trace ++ [(i, effects)]) s' := by
  have hdone : i.event = .sendDone := by
    cases hi : i.event with
    | sendDone => rfl
    | sendFailed delivered => obtain ⟨msg, hp⟩ | ⟨greet, hp⟩ := hphase <;> simp [harmless, hi, hp] at hharm
    | _ =>
      obtain ⟨msg, hp⟩ | ⟨greet, hp⟩ := hphase <;> rw [Connection.react, hp, hi] at hx <;> cases hx
  rw [Connection.react, hdone] at hx
  obtain ⟨msg, hp⟩ | ⟨greet, hp⟩ := hphase <;> rw [hp] at hx <;> cases hx
  · exact h.settle trivial le_rfl (by simp)
  · exact h.settle trivial (Nat.zero_le _) (by simp)

lemma Alive.step (h : Alive cfg remote trace s) (hopens : Opens cfg remote up down)
    (hfits : FitsCap cfg up down) (hup : receivedBytes (trace ++ [(i, effects)]) <+: up)
    (hdown : readBytes (trace ++ [(i, effects)]) <+: down)
    (hstep : guarded harmless (Connection.step cfg remote) s i = some (effects, s')) :
    Alive cfg remote (trace ++ [(i, effects)]) s' := by
  obtain ⟨hharm, hstep⟩ := guarded_some hstep
  unfold Connection.step at hstep
  split at hstep
  · cases hstep
  cases hp : s.phase with
  | probeTls hello =>
    rw [Connection.react, hp] at hstep
    exact h.probeTls hp hharm hopens hup hstep
  | probePong hello p =>
    rw [Connection.react, hp] at hstep
    exact h.probePong hp hstep
  | flushTls rest =>
    rw [Connection.react, hp] at hstep
    exact h.flushTls hharm hstep
  | probeGreeting kind greet =>
    rw [Connection.react, hp] at hstep
    exact h.probeGreeting hp hharm hopens hdown hstep
  | flushGreeting greet => exact h.send (.inr ⟨greet, hp⟩) hharm hstep
  | relay =>
    rw [Connection.react, hp] at hstep
    exact h.relay hharm hfits hup hdown hstep
  | sendTcp rest =>
    rw [Connection.react, hp] at hstep
    exact h.sendTcp hharm hstep
  | sendWs msg => exact h.send (.inl ⟨msg, hp⟩) hharm hstep
  | refused =>
    rw [Connection.react, hp] at hstep
    cases hstep
  | closed =>
    rw [Connection.react, hp] at hstep
    cases hstep

end Steps

/-! ### Runs -/

lemma Alive.start (cfg : Config) (remote : Remote) (now : Instant) :
    Alive cfg remote [] (Connection.start cfg remote now) := by
  refine ⟨?_, ?_, fun x hx => by cases hx⟩
  · have hprobed : Connection.probed cfg remote =
        if cfg.requireProtocolProbe then probeForPort remote.port else none := rfl
    unfold Connection.start
    rw [← hprobed]
    dsimp only
    split
    · exact .inr (.inl ⟨‹_›, .inl rfl⟩)
    · rename_i kind hkind hsome
      exact .inr (.inr ⟨kind, hsome, hkind, rfl⟩)
    · exact .inl trivial
  · unfold Connection.start
    dsimp only
    split <;> exact Nat.zero_le _

lemma Alive.not_ended {cfg : Config} {remote : Remote} {trace : SessionTrace} {s : Session}
    (h : Alive cfg remote trace s) : ¬ Ended s.phase := by
  intro hended
  obtain hs | ⟨-, hs | ⟨p, hs⟩⟩ | ⟨kind, -, -, hs⟩ := h.phase <;> obtain hp | hp := hended <;>
    rw [hp] at hs <;> first | exact hs.elim | cases hs

lemma Alive.of_runs {cfg : Config} {remote : Remote} {now : Instant} {trace : SessionTrace} {s : Session}
    {up down : Bytes}
    (hrun : Runs (guarded harmless (Connection.step cfg remote)) (Connection.start cfg remote now) trace s)
    (hopens : Opens cfg remote up down) (hfits : FitsCap cfg up down) (hup : receivedBytes trace <+: up)
    (hdown : readBytes trace <+: down) : Alive cfg remote trace s := by
  refine hrun.invariant (P := fun trace s => receivedBytes trace <+: up → readBytes trace <+: down →
    Alive cfg remote trace s) (fun _ _ => Alive.start cfg remote now) ?_ hup hdown
  intro trace s i effects s' h hstep hup hdown
  have hupBefore : receivedBytes trace <+: up := by
    rw [receivedBytes_concat] at hup
    exact (List.prefix_append _ _).trans hup
  have hdownBefore : readBytes trace <+: down := by
    rw [readBytes_concat] at hdown
    exact (List.prefix_append _ _).trans hdown
  exact (h hupBefore hdownBefore).step hopens hfits hup hdown hstep

/-! ### Deadlines -/

section Deadlines

variable {cfg : Config} {remote : Remote} {now : Instant} {trace : SessionTrace} {s s' : Session}
  {e : Event} {effects : List Effect}

/-- What no step but the entry of the relay touches. -/
def SameTimer (s s' : Session) : Prop := s'.clock = s.clock ∧ s'.deadline = s.deadline

lemma sameTimer_probeHello {hello : Bytes} (h : Connection.probeHello remote s hello = (effects, s')) :
    SameTimer s s' := by
  unfold Connection.probeHello at h
  split at h <;> cases h <;> exact ⟨rfl, rfl⟩

lemma sameTimer_probeGreet {kind : ProbeKind} {greet : Bytes}
    (h : Connection.probeGreet s kind greet = (effects, s')) : SameTimer s s' := by
  unfold Connection.probeGreet at h
  split at h <;> cases h <;> exact ⟨rfl, rfl⟩

lemma sameTimer_account {data : Bytes} {charge : Bool} {next : Phase}
    (h : Connection.account cfg s data charge next = (effects, s')) : SameTimer s s' := by
  refine ⟨?_, account_deadline h⟩
  unfold Connection.account at h
  dsimp only at h
  split at h
  · cases h
    rfl
  · split at h
    · cases h
      rfl
    · split at h <;> cases h <;> rfl

/-- A deadline is set at the entry of the relay and kept. -/
lemma timer_step (hstep : SessionStep cfg remote s e effects s') :
    SameTimer s s' ∨ s' = Connection.enterRelay cfg s := by
  cases hstep with
  | helloData hp hd hx => exact .inl (sameTimer_probeHello hx)
  | greetRead hp hx => exact .inl (sameTimer_probeGreet hx)
  | relayUp hp hd hx => exact .inl (sameTimer_account hx)
  | relayDown hp hx => exact .inl (sameTimer_account hx)
  | helloFlushed | greetSent => exact .inr rfl
  | _ => exact .inl ⟨rfl, rfl⟩

/-- The deadline, if there is one, is at most one lifetime ahead of the clock. -/
def DueSoon (cfg : Config) (s : Session) : Prop :=
  ∀ due, s.deadline = some due → due ≤ s.clock + cfg.maxLifetime

lemma dueSoon_enterRelay (s : Session) : DueSoon cfg (Connection.enterRelay cfg s) := by
  intro due hdue
  unfold Connection.enterRelay at hdue
  dsimp only at hdue
  split at hdue
  · cases hdue
  · cases hdue
    exact le_rfl

lemma dueSoon_start : DueSoon cfg (Connection.start cfg remote now) := by
  unfold Connection.start
  dsimp only
  split
  · intro due hdue
    cases hdue
  · intro due hdue
    cases hdue
  · exact dueSoon_enterRelay _

lemma dueSoon_of_runs {allowed : Session → Input → Bool}
    (hrun : Runs (guarded allowed (Connection.step cfg remote)) (Connection.start cfg remote now) trace s) :
    DueSoon cfg s := by
  refine hrun.state_invariant (P := DueSoon cfg) dueSoon_start ?_
  intro s i effects s' h hguarded
  obtain ⟨-, hstep⟩ := guarded_some hguarded
  have hle : s.clock ≤ i.time := by
    unfold Connection.step at hstep
    split at hstep
    · cases hstep
    · exact not_lt.mp ‹_›
  obtain ⟨hclock, hdeadline⟩ | rfl := timer_step (step_cases hstep)
  · intro due hdue
    rw [hclock]
    rw [hdeadline] at hdue
    exact (h due hdue).trans (Nat.add_le_add_right hle _)
  · exact dueSoon_enterRelay _

end Deadlines

/-- While both peers keep to their protocol, the bytes fit the caps, and nothing fails, a session
does not end and nothing of it is rejected, until its lifetime is over. -/
theorem session_stays_open (cfg : Config) (remote : Remote) (now : Instant) (trace : SessionTrace)
    (s : Session) (up down : Bytes)
    (hrun : Runs (guarded harmless (Connection.step cfg remote)) (Connection.start cfg remote now) trace s)
    (hup : receivedBytes trace <+: up) (hdown : readBytes trace <+: down)
    (hopens : Opens cfg remote up down) (hfits : FitsCap cfg up down)
    (hclock : s.clock + cfg.maxLifetime ≤ maxInstant) :
    ¬ Ended s.phase ∧ (∀ x ∈ trace, ∀ reason, .rejected reason ∉ x.2) ∧
      ∀ due, s.deadline = some due → due ≤ maxInstant := by
  have halive := Alive.of_runs hrun hopens hfits hup hdown
  exact ⟨halive.not_ended, halive.unrejected, fun due hdue => (dueSoon_of_runs hrun due hdue).trans hclock⟩

/-- A greeting in two reads, and a byte that the client sends behind it. -/
theorem session_stays_open_imap :
    ∃ s, Runs (guarded harmless (Connection.step {} imapRemote)) (Connection.start {} imapRemote 0)
        imapTrace s ∧
      sentPayloads imapTrace = [asciiBytes "* OK\n"] ∧ writtenBytes imapTrace = [97] ∧
      s.phase = .relay ∧ s.deadline = some (3 + fromSecs (24 * 3600)) ∧ ¬ Ended s.phase ∧
      (∀ x ∈ imapTrace, ∀ reason, .rejected reason ∉ x.2) ∧
      ∀ due, s.deadline = some due → due ≤ maxInstant := by
  have hrun : Runs (guarded harmless (Connection.step {} imapRemote)) (Connection.start {} imapRemote 0)
      imapTrace ⟨.relay, 6, some (3 + fromSecs (24 * 3600)), 1⟩ :=
    Runs.of_inputs (imapTrace.map Prod.fst) rfl
  refine ⟨_, hrun, rfl, rfl, rfl, rfl, ?_⟩
  exact session_stays_open {} imapRemote 0 imapTrace _ [97] (asciiBytes "* OK\n") hrun
    (List.prefix_refl _) (List.prefix_refl _) ⟨5, 2, by decide, by decide, by decide⟩ (.inr (by decide))
    (by decide)

end WsTcpProxy.Proofs
