import WsTcpProxy.Proofs.ProbeGate

/-!
# Session lifetime

The relay consumes nothing once the lifetime is over, counted from its own start. A session that
starts with a probe starts that clock late, and the probe itself has no deadline.
-/

namespace WsTcpProxy.Proofs
open Library

def consumes : Event → Bool
  | .wsMessage _ _ => true
  | .tcpRead _ _ => true
  | _ => false

/-- Nothing was consumed later than the lifetime after the session started. -/
def LifetimeKept (cfg : Config) (started : Instant) (trace : SessionTrace) : Prop :=
  ∀ x ∈ trace, consumes x.1.event = true → x.1.time ≤ started + cfg.maxLifetime

def Unprobed (cfg : Config) (remote : Remote) : Prop :=
  cfg.requireProtocolProbe = false ∨ probeForPort remote.port = none

section Steps

variable {cfg : Config} {remote : Remote} {s s' : Session} {e : Event} {effects : List Effect}

lemma account_deadline {data : Bytes} {charge : Bool} {next : Phase}
    (h : Connection.account cfg s data charge next = (effects, s')) : s'.deadline = s.deadline := by
  unfold Connection.account at h
  dsimp only at h
  split at h
  · cases h
    rfl
  · split at h
    · cases h
      rfl
    · split at h <;> cases h <;> rfl

/-- Behind the probe the deadline stands, and only the head of the relay loop consumes. -/
lemma passed_step (hstep : SessionStep cfg remote s e effects s') (h : Passed s.phase) :
    s'.deadline = s.deadline ∧ (consumes e = true → s.phase = .relay) := by
  cases hstep with
  | relayUp hp _ hx => exact ⟨account_deadline hx, fun _ => hp⟩
  | relayDown hp hx => exact ⟨account_deadline hx, fun _ => hp⟩
  | relayControl hp => exact ⟨rfl, fun _ => hp⟩
  | relayClosed hp => exact ⟨rfl, fun _ => hp⟩
  | dataWrote | dataDone | dataFailed | messageSent | messageFailed =>
    refine ⟨rfl, ?_⟩
    rintro ⟨⟩
  | helloData hp | helloControl hp | helloRefused hp | helloPonged hp | helloWrote hp
  | helloFlushed hp | helloFailed hp | greetRead hp | greetRefused hp | greetSent hp
  | greetFailed hp =>
    rw [hp] at h
    exact h.elim

/-- The head of the relay loop consumes only before the deadline. -/
lemma relay_consumes {i : Input} {deadline : Instant}
    (h : Connection.step cfg remote s i = some (effects, s')) (hp : s.phase = .relay)
    (hd : s.deadline = some deadline) (hc : consumes i.event = true) : i.time < deadline := by
  by_contra hlate
  have hready : s.deadline.any (· ≤ i.time) = true := by
    rw [hd]
    simpa using hlate
  unfold Connection.step at h
  split at h
  · cases h
  · rw [Connection.react, hp] at h
    dsimp only [Connection.relayEvent] at h
    rw [hready, if_pos rfl] at h
    split at h
    · rename_i he
      rw [he] at hc
      cases hc
    · cases h

end Steps

/-! ### Sessions without a probe -/

/-- The relay keeps its deadline, and what was consumed was consumed before it. -/
structure Timely (due : Instant) (trace : SessionTrace) (s : Session) : Prop where
  passed : Passed s.phase
  deadline : s.deadline = some due
  consumed : ∀ x ∈ trace, consumes x.1.event = true → x.1.time < due

section Runs

variable {cfg : Config} {remote : Remote} {now : Instant} {trace : SessionTrace} {s : Session}

lemma start_unprobed (now : Instant) (h : Unprobed cfg remote) (hlife : 0 < cfg.maxLifetime) :
    (Connection.start cfg remote now).phase = .relay ∧
      (Connection.start cfg remote now).deadline = some (now + cfg.maxLifetime) := by
  have hprobe : (if cfg.requireProtocolProbe then probeForPort remote.port else none) = none := by
    obtain h | h := h
    · rw [h]
      rfl
    · rw [h]
      exact ite_self _
  rw [Connection.start, hprobe]
  exact ⟨rfl, if_neg (Nat.ne_of_gt hlife)⟩

lemma Timely.of_runs (hprobe : Unprobed cfg remote) (hlife : 0 < cfg.maxLifetime)
    (h : SessionRuns cfg remote now trace s) : Timely (now + cfg.maxLifetime) trace s := by
  obtain ⟨hphase, hdeadline⟩ := start_unprobed now hprobe hlife
  refine h.invariant (P := Timely (now + cfg.maxLifetime)) ?_ ?_
  · refine ⟨?_, hdeadline, ?_⟩
    · rw [hphase]
      trivial
    · intro x hx
      cases hx
  · intro trace s i effects s' hs hstep
    obtain ⟨hsame, hrelay⟩ := passed_step (step_cases hstep) hs.passed
    refine ⟨Passed.step (step_cases hstep) hs.passed, hsame.trans hs.deadline, ?_⟩
    intro x hx hc
    obtain hx | hx := List.mem_append.1 hx
    · exact hs.consumed x hx hc
    · rw [List.mem_singleton] at hx
      subst hx
      exact relay_consumes hstep (hrelay hc) hs.deadline hc

end Runs

/-! ### Sessions with a probe -/

/-- A session that takes a pong at time `t` and goes on waiting. -/
def TakesPong (s : Session) (t : Instant) : Prop :=
  match s.phase with
  | .probeTls _ => True
  | .relay => ∀ deadline, s.deadline = some deadline → t < deadline
  | _ => False

section Pongs

variable {cfg : Config} {remote : Remote} {now t : Instant} {trace : SessionTrace} {s : Session}

def pongAt (t : Instant) : Input := ⟨t, .wsMessage (.pong []) true⟩

lemma pong_step (h : TakesPong s t) (ht : s.clock ≤ t) :
    Connection.step cfg remote s (pongAt t) = some ([], { s with clock := t }) := by
  have hstep : Connection.step cfg remote s (pongAt t) =
      Connection.react cfg remote { s with clock := t } (pongAt t).event :=
    if_neg (Nat.not_lt.2 ht)
  rw [hstep]
  obtain ⟨phase, clock, deadline, connBytes⟩ := s
  cases phase with
  | probeTls hello => rfl
  | relay =>
    have hnot : ¬ deadline.any (· ≤ t) = true := by
      cases deadline with
      | none => simp
      | some d => simpa using h d rfl
    exact if_neg hnot
  | _ => exact h.elim

/-- Pongs one nanosecond apart keep a session going. -/
lemma pongs_run (h : SessionRuns cfg remote now trace s) (k : Nat)
    (hk : TakesPong s (s.clock + k)) :
    ∃ trace', SessionRuns cfg remote now trace' { s with clock := s.clock + k } := by
  induction k with
  | zero => exact ⟨trace, h⟩
  | succ k ih =>
    have hearlier : TakesPong s (s.clock + k) := by
      unfold TakesPong at hk ⊢
      split at hk
      · trivial
      · intro deadline hd
        exact Nat.lt_of_succ_lt (hk deadline hd)
      · exact hk.elim
    obtain ⟨trace', hrun⟩ := ih hearlier
    exact ⟨_, hrun.snoc (pong_step (s := { s with clock := s.clock + k }) hk (by simp))⟩

/-- A session that still takes a pong after the lifetime has been consumed past it. -/
lemma not_kept_of_takesPong (h : SessionRuns cfg remote now trace s)
    (hclock : s.clock ≤ now + cfg.maxLifetime + 1)
    (hk : TakesPong s (now + cfg.maxLifetime + 1)) :
    ∃ trace s, SessionRuns cfg remote now trace s ∧ ¬ LifetimeKept cfg now trace := by
  obtain ⟨k, hclock⟩ := Nat.exists_eq_add_of_le hclock
  rw [hclock] at hk
  obtain ⟨trace', hrun⟩ := pongs_run h k hk
  have hlate := hrun.snoc (pong_step (s := { s with clock := s.clock + k }) hk le_rfl)
  refine ⟨_, _, hlate, ?_⟩
  intro hkept
  have hle : s.clock + k ≤ now + cfg.maxLifetime :=
    hkept (pongAt (s.clock + k), []) (by simp) rfl
  rw [← hclock] at hle
  exact Nat.not_succ_le_self _ hle

/-- The upstream greeting that a probe of the given kind accepts. -/
def greetingOf : ProbeKind → Bytes
  | .smtpGreeting => asciiBytes "220 \n"
  | _ => asciiBytes "* \n"

/-- A greeting that comes two nanoseconds after the start moves the deadline by as much. -/
lemma greeting_run {kind : ProbeKind} (hkind : kind ≠ .tlsSni)
    (hstart : Connection.start cfg remote now = ⟨.probeGreeting kind [], now, none, 0⟩)
    (hlife : 0 < cfg.maxLifetime) :
    ∃ trace, SessionRuns cfg remote now trace
      ⟨.relay, now + 2, some (now + 2 + cfg.maxLifetime), 0⟩ := by
  have hread : Connection.step cfg remote ⟨.probeGreeting kind [], now, none, 0⟩
      ⟨now + 2, .tcpRead (greetingOf kind) true⟩ =
      some ([], ⟨.flushGreeting (greetingOf kind), now + 2, none, 0⟩) := by
    rw [Connection.step, if_neg (Nat.not_lt.2 (Nat.le_add_right _ _))]
    cases kind with
    | tlsSni => exact absurd rfl hkind
    | imapGreeting => rfl
    | smtpGreeting => rfl
  have hsend : Connection.step cfg remote ⟨.flushGreeting (greetingOf kind), now + 2, none, 0⟩
      ⟨now + 2, .sendDone⟩ = some ([.sent (.binary (greetingOf kind))],
        ⟨.relay, now + 2, some (now + 2 + cfg.maxLifetime), 0⟩) := by
    rw [Connection.step, if_neg (Nat.lt_irrefl _)]
    dsimp only [Connection.react, Connection.flushGreetingEvent, Connection.enterRelay]
    rw [if_neg (Nat.ne_of_gt hlife)]
  have h0 : SessionRuns cfg remote now [] ⟨.probeGreeting kind [], now, none, 0⟩ := hstart ▸ .nil
  exact ⟨_, (h0.snoc hread).snoc hsend⟩

lemma start_greeting {kind : ProbeKind} (hprobe : cfg.requireProtocolProbe = true)
    (hport : probeForPort remote.port = some kind) (hkind : kind ≠ .tlsSni) :
    Connection.start cfg remote now = ⟨.probeGreeting kind [], now, none, 0⟩ := by
  cases kind with
  | tlsSni => exact absurd rfl hkind
  | imapGreeting => simp [Connection.start, hprobe, hport]
  | smtpGreeting => simp [Connection.start, hprobe, hport]

lemma not_kept_of_probe (now : Instant) {kind : ProbeKind} (hprobe : cfg.requireProtocolProbe = true)
    (hport : probeForPort remote.port = some kind) (hlife : 0 < cfg.maxLifetime) :
    ∃ trace s, SessionRuns cfg remote now trace s ∧ ¬ LifetimeKept cfg now trace := by
  by_cases hkind : kind = .tlsSni
  · have hstart : Connection.start cfg remote now = ⟨.probeTls [], now, none, 0⟩ := by
      simp [Connection.start, hprobe, hport, hkind]
    have h0 : SessionRuns cfg remote now [] ⟨.probeTls [], now, none, 0⟩ := hstart ▸ .nil
    exact not_kept_of_takesPong h0 (Nat.le_add_right now (cfg.maxLifetime + 1)) trivial
  · obtain ⟨trace, h⟩ := greeting_run hkind (start_greeting hprobe hport hkind) hlife
    apply not_kept_of_takesPong h
    · change now + (1 + 1) ≤ now + (cfg.maxLifetime + 1)
      exact Nat.add_le_add_left (Nat.succ_le_succ hlife) now
    · intro deadline hd
      cases hd
      rw [Nat.add_right_comm now 2]
      exact Nat.lt_succ_self _

end Pongs

/-- A session keeps its lifetime in every run exactly when it does not start with a probe. -/
theorem lifetime_kept_iff (cfg : Config) (remote : Remote) (now : Instant)
    (hlife : 0 < cfg.maxLifetime) :
    (∀ trace s, SessionRuns cfg remote now trace s → LifetimeKept cfg now trace) ↔
      cfg.requireProtocolProbe = false ∨ probeForPort remote.port = none := by
  constructor
  · intro hall
    by_contra hprobe
    rw [not_or] at hprobe
    obtain ⟨kind, hport⟩ := Option.ne_none_iff_exists'.1 hprobe.2
    obtain ⟨trace, s, hrun, hlate⟩ :=
      not_kept_of_probe now (Bool.eq_true_of_not_eq_false hprobe.1) hport hlife
    exact hlate (hall trace s hrun)
  · intro hprobe trace s hrun x hx hc
    exact ((Timely.of_runs hprobe hlife hrun).consumed x hx hc).le

theorem lifetime_kept_iff_plain :
    ∃ trace s, SessionRuns {} ⟨"mail".toList, 4190, none⟩ 0 trace s ∧ trace.length = 1 ∧
      LifetimeKept {} 0 trace :=
  ⟨_, _, Runs.of_inputs [pongAt 5] rfl, rfl,
    (lifetime_kept_iff {} ⟨"mail".toList, 4190, none⟩ 0 (by decide)).2 (.inr rfl) _ _
      (Runs.of_inputs [pongAt 5] rfl)⟩

/-- With a lifetime of one second, the TLS probe takes a pong after two. -/
theorem lifetime_not_kept_by_probe :
    ∃ trace s, SessionRuns { maxLifetime := fromSecs 1 } ⟨"mail".toList, 993, none⟩ 0 trace s ∧
      ¬ LifetimeKept { maxLifetime := fromSecs 1 } 0 trace := by
  refine ⟨_, _, Runs.of_inputs [pongAt (fromSecs 2)] rfl, ?_⟩
  intro hkept
  exact absurd (hkept (pongAt (fromSecs 2), []) (by simp) rfl) (by decide)

end WsTcpProxy.Proofs
