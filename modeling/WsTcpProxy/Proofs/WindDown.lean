import WsTcpProxy.Proofs.ProxyResources

/-!
# Winding down

What becomes of the process once the peers close. The code awaits the answer to a ping of the TLS
probe, the Close frame of a failed probe, `ws.close` and `shutdown` without a timeout, and an idle
relay may last as long as its lifetime; so the result is about peers that close, behind which every
awaited call returns.
-/

namespace WsTcpProxy

/-- An outcome that is left to a session whose peers have closed: a read ends, fails or times out, a
write or a send goes on or fails. Reads of a closed connection return, so the relay is not idle. -/
def Session.closes (s : Session) : Event → Bool
  | .wsMessage _ _ => false
  | .tcpRead data _ => data.isEmpty
  | .wsTimeout => s.phase != .relay
  | _ => true

def Task.closes (t : Task) : ProxyInput → Bool
  | .session _ i _ _ =>
    match t.stage with
    | .running _ s => s.closes i.event
    | _ => true
  | _ => true

/-- A step of a request that has arrived, once the peers have closed. -/
def Proxy.closes (p : Proxy) (i : ProxyInput) : Bool := p.tasks[i.id]?.any (·.closes i)

/-- How far a session is from its end, with what it has left to write. -/
def Phase.distance : Phase → Nat
  | .refused | .closed => 0
  | .relay | .probeTls _ | .probeGreeting _ _ => 1
  | .probePong _ _ | .flushGreeting _ | .sendWs _ => 2
  | .flushTls rest | .sendTcp rest => 2 + rest.length

end WsTcpProxy

namespace WsTcpProxy.Proofs
open Library

/-! ### Sessions -/

section Sessions

variable {cfg : Config} {remote : Remote} {s s' : Session} {e : Event} {effects : List Effect}

lemma distance_drop {rest : Bytes} {n : Nat} (hn : n ≠ 0) (hle : n ≤ rest.length) :
    2 + (rest.drop n).length < 2 + rest.length := by
  rw [List.length_drop]
  omega

/-- What is left to write is written, or the write fails. -/
lemma distance_write {rest : Bytes}
    (h : Connection.flushTlsEvent cfg s rest e = some (effects, s') ∨
      Connection.sendTcpEvent s rest e = some (effects, s')) :
    s'.phase.distance < 2 + rest.length := by
  cases e with
  | wrote n =>
    simp only [Connection.flushTlsEvent, Connection.sendTcpEvent] at h
    by_cases hn : n = 0 ∨ rest.length < n
    · simp only [if_pos hn] at h
      obtain h | h := h <;> cases h
    · simp only [if_neg hn] at h
      rw [not_or, not_lt] at hn
      obtain h | h := h <;> cases h <;> exact distance_drop hn.1 hn.2
  | writeDone =>
    simp only [Connection.flushTlsEvent, Connection.sendTcpEvent] at h
    by_cases hrest : rest = []
    · simp only [if_pos hrest] at h
      obtain h | h := h <;> cases h <;> exact Nat.lt_add_right _ Nat.one_lt_two
    · simp only [if_neg hrest] at h
      obtain h | h := h <;> cases h
  | writeFailed => obtain h | h := h <;> cases h <;> exact Nat.lt_add_right _ Nat.two_pos
  | _ => obtain h | h := h <;> cases h

lemma distance_relay (hp : s.phase = .relay) (hcloses : s.closes e = true)
    (h : Connection.relayEvent cfg s e = some (effects, s')) : s'.phase.distance < 1 := by
  unfold Connection.relayEvent at h
  split at h
  · split at h
    · cases h
      exact Nat.one_pos
    · cases h
  · cases e with
    | wsMessage msg charge => cases hcloses
    | tcpRead data charge =>
      obtain rfl : data = [] := List.isEmpty_iff.1 hcloses
      cases h
      exact Nat.one_pos
    | wsTimeout =>
      rw [Session.closes, hp] at hcloses
      cases hcloses
    | wsError | wsEnd | tcpError =>
      cases h
      exact Nat.one_pos
    | _ => cases h

/-- Once the peers have closed, every step brings a session closer to its end. -/
lemma distance_step (hcloses : s.closes e = true)
    (h : Connection.react cfg remote s e = some (effects, s')) :
    s'.phase.distance < s.phase.distance := by
  unfold Connection.react at h
  cases hp : s.phase with
  | probeTls hello =>
    rw [hp] at h
    cases e with
    | wsMessage msg charge => cases hcloses
    | wsError | wsEnd | wsTimeout =>
      cases h
      exact Nat.one_pos
    | _ => cases h
  | probePong hello p =>
    rw [hp] at h
    cases e with
    | sendDone | sendFailed =>
      cases h
      exact Nat.one_lt_two
    | _ => cases h
  | flushTls rest =>
    rw [hp] at h
    exact distance_write (.inl h)
  | probeGreeting kind greet =>
    rw [hp] at h
    cases e with
    | tcpRead data charge =>
      obtain rfl : data = [] := List.isEmpty_iff.1 hcloses
      cases h
      exact Nat.one_pos
    | tcpError | tcpTimeout =>
      cases h
      exact Nat.one_pos
    | _ => cases h
  | flushGreeting greet =>
    rw [hp] at h
    cases e with
    | sendDone =>
      cases h
      exact Nat.one_lt_two
    | sendFailed delivered =>
      cases h
      exact Nat.two_pos
    | _ => cases h
  | relay =>
    rw [hp] at h
    exact distance_relay hp hcloses h
  | sendTcp rest =>
    rw [hp] at h
    exact @distance_write cfg _ _ _ _ _ (.inr h)
  | sendWs msg =>
    rw [hp] at h
    cases e with
    | sendDone =>
      cases h
      exact Nat.one_lt_two
    | sendFailed delivered =>
      cases h
      exact Nat.two_pos
    | _ => cases h
  | refused =>
    rw [hp] at h
    cases h
  | closed =>
    rw [hp] at h
    cases h

lemma closes_charged (ok : Bool) (e : Event) : s.closes (e.charged ok) = s.closes e := by
  cases e <;> rfl

lemma distance_charged {i : Input} {ok : Bool} (hcloses : s.closes i.event = true)
    (h : Connection.step cfg remote s (i.charged ok) = some (effects, s')) :
    s'.phase.distance < s.phase.distance := by
  unfold Connection.step at h
  split at h
  · cases h
  · have hcloses' : Session.closes { s with clock := i.time } (i.event.charged ok) = true :=
      (closes_charged ok i.event).trans hcloses
    exact @distance_step cfg remote { s with clock := i.time } s' (i.event.charged ok) effects hcloses' h

lemma start_open (cfg : Config) (remote : Remote) (now : Instant) :
    (Connection.start cfg remote now).phase.ended = false := by
  unfold Connection.start
  dsimp only
  split <;> rfl

end Sessions

/-! ### Tasks -/

/-- A step of one request once the peers have closed. -/
def ClosesTo (d : Deployment) (t' t : Task) : Prop :=
  ∃ limits m i o limits' m', t.closes i = true ∧ TaskStep d limits m i o (some t) t' limits' m'

section Tasks

variable {d : Deployment} {request : Request} {u : Upgrade}

lemma acc_gone (prog : Handler Response) : Acc (ClosesTo d) ⟨request, .gone prog⟩ := by
  constructor
  rintro t' ⟨limits, m, i, o, limits', m', -, hstep⟩
  cases hstep

lemma acc_ending (left : List Cleanup) : Acc (ClosesTo d) ⟨request, .ending u left⟩ := by
  induction left with
  | nil =>
    constructor
    rintro t' ⟨limits, m, i, o, limits', m', -, hstep⟩
    cases hstep
  | cons c left ih =>
    constructor
    rintro t' ⟨limits, m, i, o, limits', m', -, hstep⟩
    cases hstep
    exact ih

lemma acc_running (n : Nat) {s : Session} (hn : s.phase.distance < n) :
    Acc (ClosesTo d) ⟨request, .running u s⟩ := by
  induction n generalizing s with
  | zero => exact absurd hn (Nat.not_lt_zero _)
  | succ n ih =>
    constructor
    rintro t' ⟨limits, m, i, o, limits', m', hcloses, hstep⟩
    cases hstep with
    | ran hs =>
      unfold Proxy.afterSession
      split
      · exact acc_ending _
      · exact ih ((distance_charged hcloses hs.step).trans_le (Nat.le_of_lt_succ hn))

lemma respond_next {limits limits' : LimitSystem} {id : Nat} {prog prog' : Handler Response}
    {outcome : Outcome} {e : Answered}
    (h : Server.respond limits id prog outcome = some (e, prog', limits')) :
    ∃ (op : Operation) (next : op.Answer → Handler Response) (ans : op.Answer),
      prog = .perform op next ∧ prog' = next ans := by
  unfold Server.respond at h
  split at h
  · split at h
    · cases h
      exact ⟨_, _, _, rfl, rfl⟩
    · cases h
  · split at h
    · cases h
      exact ⟨_, _, _, rfl, rfl⟩
    · cases h
  · cases h
    exact ⟨_, _, _, rfl, rfl⟩
  · split at h
    · cases h
      exact ⟨_, _, _, rfl, rfl⟩
    · cases h
  · cases h

lemma acc_handling (prog : Handler Response) : Acc (ClosesTo d) ⟨request, .handling prog⟩ := by
  induction prog with
  | pure response =>
    constructor
    rintro t' ⟨limits, m, i, o, limits', m', -, hstep⟩
    cases hstep with
    | answered hr =>
      obtain ⟨_, _, _, hprog, -⟩ := respond_next hr
      cases hprog
    | dropped hwait => exact acc_gone _
    | upgraded => exact acc_running _ (Nat.lt_succ_self _)
    | upgradeFailed => exact acc_ending _
  | perform op next ih =>
    constructor
    rintro t' ⟨limits, m, i, o, limits', m', -, hstep⟩
    cases hstep with
    | answered hr =>
      obtain ⟨_, _, ans, hprog, rfl⟩ := respond_next hr
      cases hprog
      exact ih ans
    | dropped hwait => exact acc_gone _

theorem wellFounded_closesTo (d : Deployment) : WellFounded (ClosesTo d) := by
  constructor
  rintro ⟨request, stage⟩
  cases stage with
  | handling prog => exact acc_handling prog
  | gone prog => exact acc_gone prog
  | running u s => exact acc_running _ (Nat.lt_succ_self _)
  | ending u left => exact acc_ending left

end Tasks

/-! ### Enabled steps -/

/-- A session that runs has not ended. -/
def RunsOpen : Option Task → Prop
  | some ⟨_, .running _ s⟩ => s.phase.ended = false
  | _ => True

/-- The steps of the process once the peers have closed. -/
def closingStep (d : Deployment) : Proxy → ProxyInput → Option (Observed × Proxy) :=
  guarded Proxy.closes (Proxy.step d)

section Enabled

variable {d : Deployment} {now : Instant} {trace : ProxyTrace} {p p' : Proxy} {id : Nat}
  {request : Request} {u : Upgrade}

lemma RunsOpen.of_runs (h : ProxyRuns d now trace p) (id : Nat) : RunsOpen p.tasks[id]? := by
  refine task_invariant (P := fun _ _ t => RunsOpen t) (fun _ => trivial) ?_ ?_ h id
  · intro trace p i o t' limits' m' _ hstep _
    generalize p.tasks[i.id]? = t at hstep
    cases hstep with
    | upgraded => exact start_open _ _ _
    | ran hs =>
      unfold Proxy.afterSession
      split
      · trivial
      · exact Bool.eq_false_iff.2 ‹_›
    | _ => trivial
  · intro id trace i o t _ hp
    exact hp

/-- An outcome that closes an open session and asks the limiter for nothing. -/
lemma session_closes (cfg : Config) (remote : Remote) {s : Session} (h : s.phase.ended = false) :
    ∃ e effects s', s.closes e = true ∧ e.charged true = e ∧ charge effects = 0 ∧
      Connection.react cfg remote s e = some (effects, s') := by
  unfold Session.closes Connection.react
  cases hp : s.phase with
  | refused | closed =>
    rw [hp] at h
    cases h
  | probeTls hello => exact ⟨.wsEnd, _, _, rfl, rfl, rfl, rfl⟩
  | probePong hello p => exact ⟨.sendDone, _, _, rfl, rfl, rfl, rfl⟩
  | flushTls rest | sendTcp rest => exact ⟨.writeFailed, _, _, rfl, rfl, rfl, rfl⟩
  | probeGreeting kind greet => exact ⟨.tcpError, _, _, rfl, rfl, rfl, rfl⟩
  | flushGreeting greet | sendWs msg => exact ⟨.sendFailed false, _, _, rfl, rfl, rfl, rfl⟩
  | relay =>
    by_cases hdue : s.deadline.any (· ≤ s.clock) = true
    · exact ⟨.deadline, _, _, rfl, rfl, rfl, (if_pos hdue).trans (if_pos rfl)⟩
    · exact ⟨.wsEnd, _, _, rfl, rfl, rfl, if_neg hdue⟩

/-- A step of the process is left to request `id` once the peers have closed. -/
def Enabled (d : Deployment) (p : Proxy) (id : Nat) : Prop :=
  ∃ i : ProxyInput, i.id = id ∧ (closingStep d p i).isSome

lemma Enabled.of_step {t : Task} {i : ProxyInput} (ht : p.tasks[i.id]? = some t)
    (hcloses : t.closes i = true) (hstep : (Proxy.step d p i).isSome) : Enabled d p i.id := by
  have hallowed : p.closes i = true := by
    unfold Proxy.closes
    rw [ht]
    exact hcloses
  refine ⟨i, rfl, ?_⟩
  rw [closingStep, guarded, if_pos hallowed]
  exact hstep

lemma running_enabled (hp : ProxyRuns d now trace p) {s : Session}
    (ht : p.tasks[id]? = some ⟨request, .running u s⟩) : Enabled d p id := by
  have hopen := RunsOpen.of_runs hp id
  rw [ht] at hopen
  obtain ⟨e, effects, s', hcloses, hcharged, hcharge, hreact⟩ := session_closes d.config u.remote hopen
  have hstep : Connection.step d.config u.remote s ⟨s.clock, e⟩ = some (effects, s') :=
    (if_neg (lt_irrefl s.clock)).trans hreact
  apply Enabled.of_step (i := .session id ⟨s.clock, e⟩ 0 0) ht hcloses
  rw [Proxy.step, ht]
  simp only [Proxy.sessionStep, Input.charged, hcharged, hstep, Option.bind_some]
  rw [if_pos (show (effects.map Effect.charge).sum = 0 from hcharge)]
  rfl

/-- The lease behind a session can be dropped as long as it has not been. -/
lemma ending_enabled (hp : ProxyRuns d now trace p) {c : Cleanup} {left : List Cleanup}
    (ht : p.tasks[id]? = some ⟨request, .ending u (c :: left)⟩) : Enabled d p id := by
  have hclean : (p.clean id u p.limits.clock c).isSome := by
    cases c with
    | releaseLease =>
      have hheld := task_lease hp id
      rw [ht] at hheld
      have hmem : (⟨id, u.lease⟩ : HeldLease) ∈ p.server.leasesHeld id := by
        rw [hheld]
        simp [Task.lease]
      have hlive : (⟨id, u.lease⟩ : HeldLease) ∈ p.limits.live := (List.mem_filter.1 hmem).1
      unfold Proxy.clean LimitSystem.step
      dsimp only
      rw [if_pos ⟨le_rfl, hlive⟩]
      rfl
    | _ => rfl
  apply Enabled.of_step (i := .cleanup id p.limits.clock) ht rfl
  rw [Proxy.step, ht]
  simpa using hclean

/-- A limiter that is asked answers at once. -/
lemma respond_enabled {op : Operation} {next : op.Answer → Handler Response} (limits : LimitSystem)
    (id : Nat) (h : Server.waitsForNetwork (.perform op next) = false) :
    (Server.respond limits id (.perform op next) (.limiter limits.clock)).isSome := by
  cases op with
  | recordAttempt client dest | acquire client dest =>
    unfold Server.respond LimitSystem.step
    dsimp only
    rw [if_pos le_rfl]
    rfl
  | lookupHost host port | connect addr => cases h

/-- A handler that waits for the network can be dropped, any other goes on. -/
lemma handling_enabled {prog : Handler Response} (ht : p.tasks[id]? = some ⟨request, .handling prog⟩)
    (hover : Task.over ⟨request, .handling prog⟩ = false) : Enabled d p id := by
  cases prog with
  | pure response =>
    cases response with
    | upgrade u =>
      apply Enabled.of_step (i := .upgrade id false 0) ht rfl
      rw [Proxy.step, ht]
      rfl
    | _ => cases hover
  | perform op next =>
    cases hwait : Server.waitsForNetwork (.perform op next) with
    | true =>
      apply Enabled.of_step (i := .drop id) ht rfl
      rw [Proxy.step, ht]
      dsimp only
      rw [if_pos hwait]
      rfl
    | false =>
      apply Enabled.of_step (i := .answer id (.limiter p.limits.clock)) ht rfl
      rw [Proxy.step, ht]
      dsimp only
      rw [Option.isSome_map]
      exact respond_enabled p.limits id hwait

/-- A request that is not over has a step left. -/
theorem task_enabled (hp : ProxyRuns d now trace p) {t : Task} (ht : p.tasks[id]? = some t)
    (hover : t.over = false) : Enabled d p id := by
  obtain ⟨request, stage⟩ := t
  cases stage with
  | handling prog => exact handling_enabled ht hover
  | gone prog => cases hover
  | running u s => exact running_enabled hp ht
  | ending u left =>
    cases left with
    | nil => cases hover
    | cons c left => exact ending_enabled hp ht

end Enabled

/-! ### The process -/

section All

variable {d : Deployment} {now : Instant} {trace rest : ProxyTrace} {p p' : Proxy}

/-- A step that is left replaces a task by one that is closer to its end. -/
lemma replaced_of_closing {i : ProxyInput} {o : Observed} (h : closingStep d p i = some (o, p')) :
    Replaced (ClosesTo d) p'.tasks p.tasks := by
  obtain ⟨hallowed, hstep⟩ := guarded_some h
  obtain ⟨t', htask, htasks, -⟩ := proxy_step_cases hstep
  obtain ⟨t, ht, hcloses⟩ : ∃ t, p.tasks[i.id]? = some t ∧ t.closes i = true :=
    (Option.any_eq_true _ _).1 hallowed
  rw [ht] at htask
  refine ⟨i.id, t, t', ht, ⟨_, _, _, _, _, _, hcloses, htask⟩, ?_⟩
  rw [htasks, place_member ht]

lemma acc_closing (d : Deployment) (p : Proxy) : Acc (Leads (closingStep d)) p := by
  have hwf : WellFounded fun p' p : Proxy => Replaced (ClosesTo d) p'.tasks p.tasks :=
    InvImage.wf Proxy.tasks (wellFounded_replaced (wellFounded_closesTo d))
  refine Subrelation.accessible ?_ (hwf.apply p)
  rintro p' p ⟨i, o, hstep⟩
  exact replaced_of_closing hstep

lemma length_closing (h : Runs (closingStep d) p rest p') : p'.tasks.length = p.tasks.length := by
  refine h.state_invariant (P := fun q => q.tasks.length = p.tasks.length) rfl ?_
  intro q i o q' hq hstep
  obtain ⟨id, t, t', -, -, htasks⟩ := replaced_of_closing hstep
  rw [htasks, List.length_set, hq]

/-- Where nothing is left to happen, all requests are over and nothing that they took is left. -/
lemma drained_of_last (h : ProxyRuns d now trace p) (hlast : ∀ i, closingStep d p i = none) :
    (∀ t ∈ p.tasks, t.over = true) ∧ Drained p := by
  have hover : ∀ t ∈ p.tasks, t.over = true := by
    intro t ht
    obtain ⟨id, hid⟩ := List.mem_iff_getElem?.1 ht
    by_contra hopen
    obtain ⟨i, -, hi⟩ := task_enabled h hid (Bool.eq_false_iff.2 hopen)
    rw [hlast i] at hi
    cases hi
  exact ⟨hover, (Conserved.of_runs h).drained hover⟩

/-- Once the peers have closed, the process does not go on forever, in whatever order its requests
proceed; and where it stops, they are over, and the leases, the counters of the limiter and the gauge
are back at nothing. -/
theorem winds_down (d : Deployment) (now : Instant) (trace : ProxyTrace) (p : Proxy)
    (h : ProxyRuns d now trace p) :
    (¬ ∃ run : ℕ → Proxy, run 0 = p ∧ ∀ n, Leads (closingStep d) (run (n + 1)) (run n)) ∧
    (∃ rest p', Runs (closingStep d) p rest p' ∧ ∀ i, closingStep d p' i = none) ∧
    ∀ rest p', Runs (closingStep d) p rest p' → (∀ i, closingStep d p' i = none) →
      p'.tasks.length = p.tasks.length ∧ (∀ t ∈ p'.tasks, t.over = true) ∧ Drained p' := by
  have hacc := acc_closing d p
  refine ⟨hacc.no_infinite_run, hacc.exists_last, ?_⟩
  intro rest p' hrun hlast
  obtain ⟨hover, hdrained⟩ := drained_of_last (h.append hrun.unguarded) hlast
  exact ⟨length_closing hrun, hover, hdrained⟩

/-- The process with a session in the middle of a message winds down. -/
theorem winds_down_mail :
    ∃ trace p, ProxyRuns openDeployment 0 trace p ∧ p.metrics.activeConnections = 1 ∧
      ∃ rest p', Runs (closingStep openDeployment) p rest p' ∧ p'.tasks.length = 1 ∧ Drained p' := by
  have h : ProxyRuns openDeployment 0 _ _ := Runs.of_inputs mailInputs rfl
  obtain ⟨-, ⟨rest, p', hrun, hlast⟩, hdown⟩ := winds_down openDeployment 0 _ _ h
  obtain ⟨hlength, -, hdrained⟩ := hdown rest p' hrun hlast
  exact ⟨_, _, h, rfl, rest, p', hrun, hlength, hdrained⟩

end All

end WsTcpProxy.Proofs
