import WsTcpProxy.Proofs.ProxyRefinement

/-!
# Resources of the process

At every point of every run, the leases, the counters of the limiter and the gauge of active
connections are accounted for by the tasks, and every request is counted as rejected at most once.
-/

namespace WsTcpProxy

/-- The lease that a task is responsible for. -/
def Task.lease (t : Task) : Option ConnectionLease :=
  match t.stage with
  | .handling (.pure (.upgrade u)) => some u.lease
  | .running u _ => some u.lease
  | .ending u left => if Cleanup.releaseLease ∈ left then some u.lease else none
  | _ => none

/-- The task is to perform an action of the end of a session which it has begun. -/
def Task.owes (c : Cleanup) (t : Task) : Bool :=
  match t.stage with
  | .running _ _ => true
  | .ending _ left => decide (c ∈ left)
  | _ => false

def Metrics.connectionsTotal (m : Metrics) : Nat :=
  m.connections .imap + m.connections .imaps + m.connections .smtps + m.connections .submission +
    m.connections .other

/-- Nothing is left to be done for the request. -/
def Task.over (t : Task) : Bool :=
  match t.stage with
  | .handling (.pure (.upgrade _)) => false
  | .handling (.pure _) => true
  | .gone _ => true
  | .ending _ [] => true
  | _ => false

end WsTcpProxy

namespace WsTcpProxy.Proofs
open Library

section Leases

variable {d : Deployment} {now : Instant} {trace : ProxyTrace} {p : Proxy} {id : Nat}

/-- Each task holds the lease that it is responsible for, and no other. -/
theorem task_lease (h : ProxyRuns d now trace p) (id : Nat) :
    p.server.leasesHeld id = ((p.tasks[id]?.bind Task.lease).map (HeldLease.mk id)).toList := by
  have ht := Tracked.of_runs (server_run h) id
  cases htask : p.tasks[id]? with
  | none =>
    have habsent : p.server.requests id = none := congrArg (Option.map Task.active) htask
    exact (ht.absent habsent).2
  | some t =>
    have hactive := server_request htask
    have hleased (u : Upgrade) (hu : t.active.prog = .pure (.upgrade u)) :
        p.server.leasesHeld id = if t.active.isOpen then [⟨id, u.lease⟩] else [] := by
      rw [ht.held _ hactive, heldFor, (ht.upgrade hactive hu).2.2.1]
      rfl
    have hunleased (hu : Server.upgraded t.active.prog = none) : p.server.leasesHeld id = [] :=
      ht.unleased hactive hu
    obtain ⟨request, stage⟩ := t
    cases stage with
    | handling prog =>
      cases prog with
      | perform op next => exact hunleased rfl
      | pure response =>
        cases response with
        | upgrade u => exact hleased u rfl
        | _ => exact hunleased rfl
    | gone prog => exact ht.held _ hactive
    | running u s => exact hleased u rfl
    | ending u left =>
      rw [hleased u rfl]
      by_cases hmem : Cleanup.releaseLease ∈ left
      · simp [Task.active, Task.lease, hmem]
      · simp [Task.active, Task.lease, hmem]

/-- The live leases are those of the tasks. -/
theorem live_perm (h : ProxyRuns d now trace p) :
    (p.limits.live.map fun l => (l.holder, l.lease)).Perm (holdings Task.lease p.tasks) := by
  apply perm_of_filter_eq Prod.fst
  intro id
  have hid := task_lease h id
  rw [holdings_filter, List.filter_map]
  change List.map _ (p.server.leasesHeld id) = _
  rw [hid]
  cases p.tasks[id]?.bind Task.lease <;> rfl

/-- Counting live leases is counting the tasks that hold one. -/
lemma live_countP (h : ProxyRuns d now trace p) (q : ConnectionLease → Bool) :
    p.limits.live.countP (fun l => q l.lease) = p.tasks.countP fun t => t.lease.any q := by
  rw [← holdings_countP Task.lease q, ← (live_perm h).countP_eq, List.countP_map]
  rfl

end Leases

/-! ### The gauge and the counters -/

section Metrics

variable {d : Deployment} {limits limits' : LimitSystem} {m m' : Metrics} {i : ProxyInput}
  {o : Observed} {t : Option Task} {t' : Task}

/-- What does not belong to the rejects. -/
structure SameCounts (m m' : Metrics) : Prop where
  active : m'.activeConnections = m.activeConnections
  connections : m'.connections = m.connections
  durations : m'.durations = m.durations

lemma incRejects_counts (m : Metrics) (reasons : List RejectReason) :
    SameCounts m (m.incRejects reasons) := by
  induction reasons generalizing m with
  | nil => exact ⟨rfl, rfl, rfl⟩
  | cons reason reasons ih =>
    obtain ⟨ha, hc, hd⟩ := ih (m.incReject reason)
    exact ⟨ha, hc, hd⟩

lemma SameCounts.total (h : SameCounts m m') : m'.connectionsTotal = m.connectionsTotal := by
  rw [Metrics.connectionsTotal, h.connections]
  rfl

lemma connectionsTotal_inc (m : Metrics) (port : PortClass) :
    (m.incConnections port).connectionsTotal = m.connectionsTotal + 1 := by
  cases port <;> simp [Metrics.connectionsTotal, Metrics.incConnections, Function.update] <;> omega

/-- The share of a task in those that are to perform `c`. -/
def owing (c : Cleanup) (t : Task) : Int := if t.owes c then 1 else 0

/-- A session that runs or has just ended is to leave the gauge and to be observed. -/
lemma owing_afterSession {c : Cleanup} (hc : c = .observeDuration ∨ c = .leaveGauge)
    (request : Request) (u : Upgrade) (phase : Phase) (s' : Session) :
    owing c ⟨request, Proxy.afterSession u phase s'⟩ = 1 := by
  unfold Proxy.afterSession
  split
  · obtain rfl | rfl := hc <;> cases phase.inProbe <;> rfl
  · rfl

lemma owing_cleaned (c c' : Cleanup) {left : List Cleanup} (h : (c' :: left).Nodup)
    (request : Request) (u : Upgrade) :
    (if c' = c then 1 else 0) + owing c ⟨request, .ending u left⟩ =
      owing c ⟨request, .ending u (c' :: left)⟩ := by
  unfold owing Task.owes
  obtain rfl | hne := eq_or_ne c' c
  · simp [(List.nodup_cons.1 h).1]
  · simp [hne, hne.symm]

/-- The gauge and the observed durations move with the tasks that are to leave and to be observed. -/
lemma TaskStep.owing_step (h : TaskStep d limits m i o t t' limits' m') (honce : CleansOnce t) :
    m'.activeConnections + share (owing .leaveGauge) t =
        m.activeConnections + owing .leaveGauge t' ∧
      (m'.connectionsTotal : Int) - m'.durations + share (owing .observeDuration) t =
        m.connectionsTotal - m.durations + owing .observeDuration t' := by
  cases h with
  | arrived | answered hr =>
    have hcounts := incRejects_counts m
    rw [(hcounts _).active, (hcounts _).total, (hcounts _).durations]
    exact ⟨rfl, rfl⟩
  | dropped hwait | upgradeFailed => exact ⟨rfl, rfl⟩
  | upgraded =>
    rw [connectionsTotal_inc]
    constructor
    · change m.activeConnections + 1 + 0 = m.activeConnections + 1
      omega
    · change ((m.connectionsTotal + 1 : ℕ) : Int) - m.durations + 0 =
        m.connectionsTotal - m.durations + 1
      omega
  | ran hs =>
    have hcounts := incRejects_counts m o.rejects
    rw [hcounts.active, hcounts.total, hcounts.durations, owing_afterSession (.inr rfl),
      owing_afterSession (.inl rfl)]
    exact ⟨rfl, rfl⟩
  | @cleaned id now request u c left o limits' hc =>
    have hleave := owing_cleaned .leaveGauge c honce request u
    have hobserve := owing_cleaned .observeDuration c honce request u
    dsimp only [share]
    rw [← hleave, ← hobserve]
    cases c with
    | observeDuration =>
      refine ⟨by simp [cleanMetrics, Metrics.observeDuration], ?_⟩
      change (m.connectionsTotal : Int) - (m.durations + 1 : ℕ) + (1 + _) = _
      omega
    | leaveGauge =>
      refine ⟨?_, by simp [cleanMetrics, Metrics.addActive, Metrics.connectionsTotal]⟩
      change m.activeConnections + (-1) + (1 + _) = _
      omega
    | _ => simp [cleanMetrics]

/-- The gauge counts the sessions that have begun and not yet left it. -/
theorem gauge_counts {now : Instant} {trace : ProxyTrace} {p : Proxy}
    (h : ProxyRuns d now trace p) :
    p.metrics.activeConnections = p.tasks.countP (Task.owes .leaveGauge) ∧
      p.metrics.connectionsTotal =
        p.metrics.durations + p.tasks.countP (Task.owes .observeDuration) := by
  have htotals : p.metrics.activeConnections = total (owing .leaveGauge) p.tasks ∧
      (p.metrics.connectionsTotal : Int) - p.metrics.durations =
        total (owing .observeDuration) p.tasks := by
    refine h.reachable_invariant (P := fun _ p =>
      p.metrics.activeConnections = total (owing .leaveGauge) p.tasks ∧
        (p.metrics.connectionsTotal : Int) - p.metrics.durations =
          total (owing .observeDuration) p.tasks) ⟨rfl, rfl⟩ ?_
    rintro trace p i o p' hr ⟨hactive, hobserved⟩ hstep
    obtain ⟨t', ht, htasks, hle⟩ := proxy_step_cases hstep
    obtain ⟨hleave, hobserve⟩ := ht.owing_step (CleansOnce.of_runs hr _)
    have hplace (c : Cleanup) := total_place (owing c) hle t'
    have hl := hplace .leaveGauge
    have ho := hplace .observeDuration
    rw [htasks]
    omega
  have hcount (c : Cleanup) : total (owing c) p.tasks = p.tasks.countP (Task.owes c) :=
    total_countP (Task.owes c) p.tasks
  rw [hcount, hcount] at htotals
  omega

end Metrics

/-! ### Conservation -/

/-- What the limiter and the metrics hold is accounted for by the tasks. -/
structure Conserved (p : Proxy) : Prop where
  leases : (p.limits.live.map fun l => (l.holder, l.lease)).Perm (holdings Task.lease p.tasks)
  global : p.limits.limits.globalConnections = p.tasks.countP fun t => t.lease.isSome
  perIp : ∀ k, (p.limits.limits.row k).connections =
    p.tasks.countP fun t => t.lease.any fun l => l.ip = k
  perDest : ∀ dest, p.limits.limits.perDest.rowD dest 0 =
    p.tasks.countP fun t => t.lease.any fun l => l.dest = dest
  listed : ∀ dest, dest ∈ p.limits.limits.perDest ↔
    ∃ t ∈ p.tasks, ∃ l, t.lease = some l ∧ l.dest = dest
  gauge : p.metrics.activeConnections = p.tasks.countP (Task.owes .leaveGauge)
  sessions : p.metrics.connectionsTotal =
    p.metrics.durations + p.tasks.countP (Task.owes .observeDuration)

/-- Everything that requests take is given back. -/
structure Drained (p : Proxy) : Prop where
  live : p.limits.live = []
  global : p.limits.limits.globalConnections = 0
  perIp : ∀ k, (p.limits.limits.row k).connections = 0
  perDest : ∀ dest, dest ∉ p.limits.limits.perDest
  gauge : p.metrics.activeConnections = 0
  sessions : p.metrics.connectionsTotal = p.metrics.durations

section Conservation

variable {d : Deployment} {now : Instant} {trace : ProxyTrace} {p : Proxy}

lemma Conserved.of_runs (h : ProxyRuns d now trace p) : Conserved p := by
  have hledger := LeaseLedger.of_runs (limiter_run h)
  have hcount := live_countP h
  obtain ⟨hgauge, hsessions⟩ := gauge_counts h
  have hdest (dest : Str) : leasesTo p.limits.live dest =
      p.tasks.countP fun t => t.lease.any fun l => l.dest = dest := hcount fun l => l.dest = dest
  refine ⟨live_perm h, ?_, ?_, ?_, ?_, hgauge, hsessions⟩
  · rw [hledger.global]
    have hall := hcount fun _ => true
    rw [List.countP_true] at hall
    rw [hall]
    congr 1
  · intro k
    rw [hledger.perIp k]
    exact hcount fun l => l.ip = k
  · intro dest
    rw [AList.rowD, hledger.perDest dest, ← hdest dest]
    split
    · rename_i hzero
      rw [hzero]
      rfl
    · rfl
  · intro dest
    rw [← AList.lookup_isSome, hledger.perDest dest, hdest dest]
    have hpos : (p.tasks.countP fun t => t.lease.any fun l => l.dest = dest) ≠ 0 ↔
        ∃ t ∈ p.tasks, ∃ l, t.lease = some l ∧ l.dest = dest := by
      rw [← Nat.pos_iff_ne_zero, List.countP_pos_iff]
      simp [Option.any_eq_true]
    rw [← hpos]
    split <;> simp_all

lemma Task.over_free {t : Task} (h : t.over = true) :
    t.lease = none ∧ ∀ c, t.owes c = false := by
  obtain ⟨request, stage⟩ := t
  cases stage with
  | handling prog =>
    cases prog with
    | perform op next => cases h
    | pure response =>
      cases response with
      | upgrade u => cases h
      | _ => exact ⟨rfl, fun _ => rfl⟩
  | gone prog => exact ⟨rfl, fun _ => rfl⟩
  | running u s => cases h
  | ending u left =>
    cases left with
    | nil => exact ⟨rfl, fun _ => rfl⟩
    | cons c left => cases h

lemma Conserved.drained (h : Conserved p) (hover : ∀ t ∈ p.tasks, t.over = true) : Drained p := by
  have hnone (q : Task → Bool) (hq : ∀ t, t.over = true → q t = false) : p.tasks.countP q = 0 := by
    rw [List.countP_eq_zero]
    intro t ht
    rw [hq t (hover t ht)]
    decide
  have hlease (q : ConnectionLease → Bool) : p.tasks.countP (fun t => t.lease.any q) = 0 :=
    hnone _ fun t ht => by rw [(Task.over_free ht).1]; rfl
  have howes (c : Cleanup) : p.tasks.countP (Task.owes c) = 0 :=
    hnone _ fun t ht => (Task.over_free ht).2 c
  have hglobal : p.limits.limits.globalConnections = 0 := by
    rw [h.global]
    exact hnone _ fun t ht => by rw [(Task.over_free ht).1]; rfl
  refine ⟨?_, hglobal, ?_, ?_, ?_, ?_⟩
  · have hlen : (holdings Task.lease p.tasks).length = 0 := by
      rw [← congrFun List.countP_true, holdings_countP _ fun _ => true]
      exact hlease _
    have hperm := h.leases.length_eq
    rw [hlen, List.length_map, List.length_eq_zero_iff] at hperm
    exact hperm
  · intro k
    rw [h.perIp k]
    exact hlease _
  · intro dest hmem
    obtain ⟨t, ht, l, hl, -⟩ := (h.listed dest).1 hmem
    rw [(Task.over_free (hover t ht)).1] at hl
    cases hl
  · rw [h.gauge, howes]
    rfl
  · rw [h.sessions, howes, Nat.add_zero]

/-- The leases, the counts of the limiter and the gauge are those of the tasks at every point of
every run, and nothing of them is left once every request is over. -/
theorem resources_conserved (d : Deployment) (now : Instant) (trace : ProxyTrace) (p : Proxy)
    (h : ProxyRuns d now trace p) :
    Conserved p ∧ ((∀ t ∈ p.tasks, t.over = true) → Drained p) :=
  ⟨Conserved.of_runs h, (Conserved.of_runs h).drained⟩

theorem resources_conserved_mail :
    (∃ trace p, ProxyRuns openDeployment 0 trace p ∧ p.metrics.activeConnections = 1 ∧
      Conserved p) ∧
    ∃ trace p, ProxyRuns openDeployment 0 trace p ∧ p.tasks.length = 1 ∧ Drained p := by
  constructor
  · have h : ProxyRuns openDeployment 0 _ _ := Runs.of_inputs mailInputs rfl
    exact ⟨_, _, h, rfl, (resources_conserved openDeployment 0 _ _ h).1⟩
  · have h : ProxyRuns openDeployment 0 _ _ :=
      Runs.of_inputs (mailInputs ++ flushInputs ++ leaveInputs) rfl
    exact ⟨_, _, h, rfl, (resources_conserved openDeployment 0 _ _ h).2 (List.all_eq_true.1 rfl)⟩

end Conservation

/-! ### Rejects -/

/-- The reasons that were counted for request `id`. -/
def rejectsOf (id : Nat) (trace : ProxyTrace) : List RejectReason :=
  trace.flatMap fun (i, o) => if i.id = id then o.rejects else []

/-- A step of a session counts a reason only when it ends the session, and then one. -/
def RejectsAtEnd (effects : List Effect) (s' : Session) : Prop :=
  effects.filterMap Effect.rejection = [] ∨
    s'.phase.ended = true ∧ ∃ reason, effects.filterMap Effect.rejection = [reason]

section SessionRejects

variable {cfg : Config} {remote : Remote} {s s' : Session} {e : Event} {effects : List Effect}

lemma rejectsAtEnd_nil (s' : Session) : RejectsAtEnd [] s' := .inl rfl

lemma rejectsAtEnd_sent (delivered : Bool) (msg : Message) (s' : Session) :
    RejectsAtEnd (if delivered then [.sent msg] else []) s' := by
  cases delivered <;> exact .inl rfl

lemma rejectsAtEnd_account {data : Bytes} {ok : Bool} {next : Phase}
    (h : Connection.account cfg s data ok next = (effects, s')) : RejectsAtEnd effects s' := by
  unfold Connection.account at h
  dsimp only at h
  split at h
  · cases h
    exact .inr ⟨rfl, _, rfl⟩
  · split at h
    · cases h
      exact rejectsAtEnd_nil _
    · split at h
      · cases h
        exact .inl rfl
      · cases h
        exact .inr ⟨rfl, _, rfl⟩

lemma rejectsAtEnd_probeHello {hello : Bytes}
    (h : Connection.probeHello remote s hello = (effects, s')) : RejectsAtEnd effects s' := by
  unfold Connection.probeHello at h
  split at h
  · cases h
    exact rejectsAtEnd_nil _
  · cases h
    exact rejectsAtEnd_nil _
  · cases h
    exact .inr ⟨rfl, _, rfl⟩

lemma rejectsAtEnd_probeGreet {kind : ProbeKind} {greet : Bytes}
    (h : Connection.probeGreet s kind greet = (effects, s')) : RejectsAtEnd effects s' := by
  unfold Connection.probeGreet at h
  split at h
  · cases h
    exact rejectsAtEnd_nil _
  · cases h
    exact rejectsAtEnd_nil _
  · cases h
    exact .inr ⟨rfl, _, rfl⟩

lemma rejectsAtEnd_relay (h : Connection.relayEvent cfg s e = some (effects, s')) :
    RejectsAtEnd effects s' := by
  unfold Connection.relayEvent at h
  split at h
  · split at h
    · cases h
      exact .inr ⟨rfl, _, rfl⟩
    · cases h
  · cases e with
    | wsMessage msg ok =>
      cases msg with
      | binary data => exact rejectsAtEnd_account (Option.some.inj h)
      | text t => exact rejectsAtEnd_account (Option.some.inj h)
      | _ =>
        cases h
        exact rejectsAtEnd_nil _
    | tcpRead data ok =>
      rw [Connection.relayArms] at h
      split at h
      · cases h
      · split at h
        · cases h
          exact rejectsAtEnd_nil _
        · exact rejectsAtEnd_account (Option.some.inj h)
    | wsError | wsEnd | wsTimeout | tcpError =>
      cases h
      exact rejectsAtEnd_nil _
    | _ => cases h

/-- The rejects that the inversion of a step leaves open are those of the relay and of a pong. -/
lemma rejectsAtEnd_react (h : Connection.react cfg remote s e = some (effects, s')) :
    RejectsAtEnd effects s' := by
  cases react_cases h with
  | helloData hp hd hx => exact rejectsAtEnd_probeHello hx
  | helloPonged hp he hr hq =>
    unfold Connection.react at h
    rw [hp] at h
    cases e with
    | sendDone =>
      cases h
      exact .inl rfl
    | sendFailed delivered =>
      cases h
      exact rejectsAtEnd_sent _ _ _
    | _ => cases h
  | helloRefused hp he hr => exact .inr ⟨rfl, _, rfl⟩
  | helloFailed hp => exact .inr ⟨rfl, _, rfl⟩
  | greetRead hp hx => exact rejectsAtEnd_probeGreet hx
  | greetRefused hp he hr => exact .inr ⟨rfl, _, rfl⟩
  | @greetFailed greet delivered hp => cases delivered <;> exact .inr ⟨rfl, _, rfl⟩
  | relayUp hp hd hx => exact rejectsAtEnd_account hx
  | relayDown hp hx => exact rejectsAtEnd_account hx
  | relayClosed hp he hr hq =>
    unfold Connection.react at h
    rw [hp] at h
    exact rejectsAtEnd_relay h
  | messageFailed hp => exact rejectsAtEnd_sent _ _ _
  | _ => exact .inl rfl

lemma rejectsAtEnd_step {i : Input} (h : Connection.step cfg remote s i = some (effects, s')) :
    RejectsAtEnd effects s' := by
  unfold Connection.step at h
  split at h
  · cases h
  · exact rejectsAtEnd_react h

end SessionRejects

/-! ### Requests -/

/-- How far a request has been counted: not at all while it may still be turned away, and then at
most once. -/
def CountedOnce (reasons : List RejectReason) : Option Task → Prop
  | some ⟨_, .handling prog⟩ => reasons = rejection prog
  | some ⟨_, .ending _ _⟩ => reasons.length ≤ 1
  | _ => reasons = []

section Requests

variable {d : Deployment} {now : Instant} {trace : ProxyTrace} {p : Proxy} {i : ProxyInput}
  {o : Observed} {id : Nat}

lemma rejectsOf_own (trace : ProxyTrace) (i : ProxyInput) (o : Observed) :
    rejectsOf i.id (trace ++ [(i, o)]) = rejectsOf i.id trace ++ o.rejects := by
  simp [rejectsOf]

lemma rejectsOf_other (hid : i.id ≠ id) (trace : ProxyTrace) (o : Observed) :
    rejectsOf id (trace ++ [(i, o)]) = rejectsOf id trace := by
  simp [rejectsOf, hid]

/-- A handler that waits has counted nothing. -/
lemma rejection_respond {limits limits' : LimitSystem} {prog prog' : Handler Response}
    {outcome : Outcome} {e : Answered}
    (h : Server.respond limits id prog outcome = some (e, prog', limits')) : rejection prog = [] := by
  unfold Server.respond at h
  split at h
  · rfl
  · rfl
  · rfl
  · rfl
  · cases h

lemma rejection_waits {prog : Handler Response} (h : Server.waitsForNetwork prog = true) :
    rejection prog = [] := by
  cases prog with
  | pure response => cases h
  | perform op next => rfl

lemma countedOnce_after {request : Request} {u : Upgrade} {effects : List Effect} {s' : Session}
    (phase : Phase) (h : RejectsAtEnd effects s') :
    CountedOnce (effects.filterMap Effect.rejection)
      (some ⟨request, Proxy.afterSession u phase s'⟩) := by
  unfold Proxy.afterSession
  obtain hnone | ⟨hended, reason, hone⟩ := h
  · rw [hnone]
    split
    · exact Nat.zero_le 1
    · rfl
  · rw [hended, hone]
    exact le_rfl

theorem counted_once (h : ProxyRuns d now trace p) (id : Nat) :
    CountedOnce (rejectsOf id trace) p.tasks[id]? := by
  refine task_invariant (P := fun id trace t => CountedOnce (rejectsOf id trace) t)
    (fun _ => rfl) ?_ ?_ h id
  · intro trace p i o t' limits' m' _ hstep hp
    generalize p.tasks[i.id]? = t at hstep hp
    rw [rejectsOf_own]
    cases hstep with
    | arrived =>
      rw [show rejectsOf _ trace = [] from hp]
      rfl
    | answered hr =>
      rw [show rejectsOf _ trace = [] from hp.trans (rejection_respond hr)]
      rfl
    | dropped hwait =>
      rw [show rejectsOf _ trace = [] from hp.trans (rejection_waits hwait)]
      rfl
    | upgraded =>
      rw [show rejectsOf _ trace = [] from hp]
      rfl
    | upgradeFailed =>
      rw [show rejectsOf _ trace = [] from hp]
      exact Nat.zero_le 1
    | ran hs =>
      rw [show rejectsOf _ trace = [] from hp, hs.rejects]
      exact countedOnce_after _ (rejectsAtEnd_step hs.step)
    | cleaned hc =>
      rw [hc.observed, List.append_nil]
      exact hp
  · intro id trace i o t hid hp
    rw [rejectsOf_other hid]
    exact hp

lemma incRejects_rejects (m : Metrics) (reasons : List RejectReason) (reason : RejectReason) :
    (m.incRejects reasons).rejects reason = m.rejects reason + reasons.count reason := by
  induction reasons generalizing m with
  | nil => rfl
  | cons r reasons ih =>
    change ((m.incReject r).incRejects reasons).rejects reason = _
    rw [ih, List.count_cons]
    by_cases hr : r = reason
    · subst hr
      simp [Metrics.incReject]
      omega
    · simp [Metrics.incReject, hr, Function.update_of_ne (Ne.symm hr)]

lemma TaskStep.rejects_eq {limits limits' : LimitSystem} {m m' : Metrics} {t : Option Task}
    {t' : Task} (h : TaskStep d limits m i o t t' limits' m') (reason : RejectReason) :
    m'.rejects reason = m.rejects reason + o.rejects.count reason := by
  cases h with
  | arrived | answered hr | ran hs => exact incRejects_rejects m _ reason
  | @cleaned id now request u c left o limits' hc =>
    rw [hc.observed]
    cases c <;> rfl
  | _ => rfl

/-- The counter of a reason sums up what was counted for each request. -/
lemma rejects_total (h : ProxyRuns d now trace p) (reason : RejectReason) {n : Nat}
    (hn : p.tasks.length ≤ n) :
    p.metrics.rejects reason = ∑ id ∈ Finset.range n, (rejectsOf id trace).count reason := by
  revert hn
  refine h.reachable_invariant (P := fun trace p => p.tasks.length ≤ n →
    p.metrics.rejects reason = ∑ id ∈ Finset.range n, (rejectsOf id trace).count reason) ?_ ?_
  · intro _
    simp [rejectsOf, Proxy.start]
  · intro trace p i o p' _ hp hstep hn
    obtain ⟨t', ht, htasks, hle⟩ := proxy_step_cases hstep
    rw [htasks, length_place hle] at hn
    have hother : ∀ id, id ≠ i.id → (rejectsOf id (trace ++ [(i, o)])).count reason =
        (rejectsOf id trace).count reason := by
      intro id hid
      rw [rejectsOf_other (Ne.symm hid)]
    have hown : (rejectsOf i.id (trace ++ [(i, o)])).count reason =
        (rejectsOf i.id trace).count reason + o.rejects.count reason := by
      rw [rejectsOf_own, List.count_append]
    rw [ht.rejects_eq reason, hp (by omega), sum_range_step (by omega) hother hown]

/-- Every request is counted as rejected at most once: by its handler when that turns it away, or
when its session ends. The counter of a reason is the number of requests turned away for it. -/
theorem rejects_counted_once (d : Deployment) (now : Instant) (trace : ProxyTrace) (p : Proxy)
    (h : ProxyRuns d now trace p) :
    (∀ id, (rejectsOf id trace).length ≤ 1) ∧
    (∀ (id : Nat) request prog, p.tasks[id]? = some ⟨request, .handling prog⟩ →
      rejectsOf id trace = rejection prog) ∧
    (∀ (id : Nat) request u s, p.tasks[id]? = some ⟨request, .running u s⟩ →
      rejectsOf id trace = []) ∧
    ∀ reason, p.metrics.rejects reason =
      ((Finset.range p.tasks.length).filter fun id => rejectsOf id trace = [reason]).card := by
  have hcounted := counted_once h
  have hone (id : Nat) : (rejectsOf id trace).length ≤ 1 := by
    have hid := hcounted id
    unfold CountedOnce at hid
    split at hid
    · rename_i prog _
      rw [hid]
      unfold rejection
      split
      · exact le_rfl
      · exact Nat.zero_le 1
    · exact hid
    · rw [hid]
      exact Nat.zero_le 1
  refine ⟨hone, ?_, ?_, ?_⟩
  · intro id request prog ht
    have hid := hcounted id
    rw [ht] at hid
    exact hid
  · intro id request u s ht
    have hid := hcounted id
    rw [ht] at hid
    exact hid
  · intro reason
    rw [rejects_total h reason le_rfl, Finset.card_filter]
    refine Finset.sum_congr rfl fun id _ => ?_
    have hlen := hone id
    generalize rejectsOf id trace = reasons at hlen
    rcases reasons with _ | ⟨r, _ | ⟨r', l⟩⟩
    · rfl
    · rw [List.count_singleton]
      simp
    · simp at hlen

/-- A session that its greeting ends is counted once, and so is a request to a forbidden port. -/
theorem rejects_counted_once_mail :
    ∃ trace p, ProxyRuns openDeployment 0 trace p ∧ rejectsOf 0 trace = [.proto] ∧
      rejectsOf 1 trace = [.badPort] ∧ p.metrics.rejects .proto =
        ((Finset.range p.tasks.length).filter fun id => rejectsOf id trace = [.proto]).card := by
  have h : ProxyRuns openDeployment 0 _ _ := Runs.of_inputs
    (mailInputs.take 6 ++ [.session 0 ⟨3, .tcpRead [] true⟩ 3 3,
      .arrive 1 { mailRequest with query := { remote := "mail:22".toList } }]) rfl
  exact ⟨_, _, h, rfl, rfl, (rejects_counted_once openDeployment 0 _ _ h).2.2.2 .proto⟩

end Requests

end WsTcpProxy.Proofs
