import WsTcpProxy.Proofs.ProxySteps

/-!
# The process refines its parts

Seen from the requests, the process is a server; seen from the limiter, a sequence of calls; seen
from one request, its session. What holds of every run of these holds inside the process.
-/

namespace WsTcpProxy.Proofs
open Library

/-! ### The server -/

section Server

variable {d : Deployment} {now : Instant} {trace : ProxyTrace} {p p' : Proxy} {i : ProxyInput}
  {o : Observed} {id : Nat} {t t' : Task}

@[simp] lemma active_request (t : Task) : t.active.request = t.request := by
  obtain ⟨request, stage⟩ := t
  cases stage <;> rfl

lemma server_request (h : p.tasks[id]? = some t) : p.server.requests id = some t.active := by
  change p.tasks[id]?.map Task.active = _
  rw [h]
  rfl

lemma server_place (hle : id ≤ p.tasks.length) (h : p'.tasks = place p.tasks id t') :
    p'.server = { p.server with limits := p'.limits }.put id t'.active := by
  unfold Server.put Proxy.server
  congr 1
  funext id'
  rw [h]
  by_cases hid : id' = id
  · subst hid
    rw [getElem?_place_self hle, Function.update_self]
    rfl
  · rw [getElem?_place_other hid, Function.update_of_ne hid]

/-- A step that leaves the handler of a request as it is. -/
lemma server_same (ht : p.tasks[id]? = some t) (hle : id ≤ p.tasks.length)
    (h : p'.tasks = place p.tasks id t') (hactive : t'.active = t.active) :
    p'.server = { p.server with limits := p'.limits } := by
  rw [server_place hle h, hactive, Server.put]
  dsimp only
  rw [← server_request ht, Function.update_eq_self]

lemma server_open (h : p.tasks[id]? = some t) (ht : t.active.isOpen = true) :
    p.server.openRequest id = some t.active := by
  rw [Server.openRequest, server_request h, Option.filter_some, ht]
  rfl

lemma releaseLease_mem_cleanups (inProbe : Bool) : Cleanup.releaseLease ∈ cleanups inProbe := by
  cases inProbe <;> decide

lemma cleanups_nodup (inProbe : Bool) : (cleanups inProbe).Nodup := by
  cases inProbe <;> decide

lemma afterSession_active (request : Request) (u : Upgrade) (phase : Phase) (s s' : Session) :
    Task.active ⟨request, Proxy.afterSession u phase s'⟩ = Task.active ⟨request, .running u s⟩ := by
  unfold Proxy.afterSession
  split
  · dsimp only [Task.active]
    rw [decide_eq_true (releaseLease_mem_cleanups _)]
  · rfl

/-- No action at the end of a session is done twice. -/
def CleansOnce : Option Task → Prop
  | some ⟨_, .ending _ left⟩ => left.Nodup
  | _ => True

lemma CleansOnce.of_runs (h : ProxyRuns d now trace p) (id : Nat) : CleansOnce p.tasks[id]? := by
  refine task_invariant (P := fun _ _ t => CleansOnce t) (fun _ => trivial) ?_ ?_ h id
  · intro trace p i o t' limits' m' _ hstep hp
    generalize p.tasks[i.id]? = t at hstep hp
    cases hstep with
    | upgradeFailed => exact List.nodup_singleton _
    | ran hs =>
      unfold Proxy.afterSession
      split
      · exact cleanups_nodup _
      · trivial
    | cleaned hc => exact hp.of_cons
    | _ => trivial
  · intro id trace i o t _ hp
    exact hp

/-! The steps of the server that the process takes. -/

lemma server_arrives {s : Server} (h : s.requests id = none) (request : Request) :
    Server.step d s (.arrive id request) =
      some (none, s.put id ⟨request, proxyHandler d request, true⟩) := by
  rw [Server.step, h]

lemma server_answers {s : Server} {a : Active} {outcome : Outcome} {e : Answered}
    {prog : Handler Response} {limits : LimitSystem} (ha : s.openRequest id = some a)
    (hr : Server.respond s.limits id a.prog outcome = some (e, prog, limits)) :
    Server.step d s (.answer id outcome) =
      some (some (id, e), { s with limits := limits }.put id { a with prog := prog }) := by
  rw [Server.step, ha, Option.bind_some, hr]
  rfl

lemma server_drops {s : Server} {a : Active} (ha : s.openRequest id = some a)
    (hwait : Server.waitsForNetwork a.prog = true) :
    Server.step d s (.drop id) = some (none, s.put id { a with isOpen := false }) := by
  rw [Server.step, ha, Option.bind_some, if_pos hwait]

lemma server_charges {s : Server} {a : Active} {u : Upgrade} {n : Nat} {gcNow now : Instant}
    {r : Reply} {limits : LimitSystem} (ha : s.openRequest id = some a)
    (hu : Server.upgraded a.prog = some u)
    (hstep : s.limits.step (.addBytes u.client n gcNow now) = some (r, limits)) :
    Server.step d s (.charge id n gcNow now) = some (none, { s with limits := limits }) := by
  rw [Server.step, ha, Option.bind_some, hu, Option.bind_some, hstep]
  rfl

lemma server_hangsUp {s : Server} {a : Active} {u : Upgrade} {now : Instant} {r : Reply}
    {limits : LimitSystem} (ha : s.openRequest id = some a) (hu : Server.upgraded a.prog = some u)
    (hstep : s.limits.step (.drop ⟨id, u.lease⟩ now) = some (r, limits)) :
    Server.step d s (.hangUp id now) =
      some (none, { s with limits := limits }.put id { a with isOpen := false }) := by
  rw [Server.step, ha, Option.bind_some, hu, Option.bind_some, hstep]
  rfl

/-- A step of the process is a step of the server, or none. -/
theorem proxy_viewed_server (honce : CleansOnce p.tasks[i.id]?) (h : ProxyStep d p i o p') :
    Viewed (Server.step d) p.server (serverView (i, o)) p'.server := by
  obtain ⟨t', ht, htasks, hle⟩ := h
  have hplaced := server_place hle htasks
  have hsame (t : Task) (hold : p.tasks[i.id]? = some t) := server_same (t := t) hold hle htasks
  have hopen (t : Task) (hold : p.tasks[i.id]? = some t) := server_open (t := t) hold
  have habsent (hold : p.tasks[i.id]? = none) : p.server.requests i.id = none :=
    congrArg (Option.map Task.active) hold
  clear htasks
  obtain ⟨limits', tasks', metrics'⟩ := p'
  dsimp only at ht
  generalize hold : p.tasks[i.id]? = t at ht honce
  cases ht with
  | arrived =>
    rw [hplaced]
    exact server_arrives (habsent hold) _
  | answered hr =>
    rw [hplaced]
    exact server_answers (hopen _ hold rfl) hr
  | dropped hwait =>
    rw [hplaced]
    exact server_drops (hopen _ hold rfl) hwait
  | upgraded => exact hsame _ hold rfl
  | upgradeFailed => exact hsame _ hold rfl
  | ran hs =>
    rw [hsame _ hold (afterSession_active _ _ _ _ _)]
    obtain ⟨hnone, rfl, -⟩ | ⟨n, r, hcall, hstep, -⟩ := hs.limiter
    · rw [serverView, hnone]
      rfl
    · rw [serverView, hcall]
      exact server_charges (hopen _ hold rfl) rfl hstep
  | @cleaned id now request u c left o limits' hc =>
    rw [serverView, hc.observed]
    obtain ⟨hne, -, rfl⟩ | ⟨rfl, -, hstep⟩ := hc.limiter
    · have hactive : Task.active ⟨request, .ending u left⟩ =
          Task.active ⟨request, .ending u (c :: left)⟩ := by
        dsimp only [Task.active]
        congr 2
        rw [List.mem_cons, eq_false (Ne.symm hne), false_or]
      rw [if_neg (by simpa using hne)]
      exact hsame _ hold hactive
    · have hout : Cleanup.releaseLease ∉ left := (List.nodup_cons.1 honce).1
      have hactive : Task.active ⟨request, .ending u left⟩ =
          { Task.active ⟨request, .ending u (.releaseLease :: left)⟩ with isOpen := false } := by
        dsimp only [Task.active]
        rw [decide_eq_false hout]
      rw [if_pos rfl, hplaced, hactive]
      exact server_hangsUp (hopen _ hold (by simp [Task.active])) rfl hstep

/-- Seen from its requests, the process is a server. -/
theorem server_run (h : ProxyRuns d now trace p) :
    ServerRuns d now (trace.filterMap serverView) p.server :=
  h.viewed Proxy.server serverView fun _ _ _ _ _ hr hstep =>
    proxy_viewed_server (CleansOnce.of_runs hr _) (proxy_step_cases hstep)

end Server

/-! ### The limiter -/

section Limiter

variable {d : Deployment} {now : Instant} {trace : ProxyTrace} {p : Proxy} {i : ProxyInput}
  {o : Observed} {limits limits' : LimitSystem} {m m' : Metrics} {t : Option Task} {t' : Task}

lemma respond_viewed {id : Nat} {prog prog' : Handler Response} {outcome : Outcome} {e : Answered}
    (h : Server.respond limits id prog outcome = some (e, prog', limits')) :
    Viewed LimitSystem.step limits (limiterCall id outcome e) limits' := by
  unfold Server.respond at h
  split at h
  · split at h
    · rename_i hstep
      cases h
      exact hstep
    · cases h
  · split at h
    · cases h
      exact rfl
    · cases h
  · cases h
    exact rfl
  · split at h
    · rename_i hstep
      cases h
      exact hstep
    · cases h
  · cases h

/-- A step of the process is one call on the limiter, or none. -/
theorem TaskStep.viewed_limiter (h : TaskStep d limits m i o t t' limits' m') :
    Viewed LimitSystem.step limits o.limiter limits' := by
  cases h with
  | answered hr => exact respond_viewed hr
  | ran hs =>
    obtain ⟨hnone, hlimits, -⟩ | ⟨n, r, hcall, hstep, -⟩ := hs.limiter
    · rw [hnone]
      exact hlimits
    · rw [hcall]
      exact hstep
  | cleaned hc =>
    obtain ⟨-, hnone, hlimits⟩ | ⟨-, hcall, hstep⟩ := hc.limiter
    · rw [hnone]
      exact hlimits
    · rw [hcall]
      exact hstep
  | _ => exact rfl

/-- Seen from the limiter, the process is a sequence of calls. -/
theorem limiter_run (h : ProxyRuns d now trace p) :
    LimitRuns d.config.limits now (trace.filterMap limiterView) p.limits := by
  refine h.viewed Proxy.limits limiterView ?_
  intro trace p i o p' _ hstep
  obtain ⟨t', ht, -, -⟩ := proxy_step_cases hstep
  exact ht.viewed_limiter

end Limiter

/-! ### The sessions -/

/-- The session of a task has gone through one of its runs, and has ended where it is cleaned up
behind. -/
def SessionFollowed (d : Deployment) (session : SessionTrace) : Option Task → Prop
  | some ⟨_, .running u s⟩ => ∃ now, SessionRuns d.config u.remote now session s
  | some ⟨_, .ending u _⟩ => session = [] ∨
      ∃ now s, SessionRuns d.config u.remote now session s ∧ s.phase.ended = true
  | _ => session = []

section Sessions

variable {d : Deployment} {now : Instant} {trace : ProxyTrace} {p : Proxy} {i : ProxyInput}
  {o : Observed} {id : Nat}

lemma sessionOf_own (trace : ProxyTrace) (i : ProxyInput) (o : Observed) :
    sessionOf i.id (trace ++ [(i, o)]) = sessionOf i.id trace ++ o.session.toList := by
  rw [sessionOf, List.filterMap_append]
  cases h : o.session <;> simp [sessionOf, h]

lemma sessionOf_other (hid : i.id ≠ id) (trace : ProxyTrace) (o : Observed) :
    sessionOf id (trace ++ [(i, o)]) = sessionOf id trace := by
  simp [sessionOf, hid]

lemma sessionOf_quiet (trace : ProxyTrace) (i : ProxyInput) (ho : o.session = none) :
    sessionOf i.id (trace ++ [(i, o)]) = sessionOf i.id trace := by
  rw [sessionOf_own, ho]
  exact List.append_nil _

lemma followed_after {session : SessionTrace} {request : Request} {u : Upgrade} {s : Session}
    (phase : Phase) (hrun : ∃ now, SessionRuns d.config u.remote now session s) :
    SessionFollowed d session (some ⟨request, Proxy.afterSession u phase s⟩) := by
  unfold Proxy.afterSession
  split
  · obtain ⟨now, hrun⟩ := hrun
    exact .inr ⟨now, s, hrun, ‹_›⟩
  · exact hrun

/-- Seen from one request, the process is its session. -/
theorem session_run (h : ProxyRuns d now trace p) (id : Nat) :
    SessionFollowed d (sessionOf id trace) p.tasks[id]? := by
  refine task_invariant (P := fun id trace t => SessionFollowed d (sessionOf id trace) t)
    (fun _ => rfl) ?_ ?_ h id
  · intro trace p i o t' limits' m' _ hstep hp
    generalize p.tasks[i.id]? = t at hstep hp
    cases hstep with
    | arrived | answered hr | dropped hwait =>
      rw [sessionOf_quiet _ _ rfl]
      exact hp
    | @upgraded id request u now =>
      rw [sessionOf_quiet _ _ rfl, show sessionOf _ trace = [] from hp]
      exact ⟨now, .nil⟩
    | upgradeFailed =>
      rw [sessionOf_quiet _ _ rfl]
      exact .inl hp
    | ran hs =>
      obtain ⟨now, hrun⟩ := hp
      rw [sessionOf_own, hs.session]
      exact followed_after _ ⟨now, hrun.snoc hs.step⟩
    | cleaned hc =>
      rw [sessionOf_quiet _ _ (by rw [hc.observed])]
      exact hp
  · intro id trace i o t hid hp
    rw [sessionOf_other hid]
    exact hp

end Sessions

/-- Every run of the process is a run of the server in its requests, a run of the limiter in its
calls, and for each request a run of its session, which has ended where it is cleaned up behind. -/
theorem proxy_refines (d : Deployment) (now : Instant) (trace : ProxyTrace) (p : Proxy)
    (h : ProxyRuns d now trace p) :
    ServerRuns d now (trace.filterMap serverView) p.server ∧
    LimitRuns d.config.limits now (trace.filterMap limiterView) p.limits ∧
    ∀ id, SessionFollowed d (sessionOf id trace) p.tasks[id]? :=
  ⟨server_run h, limiter_run h, session_run h⟩

/-- A request whose session accepts a greeting and takes three bytes from its client. -/
def mailInputs : List ProxyInput :=
  [.arrive 0 mailRequest, .answer 0 (.limiter 1),
    .answer 0 (.resolved (.ok [⟨.v4 (.new 8 8 8 8), 143⟩])), .answer 0 (.connected (.ok ())),
    .answer 0 (.limiter 2), .upgrade 0 true 3,
    .session 0 ⟨3, .tcpRead (asBytes "* OK\r\n".toList) true⟩ 3 3, .session 0 ⟨4, .sendDone⟩ 4 4,
    .session 0 ⟨5, .wsMessage (.binary [7, 8, 9]) true⟩ 5 5]

/-- The three bytes go to the upstream in two writes. -/
def flushInputs : List ProxyInput :=
  [.session 0 ⟨5, .wrote 2⟩ 5 5, .session 0 ⟨6, .wrote 1⟩ 6 6, .session 0 ⟨7, .writeDone⟩ 7 7]

/-- The client leaves. -/
def leaveInputs : List ProxyInput :=
  .session 0 ⟨8, .wsEnd⟩ 8 8 :: List.replicate 6 (.cleanup 0 8)

theorem proxy_refines_mail :
    ∃ trace p, ProxyRuns openDeployment 0 trace p ∧
      LimitRuns openDeployment.config.limits 0 (trace.filterMap limiterView) p.limits ∧
      (trace.filterMap limiterView).length = 3 ∧
      ∃ now s, SessionRuns openDeployment.config ⟨"mail".toList, 143, none⟩ now (sessionOf 0 trace) s ∧
        s.phase = .sendTcp [7, 8, 9] := by
  have h : ProxyRuns openDeployment 0 _ _ := Runs.of_inputs mailInputs rfl
  obtain ⟨-, hlimiter, hsession⟩ := proxy_refines openDeployment 0 _ _ h
  obtain ⟨now, hrun⟩ := hsession 0
  exact ⟨_, _, h, hlimiter, rfl, now, _, hrun, rfl⟩

end WsTcpProxy.Proofs
