import WsTcpProxy.Proxy
import WsTcpProxy.Library.Population
import WsTcpProxy.Proofs.DialSafety
import WsTcpProxy.Proofs.SessionBytes

/-!
# Steps of the process

Everything a step of the process can do to the request it belongs to, to the limiter and to the
metrics; the other requests stay as they are.
-/

namespace WsTcpProxy.Proofs
open Library

/-! ### Sessions at the limiter -/

/-- A step of a session with the limiter's answer `ok` in it. It charges what the limiter was
asked for and granted. -/
structure SessionStepped (cfg : Config) (u : Upgrade) (s : Session) (limits : LimitSystem)
    (i : Input) (gcNow now : Instant) (o : Observed) (s' : Session) (limits' : LimitSystem)
    (ok : Bool) (effects : List Effect) : Prop where
  answered : o.answered = none
  cleaned : o.cleaned = none
  session : o.session = some (i.charged ok, effects)
  probing : o.probing = s.phase.inProbe
  rejects : o.rejects = effects.filterMap Effect.rejection
  step : Connection.step cfg u.remote s (i.charged ok) = some (effects, s')
  limiter : (o.limiter = none ∧ limits' = limits ∧ charge effects = 0) ∨
    ∃ n r, o.limiter = some (.addBytes u.client n gcNow now, .bytes r) ∧
      limits.step (.addBytes u.client n gcNow now) = some (.bytes r, limits') ∧
      charge effects = if r.isOk then n else 0

section Sessions

variable {cfg : Config} {remote : Remote} {s s' : Session} {i : Input} {effects : List Effect}

lemma account_refused {data : Bytes} {next : Phase}
    (h : Connection.account cfg s data false next = (effects, s')) : charge effects = 0 := by
  unfold Connection.account at h
  dsimp only at h
  split at h
  · cases h
    rfl
  · split at h
    · cases h
      rfl
    · cases h
      rfl

lemma charge_sent (delivered : Bool) (msg : Message) (rest : List Effect) :
    charge ((if delivered then [.sent msg] else []) ++ rest) = charge rest := by
  cases delivered
  · rfl
  · exact Nat.zero_add _

/-- A step in which the limiter refuses, should it be asked, charges nothing. -/
lemma SessionStep.charge_refused {e : Event} (h : SessionStep cfg remote s e effects s')
    (he : e.charged false = e) : charge effects = 0 := by
  cases h with
  | helloData hp hd hx => exact (probeHello_spec hx).1.2.2
  | helloPonged hp hr ht hq => exact hq.2.2
  | greetRead hp hx => exact (probeGreet_spec hx).1.2.2
  | greetFailed hp => exact charge_sent _ _ _
  | relayUp hp hd hx =>
    cases he
    exact account_refused hx
  | relayDown hp hx =>
    cases he
    exact account_refused hx
  | relayClosed hp hr ht hq => exact hq.2.2
  | @messageFailed msg delivered hp =>
    have hsent := charge_sent delivered msg []
    rw [List.append_nil] at hsent
    exact hsent
  | _ => rfl

lemma Event.charged_twice (ok : Bool) (e : Event) : (e.charged ok).charged ok = e.charged ok := by
  cases e <;> rfl

variable {u : Upgrade} {limits limits' : LimitSystem} {gcNow now : Instant} {o : Observed}

lemma addBytes_reply {client : IpAddr} {n : Nat} {reply : Reply}
    (h : limits.step (.addBytes client n gcNow now) = some (reply, limits')) :
    ∃ r, reply = .bytes r := by
  obtain ⟨_, _, _, hc, -⟩ | ⟨_, _, _, _, hc, -⟩ | ⟨_, _, _, _, -, -, -, hr, -⟩ | ⟨_, _, hc, -⟩ :=
    limitSystem_step_cases h
  · cases hc
  · cases hc
  · exact ⟨_, hr⟩
  · cases hc

theorem sessionStep_cases
    (h : Proxy.sessionStep cfg u s limits i gcNow now = some (o, s', limits')) :
    ∃ ok effects, SessionStepped cfg u s limits i gcNow now o s' limits' ok effects := by
  obtain ⟨⟨effects, next⟩, hstep, h⟩ := Option.bind_eq_some_iff.1 h
  dsimp only at h
  split at h
  · rename_i hcharge
    cases h
    exact ⟨true, effects, rfl, rfl, rfl, rfl, rfl, hstep, .inl ⟨rfl, rfl, hcharge⟩⟩
  · obtain ⟨⟨reply, limits₁⟩, hlimits, h⟩ := Option.bind_eq_some_iff.1 h
    obtain ⟨r, rfl⟩ := addBytes_reply hlimits
    cases r with
    | ok _ =>
      cases h
      exact ⟨true, effects, rfl, rfl, rfl, rfl, rfl, hstep, .inr ⟨_, .ok (), rfl, hlimits, rfl⟩⟩
    | error e =>
      obtain ⟨⟨effects', next'⟩, hstep', h⟩ := Option.map_eq_some_iff.1 h
      cases h
      have hrefused : charge effects' = 0 :=
        (step_cases hstep').charge_refused (Event.charged_twice false i.event)
      exact ⟨false, effects', rfl, rfl, rfl, rfl, rfl, hstep',
        .inr ⟨_, .error e, rfl, hlimits, hrefused⟩⟩

end Sessions

/-! ### The end of a session -/

/-- What an action at the end of a session does to the metrics. -/
def cleanMetrics (m : Metrics) : Cleanup → Metrics
  | .observeDuration => m.observeDuration
  | .leaveGauge => m.addActive (-1)
  | _ => m

structure CleanStepped (id : Nat) (u : Upgrade) (now : Instant) (c : Cleanup) (o : Observed)
    (limits limits' : LimitSystem) : Prop where
  observed : o = { limiter := o.limiter, cleaned := some c }
  limiter : (c ≠ .releaseLease ∧ o.limiter = none ∧ limits' = limits) ∨
    c = .releaseLease ∧ o.limiter = some (.drop ⟨id, u.lease⟩ now, .dropped) ∧
      limits.step (.drop ⟨id, u.lease⟩ now) = some (.dropped, limits')

lemma drop_reply {limits limits' : LimitSystem} {held : HeldLease} {now : Instant} {reply : Reply}
    (h : limits.step (.drop held now) = some (reply, limits')) : reply = .dropped := by
  obtain ⟨_, _, _, hc, -⟩ | ⟨_, _, _, _, hc, -⟩ | ⟨_, _, _, _, hc, -⟩ | ⟨_, _, -, -, -, hr, -⟩ :=
    limitSystem_step_cases h
  · cases hc
  · cases hc
  · cases hc
  · exact hr

lemma clean_cases {p p' : Proxy} {id : Nat} {u : Upgrade} {now : Instant} {c : Cleanup}
    {o : Observed} (h : p.clean id u now c = some (o, p')) :
    CleanStepped id u now c o p.limits p'.limits ∧ p'.tasks = p.tasks ∧
      p'.metrics = cleanMetrics p.metrics c := by
  cases c with
  | releaseLease =>
    obtain ⟨⟨reply, limits⟩, hstep, h⟩ := Option.map_eq_some_iff.1 h
    cases drop_reply hstep
    cases h
    exact ⟨⟨rfl, .inr ⟨rfl, rfl, hstep⟩⟩, rfl, rfl⟩
  | _ =>
    cases h
    exact ⟨⟨rfl, .inl ⟨by decide, rfl, rfl⟩⟩, rfl, rfl⟩

/-! ### One step -/

/-- What a step does to the task of its request, to the limiter and to the metrics. -/
inductive TaskStep (d : Deployment) (limits : LimitSystem) (m : Metrics) :
    ProxyInput → Observed → Option Task → Task → LimitSystem → Metrics → Prop
  | arrived {id : Nat} {request : Request} :
      TaskStep d limits m (.arrive id request) { rejects := rejection (proxyHandler d request) }
        none ⟨request, .handling (proxyHandler d request)⟩ limits
        (m.incRejects (rejection (proxyHandler d request)))
  | answered {id : Nat} {outcome : Outcome} {request : Request} {prog prog' : Handler Response}
      {e : Answered} {limits' : LimitSystem}
      (hr : Server.respond limits id prog outcome = some (e, prog', limits')) :
      TaskStep d limits m (.answer id outcome)
        { answered := some e, limiter := limiterCall id outcome e, rejects := rejection prog' }
        (some ⟨request, .handling prog⟩) ⟨request, .handling prog'⟩ limits'
        (m.incRejects (rejection prog'))
  | dropped {id : Nat} {request : Request} {prog : Handler Response}
      (hwait : Server.waitsForNetwork prog = true) :
      TaskStep d limits m (.drop id) {} (some ⟨request, .handling prog⟩) ⟨request, .gone prog⟩
        limits m
  | upgraded {id : Nat} {request : Request} {u : Upgrade} {now : Instant} :
      TaskStep d limits m (.upgrade id true now) {}
        (some ⟨request, .handling (.pure (.upgrade u))⟩)
        ⟨request, .running u (Connection.start d.config u.remote now)⟩ limits
        ((m.addActive 1).incConnections (.fromPort u.remote.port))
  | upgradeFailed {id : Nat} {request : Request} {u : Upgrade} {now : Instant} :
      TaskStep d limits m (.upgrade id false now) {}
        (some ⟨request, .handling (.pure (.upgrade u))⟩) ⟨request, .ending u [.releaseLease]⟩
        limits m
  | ran {id : Nat} {i : Input} {gcNow now : Instant} {request : Request} {u : Upgrade}
      {s s' : Session} {o : Observed} {limits' : LimitSystem} {ok : Bool} {effects : List Effect}
      (hs : SessionStepped d.config u s limits i gcNow now o s' limits' ok effects) :
      TaskStep d limits m (.session id i gcNow now) o (some ⟨request, .running u s⟩)
        ⟨request, Proxy.afterSession u s.phase s'⟩ limits' (m.incRejects o.rejects)
  | cleaned {id : Nat} {now : Instant} {request : Request} {u : Upgrade} {c : Cleanup}
      {left : List Cleanup} {o : Observed} {limits' : LimitSystem}
      (hc : CleanStepped id u now c o limits limits') :
      TaskStep d limits m (.cleanup id now) o (some ⟨request, .ending u (c :: left)⟩)
        ⟨request, .ending u left⟩ limits' (cleanMetrics m c)

/-- A step of the process moves one task. -/
def ProxyStep (d : Deployment) (p : Proxy) (i : ProxyInput) (o : Observed) (p' : Proxy) : Prop :=
  ∃ t', TaskStep d p.limits p.metrics i o p.tasks[i.id]? t' p'.limits p'.metrics ∧
    p'.tasks = place p.tasks i.id t' ∧ i.id ≤ p.tasks.length

section Cases

variable {d : Deployment} {p p' : Proxy} {i : ProxyInput} {o : Observed}

lemma ProxyStep.of_member {q : Proxy} {t t' : Task} (ht : p.tasks[i.id]? = some t)
    (h : TaskStep d p.limits p.metrics i o (some t) t' q.limits q.metrics)
    (hq : q.tasks = p.tasks) : ProxyStep d p i o (q.put i.id t') := by
  obtain ⟨hlt, -⟩ := List.getElem?_eq_some_iff.1 ht
  refine ⟨t', ?_, ?_, hlt.le⟩
  · rw [ht]
    exact h
  · rw [place_member ht, Proxy.put, hq]

theorem proxy_step_cases (h : Proxy.step d p i = some (o, p')) : ProxyStep d p i o p' := by
  cases i with
  | arrive id request =>
    rw [Proxy.step] at h
    split at h
    · rename_i hid
      subst hid
      cases h
      refine ⟨_, ?_, (place_newcomer _ _).symm, le_rfl⟩
      rw [show (ProxyInput.arrive p.tasks.length request).id = p.tasks.length from rfl,
        List.getElem?_eq_none le_rfl]
      exact .arrived
    · cases h
  | answer id outcome =>
    rw [Proxy.step] at h
    split at h
    · rename_i request prog ht
      obtain ⟨⟨e, prog', limits⟩, hr, h⟩ := Option.map_eq_some_iff.1 h
      cases h
      exact ProxyStep.of_member ht (.answered hr) rfl
    · cases h
  | drop id =>
    rw [Proxy.step] at h
    split at h
    · rename_i request prog ht
      split at h
      · cases h
        exact ProxyStep.of_member ht (.dropped ‹_›) rfl
      · cases h
    · cases h
  | upgrade id ok now =>
    rw [Proxy.step] at h
    split at h
    · rename_i request u ht
      split at h
      · rename_i hok
        subst hok
        cases h
        exact ProxyStep.of_member ht .upgraded rfl
      · rename_i hok
        rw [Bool.not_eq_true] at hok
        subst hok
        cases h
        exact ProxyStep.of_member ht .upgradeFailed rfl
    · cases h
  | session id i gcNow now =>
    rw [Proxy.step] at h
    split at h
    · rename_i request u s ht
      obtain ⟨⟨o, s', limits⟩, hs, h⟩ := Option.map_eq_some_iff.1 h
      cases h
      obtain ⟨ok, effects, hs⟩ := sessionStep_cases hs
      exact ProxyStep.of_member ht (.ran hs) rfl
    · cases h
  | cleanup id now =>
    rw [Proxy.step] at h
    split at h
    · rename_i request u c left ht
      obtain ⟨⟨o, q⟩, hc, h⟩ := Option.map_eq_some_iff.1 h
      cases h
      obtain ⟨hclean, htasks, hmetrics⟩ := clean_cases hc
      refine ProxyStep.of_member ht ?_ htasks
      rw [hmetrics]
      exact .cleaned hclean
    · cases h

end Cases

/-! ### Properties of single requests -/

section Requests

variable {d : Deployment} {now : Instant} {trace : ProxyTrace} {p₀ p : Proxy}

/-- A property of the task of each request and of the steps since some point that holds at that
point, survives the steps of the request itself and is not touched by the steps of the others,
holds from there on. -/
theorem task_invariant_since {P : Nat → ProxyTrace → Option Task → Prop}
    (hstart : ∀ id, P id [] p₀.tasks[id]?)
    (hown : ∀ trace p i o t' limits' m', Runs (Proxy.step d) p₀ trace p →
      TaskStep d p.limits p.metrics i o p.tasks[i.id]? t' limits' m' →
      P i.id trace p.tasks[i.id]? → P i.id (trace ++ [(i, o)]) (some t'))
    (hother : ∀ id trace i o t, i.id ≠ id → P id trace t → P id (trace ++ [(i, o)]) t)
    (h : Runs (Proxy.step d) p₀ trace p) (id : Nat) : P id trace p.tasks[id]? := by
  refine h.reachable_invariant (P := fun trace p => P id trace p.tasks[id]?) (hstart id) ?_
  intro trace p i o p' hr hp hstep
  obtain ⟨t', ht, htasks, hle⟩ := proxy_step_cases hstep
  rw [htasks]
  by_cases hid : i.id = id
  · subst hid
    rw [getElem?_place_self hle]
    exact hown trace p i o t' _ _ hr ht hp
  · rw [getElem?_place_other (Ne.symm hid)]
    exact hother id trace i o _ hid hp

theorem task_invariant {P : Nat → ProxyTrace → Option Task → Prop}
    (hstart : ∀ id, P id [] none)
    (hown : ∀ trace p i o t' limits' m', ProxyRuns d now trace p →
      TaskStep d p.limits p.metrics i o p.tasks[i.id]? t' limits' m' →
      P i.id trace p.tasks[i.id]? → P i.id (trace ++ [(i, o)]) (some t'))
    (hother : ∀ id trace i o t, i.id ≠ id → P id trace t → P id (trace ++ [(i, o)]) t)
    (h : ProxyRuns d now trace p) (id : Nat) : P id trace p.tasks[id]? :=
  task_invariant_since hstart hown hother h id

end Requests

end WsTcpProxy.Proofs
