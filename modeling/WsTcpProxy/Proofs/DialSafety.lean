import WsTcpProxy.ServerSystem
import WsTcpProxy.Proofs.HandlerSpec
import WsTcpProxy.Proofs.LeaseLedger

/-!
# Dial safety

In every run of the server, each request follows the specification of its handler, and the
leases it holds are those its handler was granted.
-/

namespace WsTcpProxy.Proofs
open Library

/-- The limiter is left alone or called once. -/
def LimiterStep (l l' : LimitSystem) : Prop := l' = l ∨ ∃ c r, l.step c = some (r, l')

def heldFor (id : Nat) (history : List Answered) : List HeldLease :=
  (grants history).map (HeldLease.mk id)

lemma heldFor_concat (id : Nat) (history : List Answered) (e : Answered) :
    heldFor id (history ++ [e]) = heldFor id history ++ heldFor id [e] := by
  rw [heldFor, grants_concat, List.map_append]
  rfl

inductive ServerStep (d : Deployment) (s : Server) :
    Nat → Option (Nat × Answered) → Server → Prop
  | arrived {id : Nat} {request : Request} (ha : s.requests id = none) :
      ServerStep d s id none (s.put id ⟨request, proxyHandler d request, true⟩)
  | answered {id : Nat} {a : Active} {op : Operation} {next : op.Answer → Handler Response}
      {ans : op.Answer} {limits : LimitSystem} (ha : s.requests id = some a)
      (hopen : a.isOpen = true) (hprog : a.prog = .perform op next) (hadmits : Admits d op ans)
      (hlive : limits.live = s.limits.live ++ heldFor id [⟨op, ans⟩])
      (hlimits : LimiterStep s.limits limits) :
      ServerStep d s id (some (id, ⟨op, ans⟩))
        ({ s with limits := limits }.put id { a with prog := next ans })
  | dropped {id : Nat} {a : Active} {op : Operation} (ha : s.requests id = some a)
      (hopen : a.isOpen = true) (hprog : a.prog.pending = some op) :
      ServerStep d s id none (s.put id { a with isOpen := false })
  | charged {id : Nat} {limits : LimitSystem} (hlive : limits.live = s.limits.live)
      (hlimits : LimiterStep s.limits limits) : ServerStep d s id none { s with limits := limits }
  | hungUp {id : Nat} {a : Active} {u : Upgrade} {limits : LimitSystem}
      (ha : s.requests id = some a) (hopen : a.isOpen = true)
      (hprog : a.prog = .pure (.upgrade u))
      (hlive : limits.live = s.limits.live.erase ⟨id, u.lease⟩)
      (hlimits : LimiterStep s.limits limits) :
      ServerStep d s id none ({ s with limits := limits }.put id { a with isOpen := false })

def inputId : ServerInput → Nat
  | .arrive id _ | .answer id _ | .drop id | .charge id _ _ _ | .hangUp id _ => id

section Cases

variable {d : Deployment} {s s' : Server} {i : ServerInput} {o : Option (Nat × Answered)}

lemma openRequest_some {id : Nat} {a : Active} (h : s.openRequest id = some a) :
    s.requests id = some a ∧ a.isOpen = true := by
  rw [Server.openRequest, Option.filter_eq_some_iff] at h
  exact h

lemma upgraded_some {prog : Handler Response} {u : Upgrade} (h : Server.upgraded prog = some u) :
    prog = .pure (.upgrade u) := by
  unfold Server.upgraded at h
  split at h
  · cases h
    rfl
  · cases h

/-- A granted lease is for the client and the destination that were asked for. -/
lemma acquire_admitted {g : Inner} (hcfg : g.cfg = d.config.limits) (client : IpAddr) (dest : Str)
    (now : Instant) : Admits d (.acquire client dest) (g.acquire client dest now).1 := by
  obtain ⟨e, he, -⟩ | ⟨hok, -⟩ := acquire_cases g client dest now
  · rw [he]
    trivial
  · rw [hok]
    change (⟨g.key client, dest⟩ : ConnectionLease) = leaseFor d client dest
    rw [Inner.key, hcfg]
    rfl

lemma heldBy_eq_heldFor (id : Nat) (client : IpAddr) (dest : Str)
    (r : Except LimitError ConnectionLease) :
    heldBy id r = heldFor id [⟨.acquire client dest, r⟩] := by
  cases r <;> rfl

lemma respond_cases {limits limits' : LimitSystem} {id : Nat} {prog prog' : Handler Response}
    {outcome : Outcome} {e : Answered} (hcfg : limits.limits.cfg = d.config.limits)
    (h : Server.respond limits id prog outcome = some (e, prog', limits')) :
    ∃ op, ∃ next : op.Answer → Handler Response, ∃ ans, prog = .perform op next ∧ e = ⟨op, ans⟩ ∧
      prog' = next ans ∧ Admits d op ans ∧ limits'.live = limits.live ++ heldFor id [⟨op, ans⟩] ∧
      LimiterStep limits limits' := by
  unfold Server.respond at h
  split at h
  · rename_i client dest next now
    split at h
    · rename_i r limits' hstep
      cases h
      obtain ⟨_, _, _, hc, -, -, rfl⟩ | ⟨_, _, _, _, hc, -⟩ | ⟨_, _, _, _, hc, -⟩ | ⟨_, _, hc, -⟩ :=
        limitSystem_step_cases hstep
      · exact ⟨.recordAttempt client dest, next, r, rfl, rfl, rfl, trivial,
          (List.append_nil _).symm, .inr ⟨_, _, hstep⟩⟩
      all_goals cases hc
    · cases h
  · rename_i host port next r
    split at h
    · rename_i hport
      cases h
      refine ⟨.lookupHost host port, next, r, rfl, rfl, rfl, ?_, (List.append_nil _).symm, .inl rfl⟩
      cases r with
      | ok addrs => simpa [Timed.carriesPort, Admits] using hport
      | _ => trivial
    · cases h
  · rename_i addr next r
    cases h
    exact ⟨.connect addr, next, r, rfl, rfl, rfl, trivial, (List.append_nil _).symm, .inl rfl⟩
  · rename_i client dest next now
    split at h
    · rename_i r limits' hstep
      cases h
      obtain ⟨_, _, _, hc, -⟩ | ⟨_, _, _, _, hc, -, hr, rfl⟩ | ⟨_, _, _, _, hc, -⟩ | ⟨_, _, hc, -⟩ :=
        limitSystem_step_cases hstep
      · cases hc
      · cases hc
        cases hr
        exact ⟨_, _, _, rfl, rfl, rfl, acquire_admitted hcfg client dest now,
          congrArg _ (heldBy_eq_heldFor id client dest _), .inr ⟨_, _, hstep⟩⟩
      all_goals cases hc
    · cases h
  · cases h

lemma server_step_cases (hcfg : s.limits.limits.cfg = d.config.limits)
    (h : Server.step d s i = some (o, s')) : ServerStep d s (inputId i) o s' := by
  cases i with
  | arrive id request =>
    rw [Server.step] at h
    split at h
    · cases h
      exact .arrived ‹_›
    · cases h
  | answer id outcome =>
    obtain ⟨a, ha, h⟩ := Option.bind_eq_some_iff.1 h
    obtain ⟨⟨e, prog, limits⟩, hr, h⟩ := Option.map_eq_some_iff.1 h
    obtain ⟨ha, hopen⟩ := openRequest_some ha
    obtain ⟨op, next, ans, hprog, rfl, rfl, hadmits, hlive, hlimits⟩ := respond_cases hcfg hr
    cases h
    exact .answered ha hopen hprog hadmits hlive hlimits
  | drop id =>
    obtain ⟨a, ha, h⟩ := Option.bind_eq_some_iff.1 h
    obtain ⟨ha, hopen⟩ := openRequest_some ha
    split at h
    · rename_i hwait
      cases h
      unfold Server.waitsForNetwork at hwait
      split at hwait
      · exact .dropped ha hopen ‹_›
      · exact .dropped ha hopen ‹_›
      · cases hwait
    · cases h
  | charge id n gcNow now =>
    obtain ⟨a, ha, h⟩ := Option.bind_eq_some_iff.1 h
    obtain ⟨u, hu, h⟩ := Option.bind_eq_some_iff.1 h
    obtain ⟨⟨r, limits⟩, hstep, h⟩ := Option.map_eq_some_iff.1 h
    cases h
    obtain ⟨_, _, _, hc, -⟩ | ⟨_, _, _, _, hc, -⟩ | ⟨_, _, _, _, hc, -, -, -, rfl⟩ | ⟨_, _, hc, -⟩ :=
      limitSystem_step_cases hstep
    · cases hc
    · cases hc
    · exact .charged rfl (.inr ⟨_, _, hstep⟩)
    · cases hc
  | hangUp id now =>
    obtain ⟨a, ha, h⟩ := Option.bind_eq_some_iff.1 h
    obtain ⟨u, hu, h⟩ := Option.bind_eq_some_iff.1 h
    obtain ⟨⟨r, limits⟩, hstep, h⟩ := Option.map_eq_some_iff.1 h
    obtain ⟨ha, hopen⟩ := openRequest_some ha
    cases h
    obtain ⟨_, _, _, hc, -⟩ | ⟨_, _, _, _, hc, -⟩ | ⟨_, _, _, _, hc, -⟩ | ⟨_, _, hc, -, -, -, rfl⟩ :=
      limitSystem_step_cases hstep
    · cases hc
    · cases hc
    · cases hc
    · cases hc
      exact .hungUp ha hopen (upgraded_some hu) rfl (.inr ⟨_, _, hstep⟩)

end Cases

/-! ### The limiter under the server -/

section Limiter

variable {d : Deployment} {now : Instant} {trace : ServerTrace} {s s' : Server} {id : Nat}
  {o : Option (Nat × Answered)}

lemma ServerStep.limiter (h : ServerStep d s id o s') : LimiterStep s.limits s'.limits := by
  cases h with
  | arrived ha => exact .inl rfl
  | answered ha hopen hprog hadmits hlive hlimits => exact hlimits
  | dropped ha hopen hprog => exact .inl rfl
  | charged hlive hlimits => exact hlimits
  | hungUp ha hopen hprog hlive hlimits => exact hlimits

/-- Whatever the requests do, the limiter goes through one of its runs. -/
theorem limiter_runs (h : ServerRuns d now trace s) :
    ∃ calls, LimitRuns d.config.limits now calls s.limits := by
  refine h.state_invariant
    (P := fun s => ∃ calls, LimitRuns d.config.limits now calls s.limits) ⟨[], .nil⟩ ?_
  rintro s i o s' ⟨calls, hcalls⟩ hstep
  obtain heq | ⟨c, r, hc⟩ := (server_step_cases (LeaseLedger.of_runs hcalls).cfg_eq hstep).limiter
  · rw [heq]
    exact ⟨calls, hcalls⟩
  · exact ⟨_, hcalls.snoc hc⟩

end Limiter

/-! ### Requests -/

/-- The request `id` has followed its handler, and holds the leases that it was granted. -/
structure Tracked (d : Deployment) (trace : ServerTrace) (s : Server) (id : Nat) : Prop where
  absent : s.requests id = none → historyOf id trace = [] ∧ s.leasesHeld id = []
  reached : ∀ a, s.requests id = some a →
    Prog.Reaches (Admits d) (proxyHandler d a.request) (historyOf id trace) a.prog
  held : ∀ a, s.requests id = some a →
    s.leasesHeld id = if a.isOpen then heldFor id (historyOf id trace) else []

section Requests

variable {d : Deployment} {now : Instant} {trace : ServerTrace} {s s' : Server} {id : Nat}
  {i : ServerInput} {o : Option (Nat × Answered)} {a : Active}

lemma historyOf_none (id : Nat) (trace : ServerTrace) (i : ServerInput) :
    historyOf id (trace ++ [(i, none)]) = historyOf id trace := by
  simp [historyOf]

lemma historyOf_self (id : Nat) (trace : ServerTrace) (i : ServerInput) (e : Answered) :
    historyOf id (trace ++ [(i, some (id, e))]) = historyOf id trace ++ [e] := by
  simp [historyOf]

lemma historyOf_other {id id' : Nat} (h : id' ≠ id) (trace : ServerTrace) (i : ServerInput)
    (e : Answered) : historyOf id (trace ++ [(i, some (id', e))]) = historyOf id trace := by
  simp [historyOf, h]

lemma put_self (s : Server) (id : Nat) (a : Active) : (s.put id a).requests id = some a :=
  Function.update_self ..

lemma put_other (s : Server) {id id' : Nat} (h : id' ≠ id) (a : Active) :
    (s.put id' a).requests id = s.requests id :=
  Function.update_of_ne h.symm ..

lemma filter_heldFor (id : Nat) (history : List Answered) :
    (heldFor id history).filter (fun l => l.holder = id) = heldFor id history := by
  simp [heldFor]

lemma filter_heldFor_other {id id' : Nat} (h : id' ≠ id) (history : List Answered) :
    (heldFor id' history).filter (fun l => l.holder = id) = [] := by
  simp [heldFor, h]

lemma filter_erase_other {id id' : Nat} (h : id' ≠ id) (live : List HeldLease)
    (lease : ConnectionLease) :
    (live.erase ⟨id', lease⟩).filter (fun l => l.holder = id) =
      live.filter (fun l => l.holder = id) := by
  rw [← List.erase_filter, List.erase_of_not_mem]
  simp [h]

/-- A step of one request leaves the others alone. -/
lemma ServerStep.frame {id' : Nat} (h : ServerStep d s id' o s') (hid : id' ≠ id)
    (trace : ServerTrace) (i : ServerInput) :
    s'.requests id = s.requests id ∧ s'.leasesHeld id = s.leasesHeld id ∧
      historyOf id (trace ++ [(i, o)]) = historyOf id trace := by
  cases h with
  | arrived ha => exact ⟨put_other s hid _, rfl, historyOf_none ..⟩
  | answered ha hopen hprog hadmits hlive hlimits =>
    refine ⟨put_other _ hid _, ?_, historyOf_other hid ..⟩
    change List.filter _ _ = List.filter _ _
    rw [Server.put, hlive, List.filter_append, filter_heldFor_other hid, List.append_nil]
  | dropped ha hopen hprog => exact ⟨put_other s hid _, rfl, historyOf_none ..⟩
  | charged hlive hlimits =>
    refine ⟨rfl, ?_, historyOf_none ..⟩
    rw [Server.leasesHeld, hlive, Server.leasesHeld]
  | hungUp ha hopen hprog hlive hlimits =>
    refine ⟨put_other _ hid _, ?_, historyOf_none ..⟩
    change List.filter _ _ = List.filter _ _
    rw [Server.put, hlive, filter_erase_other hid]

lemma Tracked.upgrade (h : Tracked d trace s id) (ha : s.requests id = some a) {u : Upgrade}
    (hprog : a.prog = .pure (.upgrade u)) :
    Returned d a.request (historyOf id trace) (.upgrade u) := by
  have hspec := (h.reached a ha).spec (proxyHandler_spec d a.request)
  rw [hprog] at hspec
  exact hspec

lemma Tracked.allowed (h : Tracked d trace s id) (ha : s.requests id = some a) {op : Operation}
    (hprog : a.prog.pending = some op) : Allowed d a.request (historyOf id trace) op :=
  (h.reached a ha).pending_allowed (proxyHandler_spec d a.request) hprog

lemma Tracked.of_some {s : Server} (hs : s.requests id = some a)
    (hreached : Prog.Reaches (Admits d) (proxyHandler d a.request) (historyOf id trace) a.prog)
    (hheld : s.leasesHeld id = if a.isOpen then heldFor id (historyOf id trace) else []) :
    Tracked d trace s id where
  absent hnone := by
    rw [hs] at hnone
    cases hnone
  reached a' ha' := by
    rw [hs] at ha'
    cases ha'
    exact hreached
  held a' ha' := by
    rw [hs] at ha'
    cases ha'
    exact hheld

lemma Tracked.step_self (h : Tracked d trace s id) (hstep : ServerStep d s id o s') :
    Tracked d (trace ++ [(i, o)]) s' id := by
  cases hstep with
  | arrived ha =>
    obtain ⟨hhist, hheld⟩ := h.absent ha
    apply Tracked.of_some (put_self ..)
    · rw [historyOf_none, hhist]
      exact .start
    · rw [historyOf_none, hhist]
      exact hheld
  | @answered a op next ans limits ha hopen hprog hadmits hlive hlimits =>
    have hreached := h.reached a ha
    rw [hprog] at hreached
    have hheld := h.held a ha
    rw [hopen, if_pos rfl] at hheld
    apply Tracked.of_some (put_self ..)
    · rw [historyOf_self]
      exact hreached.answer hadmits
    · rw [historyOf_self, heldFor_concat, ← hheld]
      change List.filter _ limits.live = if a.isOpen then _ else _
      rw [hopen, if_pos rfl, hlive, List.filter_append, filter_heldFor]
      rfl
  | @dropped a op ha hopen hprog =>
    have hheld := h.held a ha
    have hgrants := (h.allowed ha hprog).1.grants
    apply Tracked.of_some (put_self ..)
    · rw [historyOf_none]
      exact h.reached a ha
    · rw [hopen, if_pos rfl, heldFor, hgrants] at hheld
      exact hheld
  | @charged limits hlive hlimits =>
    have hsame : Server.leasesHeld { s with limits := limits } id = s.leasesHeld id := by
      rw [Server.leasesHeld, hlive]
      rfl
    refine ⟨?_, ?_, ?_⟩
    · rw [historyOf_none, hsame]
      exact h.absent
    · rw [historyOf_none]
      exact h.reached
    · rw [historyOf_none, hsame]
      exact h.held
  | @hungUp a u limits ha hopen hprog hlive hlimits =>
    have hheld := h.held a ha
    obtain ⟨-, -, hgrants, -⟩ := h.upgrade ha hprog
    rw [hopen, if_pos rfl, heldFor, hgrants] at hheld
    apply Tracked.of_some (put_self ..)
    · rw [historyOf_none]
      exact h.reached a ha
    · change List.filter _ limits.live = []
      rw [hlive, ← List.erase_filter]
      change (s.leasesHeld id).erase _ = []
      rw [hheld]
      simp

lemma Tracked.step (h : Tracked d trace s id) (hstep : ServerStep d s (inputId i) o s') :
    Tracked d (trace ++ [(i, o)]) s' id := by
  by_cases hid : inputId i = id
  · rw [hid] at hstep
    exact h.step_self hstep
  · obtain ⟨hreq, hheld, hhist⟩ := hstep.frame hid trace i
    refine ⟨?_, ?_, ?_⟩
    · rw [hreq, hheld, hhist]
      exact h.absent
    · rw [hreq, hhist]
      exact h.reached
    · rw [hreq, hheld, hhist]
      exact h.held

lemma Tracked.of_runs (h : ServerRuns d now trace s) (id : Nat) : Tracked d trace s id := by
  refine h.reachable_invariant (P := fun trace s => Tracked d trace s id) ?_ ?_
  · refine ⟨fun _ => ⟨rfl, rfl⟩, ?_, ?_⟩
    · rintro a ⟨⟩
    · rintro a ⟨⟩
  · intro trace s i o s' hr hs hstep
    obtain ⟨calls, hcalls⟩ := limiter_runs hr
    exact hs.step (server_step_cases (LeaseLedger.of_runs hcalls).cfg_eq hstep)

end Requests

/-- The handler dials `addr` when its history is `before`; the dial may still be under way. -/
def Dialed (history : List Answered) (prog : Handler Response) (before : List Answered)
    (addr : SocketAddr) : Prop :=
  (∃ r after, history = before ++ ⟨.connect addr, r⟩ :: after) ∨
    (history = before ∧ prog.pending = some (.connect addr))

def lookupsBegun (history : List Answered) (prog : Handler Response) : Nat :=
  (lookups history).length +
    match prog.pending with
    | some (.lookupHost _ _) => 1
    | _ => 0

section Safety

variable {d : Deployment} {trace : ServerTrace} {s : Server} {id : Nat} {a : Active}

lemma Tracked.dialed (h : Tracked d trace s id) (ha : s.requests id = some a)
    {before : List Answered} {addr : SocketAddr}
    (hdial : Dialed (historyOf id trace) a.prog before addr) :
    ∃ remote, DialAllowed d a.request remote before addr := by
  obtain ⟨r, after, hhist⟩ | ⟨rfl, hpending⟩ := hdial
  · exact ((h.reached a ha).allowed (proxyHandler_spec d a.request) hhist).2
  · exact (h.allowed ha hpending).2

lemma Tracked.lookupsBegun_le (h : Tracked d trace s id) (ha : s.requests id = some a) :
    lookupsBegun (historyOf id trace) a.prog ≤ 1 := by
  cases hprog : a.prog with
  | perform op next =>
    have hallowed := h.allowed ha (hprog ▸ rfl : a.prog.pending = some op)
    cases op with
    | lookupHost host port =>
      rw [lookupsBegun, hallowed.2]
      exact le_rfl
    | _ => exact hallowed.1.lookups
  | pure response =>
    have hspec := (h.reached a ha).spec (proxyHandler_spec d a.request)
    rw [hprog] at hspec
    cases response with
    | upgrade u => exact hspec.2.2.2
    | _ => exact hspec.lookups

lemma Tracked.unleased (h : Tracked d trace s id) (ha : s.requests id = some a)
    (hprog : Server.upgraded a.prog = none) : s.leasesHeld id = [] := by
  have hgrants : grants (historyOf id trace) = [] := by
    cases hp : a.prog with
    | perform op next => exact (h.allowed ha (hp ▸ rfl : a.prog.pending = some op)).1.grants
    | pure response =>
      have hspec := (h.reached a ha).spec (proxyHandler_spec d a.request)
      rw [hp] at hspec hprog
      cases response with
      | upgrade u => cases hprog
      | _ => exact hspec.grants
  rw [h.held a ha, heldFor, hgrants]
  exact ite_self _

lemma Tracked.leased (h : Tracked d trace s id) (ha : s.requests id = some a) {u : Upgrade}
    (hprog : Server.upgraded a.prog = some u) (hopen : a.isOpen = true) :
    ∃ remote, parseRemote a.request.query.remote = .ok remote ∧
      s.leasesHeld id = [⟨id, leaseFor d (a.request.client d) remote.destKey⟩] := by
  obtain ⟨hparsed, hlease, hgrants, -⟩ := h.upgrade ha (upgraded_some hprog)
  refine ⟨u.remote, hparsed, ?_⟩
  rw [h.held a ha, hopen, if_pos rfl, heldFor, hgrants, hlease]
  rfl

end Safety

/-- For every request, at every point of every run of the server: each address it has dialed was
allowed at that moment, it has looked up its name at most once, it holds no lease unless it has
been upgraded, and an upgraded one holds exactly the lease of its client and destination until
its session ends. -/
theorem dial_safety (d : Deployment) (now : Instant) (trace : ServerTrace) (s : Server)
    (h : ServerRuns d now trace s) (id : Nat) (a : Active) (ha : s.requests id = some a) :
    (∀ before addr, Dialed (historyOf id trace) a.prog before addr →
      ∃ remote, DialAllowed d a.request remote before addr) ∧
    lookupsBegun (historyOf id trace) a.prog ≤ 1 ∧
    (Server.upgraded a.prog = none → s.leasesHeld id = []) ∧
    (∀ u, Server.upgraded a.prog = some u → a.isOpen = true →
      ∃ remote, parseRemote a.request.query.remote = .ok remote ∧
        s.leasesHeld id = [⟨id, leaseFor d (a.request.client d) remote.destKey⟩]) := by
  have ht := Tracked.of_runs h id
  exact ⟨fun _ _ => ht.dialed ha, ht.lookupsBegun_le ha, ht.unleased ha, fun _ => ht.leased ha⟩

def openDeployment : Deployment where
  config := { authMode := .publicReflector }
  lib := ⟨fun _ _ _ _ _ => none, fun _ => none⟩
  debugAssertions := false

def mailRequest : Request where
  query := { remote := "mail:143".toList }
  peer := ⟨.v4 (.new 192 0 2 1), 5000⟩
  now := ⟨0, 0, 0⟩

/-- The resolver answers with a loopback and a global address; only the second is dialed. -/
def dialInputs : List ServerInput :=
  [.arrive 1 mailRequest, .answer 1 (.limiter 1),
    .answer 1 (.resolved (.ok [⟨.v4 (.new 127 0 0 1), 143⟩, ⟨.v4 (.new 8 8 8 8), 143⟩]))]

def upgradeInputs : List ServerInput :=
  dialInputs ++ [.answer 1 (.connected (.ok ())), .answer 1 (.limiter 2)]

theorem dial_safety_mail :
    (∃ trace s a before, ServerRuns openDeployment 0 trace s ∧ s.requests 1 = some a ∧
      Dialed (historyOf 1 trace) a.prog before ⟨.v4 (.new 8 8 8 8), 143⟩ ∧
      ∃ remote, DialAllowed openDeployment a.request remote before ⟨.v4 (.new 8 8 8 8), 143⟩) ∧
    ∃ trace s a, ServerRuns openDeployment 0 trace s ∧ s.requests 1 = some a ∧
      (∃ u, Server.upgraded a.prog = some u) ∧
      ∃ remote, parseRemote a.request.query.remote = .ok remote ∧
        s.leasesHeld 1 =
          [⟨1, leaseFor openDeployment (a.request.client openDeployment) remote.destKey⟩] := by
  constructor
  · refine ⟨_, _, _, _, Runs.of_inputs dialInputs rfl, rfl, .inr ⟨rfl, rfl⟩, ?_⟩
    exact (dial_safety openDeployment 0 _ _ (Runs.of_inputs dialInputs rfl) 1 _ rfl).1 _ _
      (.inr ⟨rfl, rfl⟩)
  · refine ⟨_, _, _, Runs.of_inputs upgradeInputs rfl, rfl, ⟨_, rfl⟩, ?_⟩
    exact (dial_safety openDeployment 0 _ _ (Runs.of_inputs upgradeInputs rfl) 1 _ rfl).2.2.2 _
      rfl rfl

end WsTcpProxy.Proofs
