import WsTcpProxy.ServerSystem
import WsTcpProxy.Proofs.DialSafety
import WsTcpProxy.Proofs.TrackedPrefixes

/-!
# The order of a request

The requests of the server call the limiter in the order of `HandlerSystem`, so what holds of
every interleaving of such handlers holds of the server.
-/

namespace WsTcpProxy.Proofs
open Library

/-- The stage after an answered operation; the network does not change it. -/
def Stage.answered (stage : Stage) : Answered → Stage
  | ⟨.recordAttempt ip dest, r⟩ => stage.after (.recordAttempt ip dest 0) (.attempt r)
  | ⟨.acquire _ _, r⟩ => stage.after (.acquire 0) (.lease r)
  | _ => stage

def stageOf (history : List Answered) : Stage := history.foldl Stage.answered .idle

/-- When an operation is in the order of the handlers. -/
def InOrder (history : List Answered) : Operation → Prop
  | .recordAttempt _ _ => stageOf history = .idle
  | .acquire client dest => stageOf history = .attempted client dest
  | _ => True

def EndsInOrder (history : List Answered) : Response → Prop
  | .upgrade u => stageOf history = .holding u.client u.lease
  | _ => True

section Handler

variable {history : List Answered}

lemma stageOf_concat (history : List Answered) (e : Answered) :
    stageOf (history ++ [e]) = Stage.answered (stageOf history) e := by
  rw [stageOf, List.foldl_append]
  rfl

lemma resolveFiltered_order (remote : Remote) (policy : DestPolicy) :
    Prog.Spec (fun _ _ => True) InOrder (fun history' _ => stageOf history' = stageOf history)
      history (resolveFiltered remote policy) := by
  unfold resolveFiltered
  split
  · split
    · exact rfl
    · exact rfl
  · refine ⟨trivial, ?_⟩
    intro r _
    have hlookup : stageOf (history ++ [⟨.lookupHost remote.host remote.port, r⟩]) =
        stageOf history := stageOf_concat history _
    cases r with
    | ok answer =>
      change Prog.Spec _ _ _ _ (if (policy.filterAnswer answer).isEmpty then _ else _)
      split
      · exact hlookup
      · exact hlookup
    | failed => exact hlookup
    | elapsed => exact hlookup

lemma connectLoop_order (lastErr : DestError) (addrs : List SocketAddr) :
    Prog.Spec (fun _ _ => True) InOrder (fun history' _ => stageOf history' = stageOf history)
      history (connectLoop lastErr addrs) := by
  induction addrs generalizing history lastErr with
  | nil => exact rfl
  | cons addr addrs ih =>
    rw [connectLoop]
    have hdial (r : Timed Unit) :
        stageOf (history ++ [⟨.connect addr, r⟩]) = stageOf history := stageOf_concat history _
    refine ⟨trivial, ?_⟩
    intro r _
    rw [← hdial r]
    cases r with
    | ok _ => exact rfl
    | failed => exact ih .connect
    | elapsed => exact ih .connect

lemma openUpstream_order (d : Deployment) (req : Request) (remote : Remote) :
    Prog.Spec (fun _ _ => True) InOrder EndsInOrder [] (openUpstream d req remote) := by
  refine ⟨rfl, ?_⟩
  intro r _
  cases r with
  | error e => trivial
  | ok _ =>
    change Prog.Spec _ _ _ _ (resolveFiltered remote d.config.dest >>= _)
    refine Prog.Spec.bind (resolveFiltered_order remote d.config.dest) ?_
    intro history r hresolved
    cases r with
    | error e => trivial
    | ok addrs =>
      refine Prog.Spec.bind (connectLoop_order .connect addrs) ?_
      intro history' r hdialed
      cases r with
      | error e => trivial
      | ok tcp =>
        have hattempted : stageOf history' = .attempted (req.client d) remote.destKey :=
          hdialed.trans hresolved
        refine ⟨hattempted, ?_⟩
        intro r _
        cases r with
        | error e => trivial
        | ok lease =>
          change stageOf _ = .holding (req.client d) lease
          rw [stageOf_concat, hattempted]
          rfl

theorem proxyHandler_order (d : Deployment) (req : Request) :
    Prog.Spec (fun _ _ => True) InOrder EndsInOrder [] (proxyHandler d req) := by
  unfold proxyHandler
  split
  · rename_i response hcheck
    cases response with
    | upgrade u => exact absurd rfl (checkRequest_error hcheck u)
    | _ => trivial
  · exact openUpstream_order d req _

end Handler

/-! ### The server -/

/-- What is left of a handler goes on in order from a stage. -/
def Follows (stage : Stage) (prog : Handler Response) : Prop :=
  ∃ history, stageOf history = stage ∧
    Prog.Spec (fun _ _ => True) InOrder EndsInOrder history prog

/-- The handlers stand where the open requests of the server stand, at the same limiter. -/
structure Mirrors (s : Server) (t : HandlerSystem) : Prop where
  system : t.system = s.limits
  idle : ∀ id, s.requests id = none → t.stage id = .idle
  follows : ∀ id a, s.requests id = some a → a.isOpen = true → Follows (t.stage id) a.prog

/-- Whether the next answer to a request leaves room, if it is a lease. -/
def requestFits (s : Server) : ServerInput → Bool
  | .answer id (.limiter now) =>
    match (s.openRequest id).bind (·.prog.pending) with
    | some (.acquire client _) => acquireFits s.limits.limits client now
    | _ => true
  | _ => true

section Follows

variable {stage : Stage} {client : IpAddr} {dest : Str}

lemma Follows.recordAttempt {next : Except LimitError Unit → Handler Response}
    (h : Follows stage (.perform (.recordAttempt client dest) next)) :
    stage = .idle ∧ ∀ now r, Follows (stage.after (.recordAttempt client dest now) (.attempt r)) (next r) := by
  obtain ⟨history, rfl, hidle, hnext⟩ := h
  refine ⟨hidle, ?_⟩
  intro now r
  refine ⟨_, ?_, hnext r trivial⟩
  rw [stageOf_concat, show stageOf history = .idle from hidle]
  cases r <;> rfl

lemma Follows.acquire {next : Except LimitError ConnectionLease → Handler Response}
    (h : Follows stage (.perform (.acquire client dest) next)) :
    stage = .attempted client dest ∧
      ∀ now r, Follows (stage.after (.acquire now) (.lease r)) (next r) := by
  obtain ⟨history, rfl, hattempted, hnext⟩ := h
  refine ⟨hattempted, ?_⟩
  intro now r
  refine ⟨_, ?_, hnext r trivial⟩
  rw [stageOf_concat, show stageOf history = .attempted client dest from hattempted]
  cases r <;> rfl

lemma Follows.lookupHost {host : Str} {port : ℕ} {next : Timed (List SocketAddr) → Handler Response}
    (h : Follows stage (.perform (.lookupHost host port) next)) (r : Timed (List SocketAddr)) :
    Follows stage (next r) := by
  obtain ⟨history, rfl, -, hnext⟩ := h
  exact ⟨_, stageOf_concat history _, hnext r trivial⟩

lemma Follows.connect {addr : SocketAddr} {next : Timed Unit → Handler Response}
    (h : Follows stage (.perform (.connect addr) next)) (r : Timed Unit) :
    Follows stage (next r) := by
  obtain ⟨history, rfl, -, hnext⟩ := h
  exact ⟨_, stageOf_concat history _, hnext r trivial⟩

lemma Follows.upgraded {u : Upgrade} (h : Follows stage (.pure (.upgrade u))) :
    stage = .holding u.client u.lease := by
  obtain ⟨history, rfl, hholding⟩ := h
  exact hholding

end Follows

section Simulation

variable {d : Deployment} {s s' : Server} {t : HandlerSystem} {id : ℕ} {a : Active}

/-- The limiter and one request move on together with its handler. -/
lemma Mirrors.put (h : Mirrors s t) (limits : LimitSystem) {stage : Stage}
    (hfollows : a.isOpen = true → Follows stage a.prog) :
    Mirrors ({ s with limits := limits }.put id a)
      ⟨limits, Function.update t.stage id stage⟩ where
  system := rfl
  idle other hnone := by
    by_cases hother : other = id
    · rw [hother, put_self] at hnone
      cases hnone
    · rw [put_other _ (Ne.symm hother)] at hnone
      exact (Function.update_of_ne hother ..).trans (h.idle other hnone)
  follows other b hb hopen := by
    by_cases hother : other = id
    · rw [hother, put_self] at hb
      cases hb
      dsimp only
      rw [hother, Function.update_self]
      exact hfollows hopen
    · rw [put_other _ (Ne.symm hother)] at hb
      dsimp only
      rw [Function.update_of_ne hother]
      exact h.follows other b hb hopen

/-- A step of a request in which the limiter has no part. -/
lemma Mirrors.put_same (h : Mirrors s t) (hfollows : a.isOpen = true → Follows (t.stage id) a.prog) :
    Mirrors (s.put id a) t := by
  have hput : Mirrors (s.put id a) ⟨s.limits, Function.update t.stage id (t.stage id)⟩ :=
    h.put s.limits hfollows
  rw [Function.update_eq_self, ← h.system] at hput
  exact hput

lemma handlerSystem_step {call : HandlerCall} {c : Call} {r : Reply} {limits : LimitSystem}
    (hcall : (t.stage id).call id call = some c) (hstep : t.system.step c = some (r, limits)) :
    t.step (id, call) =
      some (r, ⟨limits, Function.update t.stage id ((t.stage id).after call r)⟩) := by
  rw [HandlerSystem.step, hcall, Option.bind_some, hstep]
  rfl

/-- A step of the server is at most one call of a handler, and fits as that call does. -/
def Matched (s : Server) (i : ServerInput) (s' : Server) (t : HandlerSystem) : Prop :=
  Mirrors s' t ∨ ∃ c r t', t.step c = some (r, t') ∧ callFits t c = requestFits s i ∧ Mirrors s' t'

lemma Mirrors.call (h : Mirrors s t) {i : ServerInput} (call : HandlerCall) {c : Call} {r : Reply}
    {limits : LimitSystem} (hcall : (t.stage id).call id call = some c)
    (hstep : s.limits.step c = some (r, limits)) (hfits : callFits t (id, call) = requestFits s i)
    (hfollows : a.isOpen = true → Follows ((t.stage id).after call r) a.prog) :
    Matched s i ({ s with limits := limits }.put id a) t := by
  rw [← h.system] at hstep
  exact .inr ⟨_, _, _, handlerSystem_step hcall hstep, hfits, h.put limits hfollows⟩

lemma Mirrors.answer (h : Mirrors s t) {outcome : Outcome} {e : Answered}
    {prog : Handler Response} {limits : LimitSystem} (ha : s.openRequest id = some a)
    (hr : Server.respond s.limits id a.prog outcome = some (e, prog, limits)) :
    Matched s (.answer id outcome)
      ({ s with limits := limits }.put id { a with prog := prog }) t := by
  obtain ⟨hrequest, hopen⟩ := openRequest_some ha
  have hfollows := h.follows id a hrequest hopen
  have hpending (now : Instant) : requestFits s (.answer id (.limiter now)) =
      match a.prog.pending with
      | some (.acquire client _) => acquireFits s.limits.limits client now
      | _ => true := by
    rw [requestFits, ha]
    rfl
  unfold Server.respond at hr
  split at hr
  · rename_i client dest next now hprog
    split at hr
    · rename_i r limits hstep
      cases hr
      rw [hprog] at hfollows
      obtain ⟨hidle, hnext⟩ := hfollows.recordAttempt
      refine h.call (.recordAttempt client dest now) (by rw [hidle]; rfl) hstep ?_
        (fun _ => hnext now r)
      rw [hpending, hprog]
      rfl
    · cases hr
  · rename_i host port next r hprog
    split at hr
    · cases hr
      rw [hprog] at hfollows
      exact .inl (h.put_same fun _ => hfollows.lookupHost r)
    · cases hr
  · rename_i addr next r hprog
    cases hr
    rw [hprog] at hfollows
    exact .inl (h.put_same fun _ => hfollows.connect r)
  · rename_i client dest next now hprog
    split at hr
    · rename_i r limits hstep
      cases hr
      rw [hprog] at hfollows
      obtain ⟨hattempted, hnext⟩ := hfollows.acquire
      refine h.call (.acquire now) (by rw [hattempted]; rfl) hstep ?_ (fun _ => hnext now r)
      rw [hpending, hprog, callFits, hattempted, h.system]
      rfl
    · cases hr
  · cases hr

/-- The handler of an upgraded request holds its lease. -/
lemma Mirrors.holding (h : Mirrors s t) {u : Upgrade} (ha : s.openRequest id = some a)
    (hu : Server.upgraded a.prog = some u) : t.stage id = .holding u.client u.lease := by
  obtain ⟨hrequest, hopen⟩ := openRequest_some ha
  have hfollows := h.follows id a hrequest hopen
  rw [upgraded_some hu] at hfollows
  exact hfollows.upgraded

lemma Mirrors.step (h : Mirrors s t) {i : ServerInput} {o : Option (ℕ × Answered)}
    (hs : Server.step d s i = some (o, s')) : Matched s i s' t := by
  cases i with
  | arrive id request =>
    rw [Server.step] at hs
    split at hs
    · rename_i habsent
      cases hs
      refine .inl (h.put_same fun _ => ?_)
      rw [h.idle id habsent]
      exact ⟨[], rfl, proxyHandler_order d request⟩
    · cases hs
  | answer id outcome =>
    obtain ⟨a, ha, hs⟩ := Option.bind_eq_some_iff.1 hs
    obtain ⟨⟨e, prog, limits⟩, hr, hs⟩ := Option.map_eq_some_iff.1 hs
    cases hs
    exact h.answer ha hr
  | drop id =>
    obtain ⟨a, -, hs⟩ := Option.bind_eq_some_iff.1 hs
    split at hs
    · cases hs
      refine .inl (h.put_same ?_)
      rintro ⟨⟩
    · cases hs
  | charge id n gcNow now =>
    obtain ⟨a, ha, hs⟩ := Option.bind_eq_some_iff.1 hs
    obtain ⟨u, hu, hs⟩ := Option.bind_eq_some_iff.1 hs
    obtain ⟨⟨r, limits⟩, hstep, hs⟩ := Option.map_eq_some_iff.1 hs
    obtain ⟨hrequest, hopen⟩ := openRequest_some ha
    have hholding := h.holding ha hu
    have hsame : ({ s with limits := limits } : Server) =
        { s with limits := limits }.put id a := by
      rw [Server.put, ← hrequest, Function.update_eq_self]
    have hafter : (t.stage id).after (.addBytes n gcNow now) r = t.stage id := by
      rw [hholding]
      rfl
    cases hs
    rw [hsame]
    refine h.call (.addBytes n gcNow now) (by rw [hholding]; rfl) hstep rfl fun _ => ?_
    rw [hafter]
    exact h.follows id a hrequest hopen
  | hangUp id now =>
    obtain ⟨a, ha, hs⟩ := Option.bind_eq_some_iff.1 hs
    obtain ⟨u, hu, hs⟩ := Option.bind_eq_some_iff.1 hs
    obtain ⟨⟨r, limits⟩, hstep, hs⟩ := Option.map_eq_some_iff.1 hs
    have hholding := h.holding ha hu
    cases hs
    refine h.call (.drop now) (by rw [hholding]; rfl) hstep rfl ?_
    rintro ⟨⟩

end Simulation

/-- Every run of the server whose answers fit is matched by a run of handlers whose calls fit. -/
theorem server_follows_order {d : Deployment} {now : Instant} {trace : ServerTrace} {s : Server}
    (hrun : Runs (guarded requestFits (Server.step d)) (Server.start d.config.limits now) trace s) :
    ∃ calls t, Runs (guarded callFits HandlerSystem.step)
      (HandlerSystem.start d.config.limits now) calls t ∧ Mirrors s t := by
  refine hrun.simulated (R := Mirrors) ⟨rfl, fun _ _ => rfl, ?_⟩ ?_
  · rintro id a ⟨⟩
  · intro s i o s' t h hs
    obtain ⟨hfits, hstep⟩ := guarded_some hs
    rcases h.step hstep with hsame | ⟨c, r, t', hcall, hc, hnext⟩
    · exact .inl hsame
    · refine .inr ⟨c, r, t', ?_, hnext⟩
      rw [guarded, hc, hfits]
      exact hcall

/-- In every run of the server in which the answers to `acquire` fit, at most `max_tracked_ips`
prefixes are tracked. -/
theorem server_tracks_bounded {d : Deployment} (hK : d.config.limits.maxTrackedIps ≠ 0)
    {now : Instant} {trace : ServerTrace} {s : Server}
    (hrun : Runs (guarded requestFits (Server.step d)) (Server.start d.config.limits now) trace s) :
    tracked s.limits.limits ≤ d.config.limits.maxTrackedIps := by
  obtain ⟨calls, t, hcalls, hmirrors⟩ := server_follows_order hrun
  rw [← hmirrors.system]
  exact (tracked_of_runs hK hcalls).2

end WsTcpProxy.Proofs
