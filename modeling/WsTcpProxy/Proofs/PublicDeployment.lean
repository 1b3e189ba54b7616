import WsTcpProxy.Proofs.AuthTokens
import WsTcpProxy.Proofs.NumericHosts
import WsTcpProxy.Proofs.ProbeGate
import WsTcpProxy.Proofs.ProxyTraffic
import WsTcpProxy.Proofs.StartupSafety

/-!
# Public deployments

What the safety check at the start is for: a production build that passes it dials only addresses
that `isGlobalUnicast` accepts, of remotes that `parseRemote` does not take for literals, on listed
ports, for requests that are authorized, within its caps and behind its probes, in every run.
-/

namespace WsTcpProxy.Proofs
open Library

/-- Who may have an upstream dialed: the holder of a token for the remote, or, where the proxy is
public, a client whose `Origin` is listed. A header that is missing or that is not visible ASCII
names no origin. -/
def Authorized (d : Deployment) (req : Request) : Prop :=
  match d.config.authMode with
  | .paseto => ∃ key claims, d.config.secretKey = some key ∧
      d.lib.parse req.now.notBefore (validExp d.lib req.now.validation) req.query.remote
        (proxyToken req.query req.headers) key = some claims ∧
      checkTtl d.lib d.config.pasetoMaxTtl req.now.ttl claims = .ok ()
  | .publicReflector => ∀ raw, req.headers.text "origin" = some raw →
      ∃ o ∈ d.config.allowedOrigins, normalizeOrigin o = normalizeOrigin raw

/-- A dial of an address that `isGlobalUnicast` accepts and the resolver gave for a remote without
`ipLiteral`, on a listed port. -/
structure SafeDial (d : Deployment) (req : Request) (before : List Answered) (addr : SocketAddr) :
    Prop where
  authorized : Authorized d req
  global : isGlobalUnicast addr.ip = true
  port : ∃ ports, d.config.dest.allowedPorts = some ports ∧ addr.port ∈ ports
  resolved : ∃ remote answer, parseRemote req.query.remote = .ok remote ∧
    remote.ipLiteral = none ∧ remote.port = addr.port ∧
    lookups before = [(remote.host, remote.port, .ok answer)] ∧ addr ∈ answer

/-- Nothing crosses a session before the verdict of the probe for its port. -/
def Gated (remote : Remote) (session : SessionTrace) : Prop :=
  Untouched session ∨
    match probeForPort remote.port with
    | some .tlsSni => TlsGate remote (receivedBytes session)
    | some kind => GreetingGate kind (readBytes session) (sentPayloads session)
    | none => True

structure PublicSafe (d : Deployment) (trace : ProxyTrace) (p : Proxy) : Prop where
  dials : ∀ id t before addr, p.tasks[id]? = some t →
    Dialed (historyOf id (trace.filterMap serverView)) t.active.prog before addr →
    SafeDial d t.request before addr
  sessions : ∀ id t u, p.tasks[id]? = some t → t.active.prog = .pure (.upgrade u) →
    parseRemote t.request.query.remote = .ok u.remote ∧ Gated u.remote (sessionOf id trace)
  leases : p.limits.live.length ≤ d.config.limits.maxGlobalConnections
  leasesOf : ∀ k, leasesOf p.limits.live k ≤ d.config.limits.maxConnsPerIp
  attempts : ∀ k start, (inWindow Attempt.time start d.config.limits.connectsPerIpWindow
    ((ledgerOf d.config.limits (trace.filterMap limiterView)).attemptsOf k)).length ≤
      d.config.limits.connectsPerIp

section Requests

variable {d : Deployment} {req : Request}

lemma authorized_of_admitted {remote : Remote} (hrelease : d.debugAssertions = false)
    (hsafe : SafeConfig d.config) (h : Admitted d req remote) : Authorized d req := by
  unfold Authorized
  split
  · rename_i hmode
    have htoken := h.token
    unfold Request.authorized validateToken at htoken
    rw [hmode, hrelease] at htoken
    simp only [reduceCtorEq, if_false, Bool.false_eq_true, false_and] at htoken
    split at htoken
    · cases htoken
    · split at htoken
      · cases htoken
      · rename_i key hkey
        split at htoken
        · cases htoken
        · rename_i claims hclaims
          exact ⟨key, claims, hkey, hclaims, htoken⟩
  · rename_i hmode
    obtain ⟨hsome, hstar⟩ := hsafe.origins hmode
    intro raw hraw
    have horigin := h.origin
    rw [originAllowed, if_neg (not_or.2 ⟨hsome, hstar⟩), hraw] at horigin
    exact of_decide_eq_true horigin

lemma safeDial_of_allowed {remote : Remote} {before : List Answered} {addr : SocketAddr}
    (hrelease : d.debugAssertions = false) (hsafe : SafeConfig d.config)
    (h : DialAllowed d req remote before addr) : SafeDial d req before addr := by
  have hliteral : remote.ipLiteral = none :=
    checkPolicy_no_literal hsafe.literals h.admitted.policy
  refine ⟨authorized_of_admitted hrelease hsafe h.admitted, ?_, ?_, ?_⟩
  · have hroutable := h.routable
    rw [hsafe.privateDests] at hroutable
    exact hroutable.resolve_left Bool.false_ne_true
  · obtain ⟨ports, hports⟩ := Option.ne_none_iff_exists'.1 hsafe.ports
    have hallowed := h.portAllowed
    rw [DestPolicy.portAllowed, hports] at hallowed
    exact ⟨ports, hports, of_decide_eq_true hallowed⟩
  · have hanswer := h.answered
    rw [InAnswer, hliteral] at hanswer
    obtain ⟨answer, hlookups, hmem⟩ := hanswer
    exact ⟨remote, answer, h.admitted.parsed, hliteral, h.port.symm, hlookups,
      (List.mem_filter.1 hmem).1⟩

end Requests

section Sessions

variable {d : Deployment} {now : Instant} {trace : ProxyTrace} {p : Proxy}

lemma gated_of_runs {cfg : Config} {remote : Remote} {session : SessionTrace} {s : Session}
    (hprobe : cfg.requireProtocolProbe = true) (h : SessionRuns cfg remote now session s) :
    Gated remote session := by
  rw [Gated, or_iff_not_imp_left]
  intro hcross
  split
  · rename_i hport
    exact (TlsGated.of_runs hprobe hport h).gate hcross
  · rename_i kind hkind hport
    exact (GreetingGated.of_runs hprobe hport hkind h).gate hcross
  · trivial

lemma gated_of_followed {session : SessionTrace} {t : Task} {u : Upgrade}
    (hprobe : d.config.requireProtocolProbe = true) (hu : t.active.prog = .pure (.upgrade u))
    (h : SessionFollowed d session (some t)) : Gated u.remote session := by
  have hquiet (hsession : session = []) : Gated u.remote session := by
    rw [hsession]
    exact .inl ⟨rfl, rfl⟩
  obtain ⟨request, stage⟩ := t
  cases stage with
  | handling prog => exact hquiet h
  | gone prog => exact hquiet h
  | running u' s =>
    cases hu
    obtain ⟨now, hrun⟩ := h
    exact gated_of_runs hprobe hrun
  | ending u' left =>
    cases hu
    obtain hnil | ⟨now, s, hrun, -⟩ := h
    · exact hquiet hnil
    · exact gated_of_runs hprobe hrun

lemma publicSafe_of_safeConfig (hrelease : d.debugAssertions = false) (hsafe : SafeConfig d.config)
    (h : ProxyRuns d now trace p) : PublicSafe d trace p := by
  have hledger := LeaseLedger.of_runs (limiter_run h)
  refine ⟨?_, ?_, hledger.globalCap hsafe.globalCap, fun k => hledger.ipCap k hsafe.ipCap, ?_⟩
  · intro id t before addr ht hdial
    obtain ⟨remote, hallowed⟩ :=
      (Tracked.of_runs (server_run h) id).dialed (server_request ht) hdial
    rw [active_request] at hallowed
    exact safeDial_of_allowed hrelease hsafe hallowed
  · intro id t u ht hu
    obtain ⟨hparsed, -⟩ := (Tracked.of_runs (server_run h) id).upgrade (server_request ht) hu
    rw [active_request] at hparsed
    have hfollowed := session_run h id
    rw [ht] at hfollowed
    exact ⟨hparsed, gated_of_followed hsafe.probe hu hfollowed⟩
  · intro k start
    exact ((WindowInvariant.of_runs (limiter_run h)).admitted.connects k hsafe.rateCap).inWindow_le
      (Nat.zero_le _) (fun _ _ hsub => hsub.length_le) start

end Sessions

/-- A production build that starts without `MAILINER_UNSAFE` is a safe public deployment in every
run: whom it dials for and where, what its sessions let through, and how much it takes on. -/
theorem launched_public_safe (start : StartLibrary) (env : Env) (startup : Startup)
    (lib : TokenLibrary) (now : Instant) (trace : ProxyTrace) (p : Proxy)
    (hlaunch : launch false start env = .ok startup)
    (hguarded : envBool env "MAILINER_UNSAFE" false = false)
    (h : ProxyRuns (startup.deployment lib false) now trace p) :
    PublicSafe (startup.deployment lib false) trace p := by
  obtain ⟨args, -, -, -, hconfigured⟩ := launch_eq_ok.1 hlaunch
  obtain ⟨rfl, hstart⟩ := configure_eq_ok.1 hconfigured
  obtain ⟨-, hchecked, -⟩ := hstart.resolve_left Bool.false_ne_true
  rw [hguarded] at hchecked
  exact publicSafe_of_safeConfig rfl
    ((safeConfig_applyEnv _).2 (hchecked.resolve_left Bool.false_ne_true)) h

/-- A command line without arguments, and a listener that binds. -/
def startLibrary : StartLibrary where
  parseArgs _ := .ok {}
  isLevel val := decide (val = "info".toList)
  bind _ := .ok ()

/-- A public proxy for one origin. -/
def publicEnv : Env
  | "METRICS_AUTH_TOKEN" => some "metrics".toList
  | "MAILINER_AUTH" => some "Public".toList
  | "MAILINER_ALLOWED_ORIGINS" => some "https://app.example".toList
  | _ => none

theorem launched_public_safe_mail :
    ∃ startup trace p, launch false startLibrary publicEnv = .ok startup ∧
      ProxyRuns (startup.deployment openDeployment.lib false) 0 trace p ∧
      p.limits.live.length = 1 ∧ PublicSafe (startup.deployment openDeployment.lib false) trace p :=
  ⟨_, _, _, rfl, Runs.of_inputs mailInputs rfl, rfl,
    launched_public_safe startLibrary publicEnv _ openDeployment.lib 0 _ _ rfl rfl
      (Runs.of_inputs mailInputs rfl)⟩

/-! ### Metrics -/

section Metrics

lemma asBytes_inj {s t : Str} (h : asBytes s = asBytes t) : s = t := by
  have hbytes : s.utf8Encode = t.utf8Encode := congrArg List.toByteArray h
  have hdecoded := congrArg ByteArray.utf8Decode? hbytes
  rw [List.utf8Decode?_utf8Encode, List.utf8Decode?_utf8Encode, Option.some.injEq] at hdecoded
  exact List.toArray_inj hdecoded

/-- The comparison of two tokens in constant time is that of their texts. -/
lemma tokenEq_asBytes {s t : Str} : tokenEq (asBytes s) (asBytes t) = true ↔ s = t := by
  simp only [tokenEq, beq_iff_eq, foldl_or_eq_zero, Nat.xor_eq_zero_iff, xor_toNat_eq_zero,
    List.mem_range]
  constructor
  · rintro ⟨hlen, hbytes⟩
    apply asBytes_inj
    refine List.ext_getElem hlen fun i hs ht => ?_
    have hbyte := hbytes i (by omega)
    rwa [List.getD_eq_getElem _ _ hs, List.getD_eq_getElem _ _ ht] at hbyte
  · rintro rfl
    exact ⟨rfl, fun _ _ => rfl⟩

/-- The listener that serves the metrics. -/
def metricsListener (env : Env) : Listener :=
  if (env "MAILINER_METRICS_ADDR").getD [] = [] then .main else .metrics

lemma routes_lookup (startup : Startup) (listener : Listener) (path : Str) :
    (startup.routes listener).lookup path = some .metrics ↔
      listener = (if startup.metricsBind = none then .main else .metrics) ∧
        path = "/metrics".toList := by
  unfold Startup.routes
  by_cases hpath : path = "/metrics".toList
  · subst hpath
    cases listener <;> cases startup.metricsBind <;> simp <;> decide
  · have hmiss : ∀ entries : List (Str × Route), (∀ e ∈ entries, e.2 = .metrics → path ≠ e.1) →
        entries.lookup path ≠ some .metrics := by
      intro entries hne hlookup
      obtain ⟨before, after, rfl, -⟩ := List.lookup_eq_some_iff.1 hlookup
      exact hne (path, .metrics) (by simp) rfl rfl
    refine iff_of_false (hmiss _ ?_) fun h => hpath h.2
    cases listener with
    | main => cases startup.metricsBind <;> simp_all
    | metrics => cases startup.metricsBind <;> simp_all

/-- Behind a production build the metrics are on one listener only, and only for the token of the
environment. The token of the query counts where the headers carry none. -/
theorem metrics_disclosed_iff (start : StartLibrary) (env : Env) (startup : Startup) (m : Metrics)
    (req : MetricsRequest) (hlaunch : launch false start env = .ok startup) :
    startup.serveMetrics m req = some (.encoded m) ↔
      req.listener = metricsListener env ∧ req.path = "/metrics".toList ∧
      ∃ key, env "METRICS_AUTH_TOKEN" = some key ∧
        (bearerToken req.headers <|> req.token) = some key := by
  obtain ⟨args, -, -, -, hconfigured⟩ := launch_eq_ok.1 hlaunch
  obtain ⟨rfl, hstart⟩ := configure_eq_ok.1 hconfigured
  obtain ⟨hset, -⟩ := hstart.resolve_left Bool.false_ne_true
  obtain ⟨key, hkey⟩ := Option.isSome_iff_exists.1 hset
  have hhandler : metricsHandler (startupOf args env) m req = .encoded m ↔
      (bearerToken req.headers <|> req.token) = some key := by
    unfold metricsHandler
    rw [show (startupOf args env).metricsAuthKey = some key from hkey]
    cases bearerToken req.headers <|> req.token with
    | none => simp
    | some provided => simp [tokenEq_asBytes]
  have hbind : (startupOf args env).metricsBind = none ↔
      (env "MAILINER_METRICS_ADDR").getD [] = [] := by
    change (env "MAILINER_METRICS_ADDR").filter _ = none ↔ _
    cases env "MAILINER_METRICS_ADDR" <;> simp
  have hrouted := routes_lookup (startupOf args env) req.listener req.path
  rw [if_congr hbind rfl rfl] at hrouted
  rw [← and_assoc, metricsListener, ← hrouted, Startup.serveMetrics,
    show env "METRICS_AUTH_TOKEN" = some key from hkey]
  by_cases hpath : ((startupOf args env).routes req.listener).lookup req.path = some .metrics
  · rw [if_pos hpath, Option.some.injEq, hhandler]
    simp [hpath]
  · simp [hpath]

theorem metrics_disclosed_iff_query :
    ∃ startup, launch false startLibrary publicEnv = .ok startup ∧
      startup.serveMetrics {} ⟨.main, "/metrics".toList, {}, some "metrics".toList⟩ =
        some (.encoded {}) :=
  ⟨_, rfl, (metrics_disclosed_iff startLibrary publicEnv _ {} _ rfl).2 ⟨rfl, rfl, _, rfl, rfl⟩⟩

end Metrics

end WsTcpProxy.Proofs
