import WsTcpProxy.Startup
import WsTcpProxy.Proofs.TextLemmas

/-!
# The safety check at the start

Which environments a production build starts in, by the texts of their variables.
-/

namespace WsTcpProxy.Proofs

/-! ### Texts -/

def Truthy (raw : Str) : Prop := toAsciiLowercase (trim raw) ∈ truthy

/-- Numerals of zero: zeros, possibly behind a plus sign. -/
def ZeroText (raw : Str) : Prop :=
  ∃ n, raw = List.replicate (n + 1) '0' ∨ raw = '+' :: List.replicate (n + 1) '0'

def AnyPort (raw : Str) : Prop :=
  toAsciiLowercase (trim raw) = "any".toList ∨ trim raw = "*".toList

/-- The non-empty entries of a comma-separated list. -/
def HasEntry (entry raw : Str) : Prop := entry ≠ [] ∧ ∃ part ∈ raw.splitOn ',', trim part = entry

section Numerals

lemma toDigit_eq_zero {c : Char} : toDigit 10 c = some 0 ↔ c = '0' := by
  constructor
  · intro h
    rw [toDigit_eq] at h
    dsimp only at h
    have hcode : c.toNat = '0'.toNat := by
      change c.toNat = 48
      split_ifs at h <;> simp only [Option.some.injEq] at h <;> omega
    exact Char.toNat_inj.1 hcode
  · rintro rfl
    rfl

lemma digitsFrom_eq_zero {acc : Nat} {s : Str} :
    digitsFrom 10 acc s = some 0 ↔ acc = 0 ∧ s = List.replicate s.length '0' := by
  induction s generalizing acc with
  | nil => simp [digitsFrom]
  | cons c s ih =>
    rw [digitsFrom]
    cases hc : toDigit 10 c with
    | none =>
      simp only [reduceCtorEq, false_iff, not_and]
      rintro - h
      rw [List.length_cons, List.replicate_succ, List.cons.injEq] at h
      rw [toDigit_eq_zero.2 h.1] at hc
      cases hc
    | some d =>
      rw [ih, List.length_cons, List.replicate_succ, List.cons.injEq, ← toDigit_eq_zero, hc,
        Option.some.injEq]
      constructor
      · rintro ⟨hacc, hs⟩
        exact ⟨by omega, by omega, hs⟩
      · rintro ⟨rfl, rfl, hs⟩
        exact ⟨rfl, hs⟩

lemma digits_eq_zero {s : Str} :
    (if s = [] then none else (digitsFrom 10 0 s).filter (· ≤ u64Max)) = some 0 ↔
      ∃ n, s = List.replicate (n + 1) '0' := by
  cases s with
  | nil => simp [List.replicate_succ]
  | cons c s =>
    rw [if_neg (List.cons_ne_nil c s), Option.filter_eq_some_iff, digitsFrom_eq_zero]
    constructor
    · rintro ⟨⟨-, hs⟩, -⟩
      exact ⟨s.length, hs⟩
    · rintro ⟨n, hs⟩
      rw [hs, List.length_replicate]
      exact ⟨⟨rfl, rfl⟩, by decide⟩

lemma parseU64_eq_zero {raw : Str} : parseU64 raw = some 0 ↔ ZeroText raw := by
  rw [parseU64, fromStrRadix, digits_eq_zero, ZeroText]
  refine exists_congr fun n => ?_
  cases raw with
  | nil => simp [stripPrefix, List.replicate_succ]
  | cons c s =>
    rw [stripPrefix]
    by_cases hc : '+' = c
    · subst hc
      simp [stripPrefix, List.replicate_succ]
    · rw [if_neg hc, Option.getD_none]
      simp [Ne.symm hc]

end Numerals

section Readers

variable {env : Env} {key : String}

lemma envBool_off : envBool env key false = true ↔ ∃ raw, env key = some raw ∧ Truthy raw := by
  unfold envBool
  cases env key <;> simp [Truthy]

lemma envBool_on : envBool env key true = true ↔ ∀ raw, env key = some raw → Truthy raw := by
  unfold envBool
  cases env key <;> simp [Truthy]

lemma envU64_eq_zero {default : Nat} (hdefault : default ≠ 0) :
    envU64 env key default = 0 ↔ ∃ raw, env key = some raw ∧ ZeroText raw := by
  unfold envU64
  cases env key with
  | none => simpa using hdefault
  | some raw =>
    rw [Option.bind_some]
    simp only [Option.some.injEq, exists_eq_left', ← parseU64_eq_zero]
    cases parseU64 raw with
    | none => simpa using hdefault
    | some n => simp

lemma fromSecs_eq_zero {n : Nat} : fromSecs n = 0 ↔ n = 0 := by
  simp [fromSecs]

lemma envSecs_eq_zero {default : Duration} (hdefault : asSecs default ≠ 0) :
    envSecs env key default = 0 ↔ ∃ raw, env key = some raw ∧ ZeroText raw := by
  have hne : default ≠ 0 := by
    rintro rfl
    exact hdefault rfl
  unfold envSecs
  cases env key with
  | none => simpa using hne
  | some raw =>
    simp only [fromSecs_eq_zero, Option.some.injEq, exists_eq_left', ← parseU64_eq_zero]
    cases parseU64 raw with
    | none => simpa using hdefault
    | some n => simp

lemma parseAllowedPorts_eq_none {raw : Str} : parseAllowedPorts raw = none ↔ AnyPort raw := by
  unfold parseAllowedPorts AnyPort
  dsimp only
  split
  · rename_i hempty
    rw [List.isEmpty_iff] at hempty
    simp [hempty, toAsciiLowercase]
  · split
    · rename_i hany
      exact iff_of_true rfl hany
    · rename_i hany
      exact iff_of_false (Option.some_ne_none _) hany

lemma parseCidrs_ne_nil {raw : Str} :
    parseCidrs raw ≠ [] ↔ ∃ part ∈ raw.splitOn ',', (Cidr.parse part).isSome := by
  rw [parseCidrs, Ne, List.filterMap_eq_nil_iff]
  simp [Option.ne_none_iff_isSome]

lemma mem_parseCsvSet {entry raw : Str} : entry ∈ parseCsvSet raw ↔ HasEntry entry raw := by
  simp only [parseCsvSet, List.mem_toFinset, List.mem_filter, List.mem_map, HasEntry]
  rw [and_comm]
  simp

end Readers

/-! ### The check -/

/-- What the safety check asks of a configuration. -/
structure SafeConfig (config : Config) : Prop where
  ports : config.dest.allowedPorts ≠ none
  privateDests : config.dest.allowPrivateDestinations = false
  literals : config.dest.allowIpLiterals = false
  probe : config.requireProtocolProbe = true
  proxies : config.trustForwardedClientIp = true → config.trustedProxies ≠ []
  origins : config.authMode = .publicReflector →
    config.allowedOrigins ≠ ∅ ∧ "*".toList ∉ config.allowedOrigins
  globalCap : config.limits.maxGlobalConnections ≠ 0
  ipCap : config.limits.maxConnsPerIp ≠ 0
  rateCap : config.limits.connectsPerIp ≠ 0
  connectionBytes : config.maxBytesPerConnection ≠ 0
  ipBytes : config.limits.maxBytesPerIp ≠ 0
  lifetime : config.maxLifetime ≠ 0

lemma publicSafetyErrors_eq_nil {config : Config} :
    config.publicSafetyErrors = [] ↔ SafeConfig config := by
  have hchecks : config.publicSafetyErrors = [] ↔
      (∀ check ∈ config.safetyChecks, check.1 = false) ∧
        ∀ cap ∈ config.safetyCaps, cap.2 = false := by
    simp [Config.publicSafetyErrors, List.filter_eq_nil_iff]
  rw [hchecks]
  simp only [Config.safetyChecks, Config.safetyCaps, List.forall_mem_cons, List.not_mem_nil,
    false_implies, implies_true, and_true]
  constructor
  · rintro ⟨⟨ports, privateDests, literals, probe, proxies, origins⟩, globalCap, ipCap, rateCap,
      connectionBytes, ipBytes, lifetime⟩
    refine ⟨by simpa [Option.isSome_iff_ne_none] using ports, privateDests, literals, by simpa using probe, ?_, ?_,
      by simpa using globalCap, by simpa using ipCap, by simpa using rateCap,
      by simpa using connectionBytes, by simpa using ipBytes, by simpa using lifetime⟩
    · intro htrust
      simpa [htrust] using proxies
    · intro hpublic
      simpa [hpublic] using origins
  · intro h
    refine ⟨⟨by simpa [Option.isSome_iff_ne_none] using h.ports, h.privateDests, h.literals, by simp [h.probe], ?_, ?_⟩,
      by simpa using h.globalCap, by simpa using h.ipCap, by simpa using h.rateCap,
      by simpa using h.connectionBytes, by simpa using h.ipBytes, by simpa using h.lifetime⟩
    · cases htrust : config.trustForwardedClientIp with
      | false => rfl
      | true => simpa using h.proxies htrust
    · rw [decide_eq_false_iff_not]
      rintro ⟨hpublic, hopen⟩
      obtain ⟨hsome, hstar⟩ := h.origins hpublic
      exact hopen.elim hsome hstar

def PublicAuth (env : Env) : Prop :=
  ∃ raw, env "MAILINER_AUTH" = some raw ∧ toAsciiLowercase raw = "public".toList

/-- The variables whose zero the safety check refuses. -/
def capVars : List String :=
  ["MAILINER_MAX_GLOBAL_CONNECTIONS", "MAILINER_MAX_CONNS_PER_IP",
    "MAILINER_CONNECTS_PER_IP_PER_MIN", "MAILINER_MAX_BYTES_PER_CONNECTION",
    "MAILINER_MAX_BYTES_PER_IP_PER_HOUR", "MAILINER_MAX_LIFETIME_SECS"]

/-- The environments that the safety check has nothing against, by the texts of their variables. -/
structure SafeEnv (env : Env) : Prop where
  ports : ∀ raw, env "MAILINER_ALLOWED_PORTS" = some raw → ¬ AnyPort raw
  privateDests : ∀ raw, env "MAILINER_ALLOW_PRIVATE_DESTS" = some raw → ¬ Truthy raw
  literals : ∀ raw, env "MAILINER_ALLOW_IP_LITERALS" = some raw → ¬ Truthy raw
  probe : ∀ raw, env "MAILINER_REQUIRE_PROTOCOL_PROBE" = some raw → Truthy raw
  proxies : (∃ raw, env "MAILINER_TRUST_FORWARDED_CLIENT_IP" = some raw ∧ Truthy raw) →
    ∃ raw, env "MAILINER_TRUSTED_PROXIES" = some raw ∧
      ∃ part ∈ raw.splitOn ',', (Cidr.parse part).isSome
  origins : PublicAuth env → ∃ raw, env "MAILINER_ALLOWED_ORIGINS" = some raw ∧
    (∃ entry, HasEntry entry raw) ∧ ¬ HasEntry "*".toList raw
  caps : ∀ key ∈ capVars, ∀ raw, env key = some raw → ¬ ZeroText raw

section Environments

variable {env : Env}

lemma parseAuthMode_public : parseAuthMode env = .publicReflector ↔ PublicAuth env := by
  unfold parseAuthMode PublicAuth
  cases env "MAILINER_AUTH" with
  | none => simp [toAsciiLowercase]
  | some raw => simp

lemma envBool_off_eq_false {key : String} :
    envBool env key false = false ↔ ∀ raw, env key = some raw → ¬ Truthy raw := by
  rw [← Bool.not_eq_true, envBool_off]
  simp

/-- An option whose variable is not set keeps its default. -/
lemma ports_ne_none :
    (applyEnv env {}).dest.allowedPorts ≠ none ↔
      ∀ raw, env "MAILINER_ALLOWED_PORTS" = some raw → ¬ AnyPort raw := by
  rw [applyEnv]
  dsimp only
  cases env "MAILINER_ALLOWED_PORTS" with
  | none => simp
  | some raw => simp [parseAllowedPorts_eq_none]

lemma trustedProxies_ne_nil :
    (applyEnv env {}).trustedProxies ≠ [] ↔ ∃ raw, env "MAILINER_TRUSTED_PROXIES" = some raw ∧
      ∃ part ∈ raw.splitOn ',', (Cidr.parse part).isSome := by
  rw [applyEnv]
  dsimp only
  cases env "MAILINER_TRUSTED_PROXIES" with
  | none => simp
  | some raw =>
    rw [parseCidrs_ne_nil]
    simp

lemma allowedOrigins_listed :
    (applyEnv env {}).allowedOrigins ≠ ∅ ∧ "*".toList ∉ (applyEnv env {}).allowedOrigins ↔
      ∃ raw, env "MAILINER_ALLOWED_ORIGINS" = some raw ∧ (∃ entry, HasEntry entry raw) ∧
        ¬ HasEntry "*".toList raw := by
  rw [applyEnv]
  dsimp only
  cases env "MAILINER_ALLOWED_ORIGINS" with
  | none => simp
  | some raw =>
    rw [← Finset.nonempty_iff_ne_empty, Finset.Nonempty]
    simp only [mem_parseCsvSet, Option.some.injEq, exists_eq_left']

/-- The check of the settings is a check of the texts behind them. -/
lemma safeConfig_applyEnv (secretKey : Option Bytes) :
    SafeConfig (applyEnv env { secretKey := secretKey }) ↔ SafeEnv env := by
  have hcap {key : String} {default : Nat} (h : default ≠ 0) :
      envU64 env key default ≠ 0 ↔ ∀ raw, env key = some raw → ¬ ZeroText raw := by
    rw [Ne, envU64_eq_zero h]
    simp
  have hlifetime : (applyEnv env {}).maxLifetime ≠ 0 ↔
      ∀ raw, env "MAILINER_MAX_LIFETIME_SECS" = some raw → ¬ ZeroText raw := by
    change envSecs env _ _ ≠ 0 ↔ _
    rw [Ne, envSecs_eq_zero (by decide)]
    simp
  constructor
  · intro h
    refine ⟨ports_ne_none.1 h.ports, envBool_off_eq_false.1 h.privateDests,
      envBool_off_eq_false.1 h.literals, envBool_on.1 h.probe, ?_, ?_, ?_⟩
    · exact fun htrust => trustedProxies_ne_nil.1 (h.proxies (envBool_off.2 htrust))
    · exact fun hpublic => allowedOrigins_listed.1 (h.origins (parseAuthMode_public.2 hpublic))
    · simp only [capVars, List.forall_mem_cons]
      exact ⟨(hcap (by simp)).1 h.globalCap, (hcap (by simp)).1 h.ipCap,
        (hcap (by simp)).1 h.rateCap, (hcap (by simp)).1 h.connectionBytes,
        (hcap (by simp)).1 h.ipBytes, hlifetime.1 h.lifetime, by simp⟩
  · intro h
    have hcaps := h.caps
    simp only [capVars, List.forall_mem_cons] at hcaps
    obtain ⟨hglobal, hip, hrate, hbytes, hipBytes, htime, -⟩ := hcaps
    refine ⟨ports_ne_none.2 h.ports, envBool_off_eq_false.2 h.privateDests,
      envBool_off_eq_false.2 h.literals, envBool_on.2 h.probe, ?_, ?_, (hcap (by simp)).2 hglobal,
      (hcap (by simp)).2 hip, (hcap (by simp)).2 hrate, (hcap (by simp)).2 hbytes,
      (hcap (by simp)).2 hipBytes, hlifetime.2 htime⟩
    · exact fun htrust => trustedProxies_ne_nil.2 (h.proxies (envBool_off.1 htrust))
    · exact fun hpublic => allowedOrigins_listed.2 (h.origins (parseAuthMode_public.1 hpublic))

/-- What a start makes of its environment. -/
def startupOf (args : Args) (env : Env) : Startup where
  config := applyEnv env { secretKey := parseSecretKey env }
  bindAddr := args.bind
  listenPort := args.port
  metricsAuthKey := env metricsAuthTokenVar
  metricsBind := (env "MAILINER_METRICS_ADDR").filter fun s => !s.isEmpty

lemma parseMetricsAuthKey_eq_ok {debugAssertions : Bool} {key : Option Str} :
    parseMetricsAuthKey debugAssertions env = .ok key ↔ key = env metricsAuthTokenVar ∧
      (debugAssertions = true ∨ (env metricsAuthTokenVar).isSome = true) := by
  unfold parseMetricsAuthKey
  cases env metricsAuthTokenVar with
  | some text => simp [eq_comm]
  | none => cases debugAssertions <;> simp [eq_comm]

lemma configure_eq_ok {debugAssertions : Bool} {args : Args} {startup : Startup} :
    configure debugAssertions args env = .ok startup ↔ startup = startupOf args env ∧
      (debugAssertions = true ∨ (env metricsAuthTokenVar).isSome = true ∧
        (envBool env "MAILINER_UNSAFE" false = true ∨ SafeEnv env) ∧
        (PublicAuth env ∨ parseSecretKey env ≠ none)) := by
  have hmode : (applyEnv env { secretKey := parseSecretKey env }).authMode = .paseto ↔
      ¬ PublicAuth env := by
    rw [← parseAuthMode_public]
    change parseAuthMode env = _ ↔ _
    cases parseAuthMode env <;> simp
  rw [← safeConfig_applyEnv (parseSecretKey env), ← publicSafetyErrors_eq_nil]
  unfold configure
  simp only [bind, Except.bind]
  split
  · rename_i e he
    refine iff_of_false (fun h => nomatch h) ?_
    rintro ⟨-, hstart⟩
    have hok : parseMetricsAuthKey debugAssertions env = .ok (env metricsAuthTokenVar) :=
      parseMetricsAuthKey_eq_ok.2 ⟨rfl, hstart.imp_right And.left⟩
    rw [he] at hok
    cases hok
  · rename_i key hkey
    obtain ⟨rfl, hset⟩ := parseMetricsAuthKey_eq_ok.1 hkey
    split
    · rename_i hrefused
      simp only [Bool.and_eq_true, Bool.not_eq_true', List.isEmpty_eq_false_iff] at hrefused
      obtain ⟨⟨herrors, hguarded⟩, hrelease⟩ := hrefused
      refine iff_of_false (fun h => nomatch h) ?_
      rintro ⟨-, hdebug | ⟨-, hunsafe | hsafe, -⟩⟩
      · exact Bool.false_ne_true (hrelease.symm.trans hdebug)
      · exact Bool.false_ne_true (hguarded.symm.trans hunsafe)
      · exact herrors hsafe
    · rename_i hpassed
      split
      · rename_i hmissing
        obtain ⟨hpaseto, hnone, hrelease⟩ := hmissing
        rw [Bool.not_eq_true'] at hrelease
        refine iff_of_false (fun h => nomatch h) ?_
        rintro ⟨-, hdebug | ⟨-, -, hpublic | hsome⟩⟩
        · exact Bool.false_ne_true (hrelease.symm.trans hdebug)
        · exact hmode.1 hpaseto hpublic
        · exact hsome hnone
      · rename_i hsecured
        constructor
        · intro h
          cases h
          refine ⟨rfl, ?_⟩
          cases debugAssertions with
          | true => exact .inl rfl
          | false =>
            refine .inr ⟨hset.resolve_left Bool.false_ne_true, ?_, ?_⟩
            · by_contra hneither
              rw [not_or, Bool.not_eq_true] at hneither
              exact hpassed (by simp [hneither.1, hneither.2])
            · by_contra hneither
              rw [not_or, not_not] at hneither
              exact hsecured ⟨hmode.2 hneither.1, hneither.2, rfl⟩
        · rintro ⟨rfl, -⟩
          rfl

/-- A start succeeds if the command line is read, the log level has a name, the settings pass and
the listener binds. -/
lemma launch_eq_ok {debugAssertions : Bool} {lib : StartLibrary} {startup : Startup} :
    launch debugAssertions lib env = .ok startup ↔ ∃ args, lib.parseArgs env = .ok args ∧
      lib.isLevel args.logLevel = true ∧ lib.bind args.address = .ok () ∧
      configure debugAssertions args env = .ok startup := by
  unfold launch
  rw [except_bind_eq_ok]
  apply exists_congr
  intro args
  rw [and_congr_right_iff]
  intro _
  unfold parseLogLevel
  cases lib.isLevel args.logLevel with
  | false => exact iff_of_false (fun h => by cases h) fun h => Bool.false_ne_true h.1
  | true =>
    change (configure debugAssertions args env >>= fun startup =>
      lib.bind args.address >>= fun _ => .ok startup) = .ok startup ↔ _
    simp only [except_bind_eq_ok, true_and]
    constructor
    · rintro ⟨_, hconfigured, ⟨⟩, hbound, ⟨⟩⟩
      exact ⟨hbound, hconfigured⟩
    · rintro ⟨hbound, hconfigured⟩
      exact ⟨startup, hconfigured, (), hbound, rfl⟩

end Environments

end WsTcpProxy.Proofs
