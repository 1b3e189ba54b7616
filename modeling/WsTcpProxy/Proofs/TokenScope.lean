import WsTcpProxy.Proofs.HandlerHistories

/-!
# What a token is good for

A token opens one destination, within one window of time, however often it is used and by whom.
-/

namespace WsTcpProxy.Proofs
open Library

/-- What the encryption of a token protects. -/
structure TokenBody where
  remote : Str
  notBefore : Option Str
  claims : Claims

/-- What the parser accepts is what the key decrypts, its claim `remote` has the value expected, and
the validator of `exp` is content. -/
def Decrypts (lib : TokenLibrary) (decrypt : Bytes → Str → Option TokenBody) : Prop :=
  ∀ now valid remote token key claims, lib.parse now valid remote token key = some claims →
    ∃ body, decrypt key token = some body ∧ body.remote = remote ∧ body.claims = claims ∧
      valid (claims.exp.getD []) = true

/-- A token for the remote that expires at the given instant. -/
structure Names (d : Deployment) (decrypt : Bytes → Str → Option TokenBody) (token remote : Str)
    (expiry : UtcTime) : Prop where
  nonempty : token ≠ []
  body : ∃ key body exp, d.config.secretKey = some key ∧ decrypt key token = some body ∧
    body.remote = remote ∧ body.claims.exp = some exp ∧ exp ≠ [] ∧
    d.lib.parseRfc3339 exp = some expiry

/-- The clock readings with which a token that expires at the given instant is accepted. -/
structure InTime (maxTtl : Duration) (now : UtcReadings) (expiry : UtcTime) : Prop where
  unexpired : now.validation < expiry
  begun : maxTtl ≠ 0 → expiry - (maxTtl : Int) ≤ now.ttl
  ttl : maxTtl ≠ 0 → now.ttl ≤ expiry

section Tokens

variable {d : Deployment} {decrypt : Bytes → Str → Option TokenBody} {token remote : Str}
  {expiry : UtcTime} {maxTtl : Duration} {now : UtcReadings}

lemma validExp_true {lib : TokenLibrary} {now : UtcTime} {val : Str} (h : validExp lib now val = true) :
    val ≠ [] ∧ ∃ expiry, lib.parseRfc3339 val = some expiry ∧ now < expiry := by
  unfold validExp at h
  split at h
  · cases h
  · rename_i hne
    split at h
    · cases h
    · rename_i expiry hexpiry
      refine ⟨by simpa using hne, expiry, hexpiry, ?_⟩
      simpa using h

lemma checkTtl_ok {lib : TokenLibrary} {now : UtcTime} {claims : Claims} {exp : Str}
    (hexp : claims.exp = some exp) (hparse : lib.parseRfc3339 exp = some expiry)
    (h : checkTtl lib maxTtl now claims = .ok ()) (hmax : maxTtl ≠ 0) :
    expiry - (maxTtl : Int) ≤ now ∧ now ≤ expiry := by
  unfold checkTtl at h
  rw [if_neg hmax, hexp] at h
  dsimp only at h
  rw [hparse] at h
  dsimp only at h
  split at h
  · cases h
  · rename_i hinside
    rw [not_or, not_lt, not_lt] at hinside
    exact ⟨by linarith [hinside.2], by linarith [hinside.1]⟩

lemma Names.unique {remote' : Str} {expiry' : UtcTime} (h : Names d decrypt token remote expiry)
    (h' : Names d decrypt token remote' expiry') : remote = remote' ∧ expiry = expiry' := by
  obtain ⟨key, body, exp, hkey, hbody, rfl, hexp, -, hexpiry⟩ := h.body
  obtain ⟨key', body', exp', hkey', hbody', rfl, hexp', -, hexpiry'⟩ := h'.body
  cases hkey.symm.trans hkey'
  cases hbody.symm.trans hbody'
  cases hexp.symm.trans hexp'
  exact ⟨rfl, Option.some.inj (hexpiry.symm.trans hexpiry')⟩

/-- The tokens that a release build accepts, and when. -/
lemma names_of_authorized (hmode : d.config.authMode = .paseto) (hrelease : d.debugAssertions = false)
    (hlib : Decrypts d.lib decrypt) {req : Request} (h : req.authorized d = .ok ()) :
    ∃ expiry, Names d decrypt (proxyToken req.query req.headers) req.query.remote expiry ∧
      InTime d.config.pasetoMaxTtl req.now expiry := by
  unfold Request.authorized validateToken at h
  rw [hmode, hrelease] at h
  simp only [reduceCtorEq, if_false, Bool.false_eq_true, false_and] at h
  split at h
  · cases h
  · rename_i hne
    split at h
    · cases h
    · rename_i key hkey
      split at h
      · cases h
      · rename_i claims hclaims
        obtain ⟨body, hbody, hremote, rfl, hvalid⟩ := hlib _ _ _ _ _ _ hclaims
        obtain ⟨hsome, expiry, hexpiry, hlt⟩ := validExp_true hvalid
        cases hexp : body.claims.exp with
        | none =>
          rw [hexp] at hsome
          exact absurd rfl hsome
        | some exp =>
          rw [hexp] at hsome hexpiry
          have httl := checkTtl_ok hexp hexpiry h
          refine ⟨expiry, ⟨?_, key, body, exp, hkey, hbody, hremote, hexp, hsome, hexpiry⟩, hlt,
            fun hmax => (httl hmax).1, fun hmax => (httl hmax).2⟩
          intro hnil
          rw [hnil] at hne
          exact hne rfl

end Tokens

/-- A request that has turned to the limiter was authorized. -/
lemma authorized_of_started {d : Deployment} {now : Instant} {trace : ServerTrace} {s : Server}
    {id : ℕ} {a : Active} (hrun : ServerRuns d now trace s) (ha : s.requests id = some a)
    (hstarted : historyOf id trace ≠ []) : a.request.authorized d = .ok () := by
  obtain ⟨rest, response, hlife, -⟩ := requests_begin_concluded hrun ha
  have hadmitted : ∃ remote, Admitted d a.request remote := by
    generalize hhistory : historyOf id trace ++ rest = history at hlife
    cases hlife with
    | rejected => exact absurd (List.append_eq_nil_iff.mp hhistory).1 hstarted
    | _ => exact ⟨_, by assumption⟩
  obtain ⟨remote, hremote⟩ := hadmitted
  exact hremote.token

/-- In every run of a release build, all the requests for which a token has opened the limiter, the
resolver or an upstream ask for one remote, at readings of the clock within one window as long as
the configured lifetime of a token. -/
theorem token_scope (d : Deployment) (decrypt : Bytes → Str → Option TokenBody)
    (hmode : d.config.authMode = .paseto) (hrelease : d.debugAssertions = false)
    (hlib : Decrypts d.lib decrypt) (now : Instant) (trace : ServerTrace) (s : Server)
    (hrun : ServerRuns d now trace s) (token : Str) :
    ∃ remote expiry, ∀ id a, s.requests id = some a →
      proxyToken a.request.query a.request.headers = token → historyOf id trace ≠ [] →
        a.request.query.remote = remote ∧ InTime d.config.pasetoMaxTtl a.request.now expiry := by
  have haccepted : ∀ id a, s.requests id = some a →
      proxyToken a.request.query a.request.headers = token → historyOf id trace ≠ [] →
        ∃ expiry, Names d decrypt token a.request.query.remote expiry ∧
          InTime d.config.pasetoMaxTtl a.request.now expiry := by
    intro id a ha htoken hstarted
    rw [← htoken]
    exact names_of_authorized hmode hrelease hlib (authorized_of_started hrun ha hstarted)
  by_cases hnames : ∃ remote expiry, Names d decrypt token remote expiry
  · obtain ⟨remote, expiry, hnames⟩ := hnames
    refine ⟨remote, expiry, ?_⟩
    intro id a ha htoken hstarted
    obtain ⟨expiry', hnames', htime⟩ := haccepted id a ha htoken hstarted
    obtain ⟨rfl, rfl⟩ := hnames.unique hnames'
    exact ⟨rfl, htime⟩
  · refine ⟨[], 0, ?_⟩
    intro id a ha htoken hstarted
    obtain ⟨expiry, hexpiry, -⟩ := haccepted id a ha htoken hstarted
    exact absurd ⟨_, expiry, hexpiry⟩ hnames

/-! ### A token in use -/

/-- The parser over a decryption, with its check of `nbf`. -/
def libraryOf (decrypt : Bytes → Str → Option TokenBody) (parseRfc3339 : Str → Option UtcTime) :
    TokenLibrary where
  parse now valid remote token key :=
    (decrypt key token).bind fun body =>
      if body.remote = remote ∧ valid (body.claims.exp.getD []) = true ∧
          body.notBefore.all (fun text => (parseRfc3339 text).any (· < now)) = true then
        some body.claims
      else none
  parseRfc3339 := parseRfc3339

lemma decrypts_libraryOf (decrypt : Bytes → Str → Option TokenBody)
    (parseRfc3339 : Str → Option UtcTime) : Decrypts (libraryOf decrypt parseRfc3339) decrypt := by
  intro now valid remote token key claims h
  obtain ⟨body, hbody, h⟩ := Option.bind_eq_some_iff.mp h
  split_ifs at h with hvalid
  cases h
  exact ⟨body, hbody, hvalid.1, rfl, hvalid.2.1⟩

/-- The bytes 0 to 31. -/
def mailKey : Bytes := (List.range 32).map UInt8.ofNat

/-- A token under `mailKey` for `mail:143`, good from the end of 2024 to the start of 2025. -/
def mailToken : Str :=
  "v4.local.ZGVmZ2hpamtsbW5vcHFyc3R1dnd4eXp7fH1-f4CBgoOy7jON9kWG6k9xKnJpozm0Z_mkWEWAIbZTk".toList ++
    "7KYOGSgLqSVPidWgMZzjwavO9RVglctzoZFUg65-EsfaM3jVB3ZLKS7ozVRDiSD3xNcyL-deaXaWLIDbAeiI3V".toList ++
    "XJaYsse5BleeNXgR7oK7okroZGO_2GntGjrxZx31zAUiU7_4G5GuOWJ7KnRjqnm41Pm6YwekOV8vmN6UGmnPny".toList ++
    "Q".toList

def mailExpiry : Str := "2025-01-01T00:00:00+00:00".toList

def mailStart : Str := "2024-12-31T00:00:00+00:00".toList

def decryptMail (key : Bytes) (token : Str) : Option TokenBody :=
  if key = mailKey ∧ token = mailToken then some ⟨"mail:143".toList, some mailStart, ⟨some mailExpiry⟩⟩
  else none

def newYear : UtcTime := 1735689600 * 10 ^ 9

def parseDates (text : Str) : Option UtcTime :=
  if text = mailExpiry then some newYear
  else if text = mailStart then some (newYear - fromSecs 86400)
  else none

def tokenDeployment : Deployment where
  config := { secretKey := some mailKey, pasetoMaxTtl := fromSecs 3600 }
  lib := libraryOf decryptMail parseDates
  debugAssertions := false

/-- A request that many seconds before the token expires. -/
def tokenRequest (ahead : Nat) : Request where
  query := { token := mailToken, remote := "mail:143".toList }
  peer := ⟨.v4 (.new 192 0 2 1), 5000⟩
  now := ⟨newYear - fromSecs ahead, newYear - fromSecs ahead, newYear - fromSecs ahead⟩

set_option maxRecDepth 10000 in
theorem token_scope_mail :
    ∃ trace s remote expiry, ServerRuns tokenDeployment 0 trace s ∧ historyOf 0 trace ≠ [] ∧
      historyOf 1 trace ≠ [] ∧ "mail:143".toList = remote ∧
      InTime (fromSecs 3600) (tokenRequest 1800).now expiry ∧
      InTime (fromSecs 3600) (tokenRequest 600).now expiry := by
  have hrun : ServerRuns tokenDeployment 0 _ _ :=
    Runs.of_inputs [.arrive 0 (tokenRequest 1800), .arrive 1 (tokenRequest 600),
      .answer 1 (.limiter 1), .answer 0 (.limiter 2)] rfl
  obtain ⟨remote, expiry, hscope⟩ := token_scope tokenDeployment decryptMail rfl rfl
    (decrypts_libraryOf _ _) 0 _ _ hrun mailToken
  obtain ⟨hremote, hfirst⟩ := hscope 0 _ rfl rfl (List.cons_ne_nil _ _)
  obtain ⟨-, hsecond⟩ := hscope 1 _ rfl rfl (List.cons_ne_nil _ _)
  exact ⟨_, _, remote, expiry, hrun, List.cons_ne_nil _ _, List.cons_ne_nil _ _, hremote, hfirst, hsecond⟩

end WsTcpProxy.Proofs
