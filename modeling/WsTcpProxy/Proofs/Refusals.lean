import WsTcpProxy.Proofs.HandlerSpec
import WsTcpProxy.Proofs.TextLemmas

/-!
# Refused requests

The checks that a request undergoes before the limiter is asked, and the response to each failure.
-/

namespace WsTcpProxy.Proofs

section Refusals

variable (d : Deployment) (req : Request)

structure HeadersPass : Prop where
  origin : originAllowed req.headers d.config.allowedOrigins = true
  host : hostAllowed req.headers d.config.allowedHosts = true

/-- The refusals before the limiter is asked, in the order of the checks. -/
inductive Refused : Response → Prop
  | badOrigin (h : originAllowed req.headers d.config.allowedOrigins = false) :
      Refused (.reject .forbidden .badOrigin "origin not allowed")
  | badHost (horigin : originAllowed req.headers d.config.allowedOrigins = true)
      (h : hostAllowed req.headers d.config.allowedHosts = false) :
      Refused (.reject .forbidden .badHost "host not allowed")
  | noKey (hheaders : HeadersPass d req) (h : req.authorized d = .error .internalServerError) :
      Refused (.error .internalServerError)
  | unauthorized (hheaders : HeadersPass d req) (h : req.authorized d = .error .unauthorized) :
      Refused (.reject .unauthorized .auth "unauthorized")
  | invalidRemote (hheaders : HeadersPass d req) (htoken : req.authorized d = .ok ())
      (h : ∀ remote, parseRemote req.query.remote ≠ .ok remote) :
      Refused (.reject .badRequest .invalidRemote "invalid remote")
  | badPort {remote : Remote} (hheaders : HeadersPass d req) (htoken : req.authorized d = .ok ())
      (hparsed : parseRemote req.query.remote = .ok remote)
      (h : d.config.dest.portAllowed remote.port = false) :
      Refused (.reject .forbidden .badPort "destination port not allowed")
  | ipLiteral {remote : Remote} {ip : IpAddr} (hheaders : HeadersPass d req)
      (htoken : req.authorized d = .ok ()) (hparsed : parseRemote req.query.remote = .ok remote)
      (hport : d.config.dest.portAllowed remote.port = true) (hip : remote.ipLiteral = some ip)
      (h : d.config.dest.allowIpLiterals = false) :
      Refused (.reject .forbidden .ipLiteral "IP literals are not allowed")
  | privateIp {remote : Remote} {ip : IpAddr} (hheaders : HeadersPass d req)
      (htoken : req.authorized d = .ok ()) (hparsed : parseRemote req.query.remote = .ok remote)
      (hport : d.config.dest.portAllowed remote.port = true) (hip : remote.ipLiteral = some ip)
      (hliteral : d.config.dest.allowIpLiterals = true)
      (h : ¬ (d.config.dest.allowPrivateDestinations = true ∨ isGlobalUnicast ip = true)) :
      Refused (.reject .forbidden .privateIp "destination is not a public address")

variable {d req} {remote : Remote} {response : Response}

lemma routable_iff {policy : DestPolicy} {ip : IpAddr} :
    (!policy.allowPrivateDestinations && !isGlobalUnicast ip) = true ↔
      ¬ (policy.allowPrivateDestinations = true ∨ isGlobalUnicast ip = true) := by
  simp

lemma okOr_error {α : Type} {a : Option α} {e e' : DestError} (h : okOr e a = .error e') : e' = e := by
  cases a with
  | none =>
    cases h
    rfl
  | some a => cases h

lemma splitRemote_error {raw : Str} {e : DestError} (h : splitRemote raw = .error e) :
    e = .invalidRemote := by
  unfold splitRemote at h
  split at h
  · obtain h | ⟨⟨host, after⟩, -, h⟩ := except_bind_eq_error.mp h
    · exact okOr_error h
    · obtain h | ⟨port, -, h⟩ := except_bind_eq_error.mp h
      · exact okOr_error h
      · cases h
  · obtain h | ⟨⟨host, port⟩, -, h⟩ := except_bind_eq_error.mp h
    · exact okOr_error h
    · dsimp only at h
      split at h
      · cases h
        rfl
      · cases h

lemma hostAndPort_error {raw : Str} {e : DestError} (h : hostAndPort raw = .error e) :
    e = .invalidRemote := by
  unfold hostAndPort at h
  dsimp only at h
  split at h
  · cases h
    rfl
  · obtain h | ⟨⟨hostRaw, portStr⟩, -, h⟩ := except_bind_eq_error.mp h
    · exact splitRemote_error h
    · dsimp only at h
      split at h
      · cases h
        rfl
      · obtain h | ⟨port, -, h⟩ := except_bind_eq_error.mp h
        · exact okOr_error h
        · split at h
          · cases h
            rfl
          · cases h

/-- `parse_remote` has one error. -/
lemma parseRemote_error {raw : Str} {e : DestError} (h : parseRemote raw = .error e) :
    e = .invalidRemote := by
  obtain h | ⟨⟨hostRaw, port⟩, -, h⟩ := except_bind_eq_error.mp h
  · exact hostAndPort_error h
  · change classifyHost hostRaw port = .error e at h
    unfold classifyHost at h
    split at h
    · cases h
    · split at h
      · cases h
      · dsimp only at h
        split at h
        · cases h
        · cases h
          rfl

lemma checkTtl_error {lib : TokenLibrary} {maxTtl : Duration} {now : UtcTime} {claims : Claims}
    {status : StatusCode} (h : checkTtl lib maxTtl now claims = .error status) :
    status = .unauthorized := by
  unfold checkTtl at h
  split at h
  · cases h
  · split at h
    · cases h
      rfl
    · split at h
      · cases h
        rfl
      · dsimp only at h
        split at h
        · cases h
          rfl
        · cases h

lemma authorized_error {status : StatusCode} (h : req.authorized d = .error status) :
    status = .unauthorized ∨ status = .internalServerError := by
  unfold Request.authorized validateToken at h
  split at h
  · cases h
  · split at h
    · cases h
    · split at h
      · cases h
        exact .inl rfl
      · split at h
        · cases h
          exact .inr rfl
        · split at h
          · cases h
            exact .inl rfl
          · exact .inl (checkTtl_error h)

lemma checkPolicy_error {policy : DestPolicy} {e : DestError} (h : checkPolicy remote policy = .error e) :
    (policy.portAllowed remote.port = false ∧ e = .badPort) ∨
    (policy.portAllowed remote.port = true ∧ ∃ ip, remote.ipLiteral = some ip ∧
      ((policy.allowIpLiterals = false ∧ e = .ipLiteral) ∨
        (policy.allowIpLiterals = true ∧ e = .privateIp ∧
          ¬ (policy.allowPrivateDestinations = true ∨ isGlobalUnicast ip = true)))) := by
  unfold checkPolicy at h
  cases hport : policy.portAllowed remote.port with
  | false =>
    rw [hport] at h
    cases h
    exact .inl ⟨rfl, rfl⟩
  | true =>
    refine .inr ⟨rfl, ?_⟩
    rw [hport] at h
    cases hip : remote.ipLiteral with
    | none =>
      rw [hip] at h
      cases h
    | some ip =>
      refine ⟨ip, rfl, ?_⟩
      rw [hip] at h
      cases hliteral : policy.allowIpLiterals with
      | false =>
        rw [hliteral] at h
        cases h
        exact .inl ⟨rfl, rfl⟩
      | true =>
        rw [hliteral] at h
        change (if (!policy.allowPrivateDestinations && !isGlobalUnicast ip) = true then _ else _) = _ at h
        split at h
        · cases h
          exact .inr ⟨rfl, rfl, routable_iff.mp ‹_›⟩
        · cases h

lemma checkRequest_ok_iff : checkRequest d req = .ok remote ↔ Admitted d req remote := by
  constructor
  · exact checkRequest_ok
  · rintro ⟨horigin, hhost, htoken, hparsed, hpolicy⟩
    simp [checkRequest, horigin, hhost, htoken, hparsed, hpolicy]

/-- The refusals behind the checks of the headers. -/
lemma refused_of_error (hheaders : HeadersPass d req) (h : checkRequest d req = .error response) :
    Refused d req response := by
  simp only [checkRequest, hheaders.origin, hheaders.host, Bool.not_true, Bool.false_eq_true, if_false] at h
  split at h
  case h_1 status htoken =>
    obtain rfl | rfl := authorized_error htoken
    · cases h
      exact .unauthorized hheaders htoken
    · cases h
      exact .noKey hheaders htoken
  case h_2 htoken =>
    split at h
    case h_1 e hparsed =>
      cases parseRemote_error hparsed
      cases h
      refine .invalidRemote hheaders htoken fun remote hok => ?_
      cases hparsed.symm.trans hok
    case h_2 remote hparsed =>
      split at h
      case h_1 e hpolicy =>
        cases h
        obtain ⟨hport, rfl⟩ | ⟨hport, ip, hip, ⟨hliteral, rfl⟩ | ⟨hliteral, rfl, hroute⟩⟩ :=
          checkPolicy_error hpolicy
        · exact .badPort hheaders htoken hparsed hport
        · exact .ipLiteral hheaders htoken hparsed hport hip hliteral
        · exact .privateIp hheaders htoken hparsed hport hip hliteral hroute
      case h_2 => cases h

lemma checkRequest_error_iff : checkRequest d req = .error response ↔ Refused d req response := by
  constructor
  · intro hcheck
    have h := hcheck
    unfold checkRequest at h
    split at h
    case isTrue horigin =>
      cases h
      exact .badOrigin (by simpa using horigin)
    case isFalse horigin =>
      rw [Bool.not_eq_true', Bool.not_eq_false] at horigin
      split at h
      case isTrue hhost =>
        cases h
        exact .badHost horigin (by simpa using hhost)
      case isFalse hhost =>
        rw [Bool.not_eq_true', Bool.not_eq_false] at hhost
        exact refused_of_error ⟨horigin, hhost⟩ hcheck
  · intro h
    cases h with
    | badOrigin h => simp [checkRequest, h]
    | badHost horigin h => simp [checkRequest, horigin, h]
    | noKey hheaders h => simp [checkRequest, hheaders.origin, hheaders.host, h]
    | unauthorized hheaders h => simp [checkRequest, hheaders.origin, hheaders.host, h]
    | invalidRemote hheaders htoken h =>
      cases hparsed : parseRemote req.query.remote with
      | ok remote => exact absurd hparsed (h remote)
      | error e =>
        cases parseRemote_error hparsed
        simp [checkRequest, hheaders.origin, hheaders.host, htoken, hparsed, rejectDest, destStatus,
          destMessage, RejectReason.ofDestError]
    | badPort hheaders htoken hparsed h =>
      simp [checkRequest, hheaders.origin, hheaders.host, htoken, hparsed, checkPolicy, h, rejectDest,
        destStatus, destMessage, RejectReason.ofDestError]
    | ipLiteral hheaders htoken hparsed hport hip h =>
      simp [checkRequest, hheaders.origin, hheaders.host, htoken, hparsed, checkPolicy, h, rejectDest,
        destStatus, destMessage, RejectReason.ofDestError, hport, hip]
    | privateIp hheaders htoken hparsed hport hip hliteral h =>
      rw [← routable_iff] at h
      simp [checkRequest, hheaders.origin, hheaders.host, htoken, hparsed, checkPolicy, h, rejectDest,
        destStatus, destMessage, RejectReason.ofDestError, hport, hip, hliteral]

end Refusals

end WsTcpProxy.Proofs
