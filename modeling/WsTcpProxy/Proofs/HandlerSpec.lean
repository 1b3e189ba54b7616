import WsTcpProxy.Server

/-!
# What a request does

The specification of `proxy_handler` over its own history, for all answers of the resolver, the
network and the limiter: where it resolves and dials, and which leases it ends with.
-/

namespace WsTcpProxy.Proofs
open Library

def lookups (history : List Answered) : List (Str × Nat × Timed (List SocketAddr)) :=
  history.filterMap fun
    | ⟨.lookupHost host port, r⟩ => some (host, port, r)
    | _ => none

def grants (history : List Answered) : List ConnectionLease :=
  history.filterMap fun
    | ⟨.acquire _ _, .ok lease⟩ => some lease
    | _ => none

variable (d : Deployment) (req : Request)

/-- The lease that the limiter grants to a client for a destination. -/
def leaseFor (client : IpAddr) (dest : Str) : ConnectionLease :=
  ⟨limitKey client d.config.limits.ipv4Prefix d.config.limits.ipv6Prefix, dest⟩

/-- The resolver answers with the port that it was asked for, and the limiter with the lease. -/
def Admits : (op : Operation) → op.Answer → Prop
  | .lookupHost _ port, .ok addrs => ∀ a ∈ addrs, a.port = port
  | .acquire client dest, .ok lease => lease = leaseFor d client dest
  | _, _ => True

/-- The checks that a request passes before anything else happens. -/
structure Admitted (remote : Remote) : Prop where
  origin : originAllowed req.headers d.config.allowedOrigins = true
  host : hostAllowed req.headers d.config.allowedHosts = true
  token : req.authorized d = .ok ()
  parsed : parseRemote req.query.remote = .ok remote
  policy : checkPolicy remote d.config.dest = .ok ()

def Counted (remote : Remote) (history : List Answered) : Prop :=
  (⟨.recordAttempt (req.client d) remote.destKey, .ok ()⟩ : Answered) ∈ history

/-- An address of the one answer that the request goes by: the literal, or what the policy lets
through of the answer to its only lookup. -/
def InAnswer (remote : Remote) (history : List Answered) (addr : SocketAddr) : Prop :=
  match remote.ipLiteral with
  | some ip => lookups history = [] ∧ addr = ⟨ip, remote.port⟩
  | none => ∃ answer, lookups history = [(remote.host, remote.port, .ok answer)] ∧
      addr ∈ d.config.dest.filterAnswer answer

/-- What holds of every address at the moment it is dialed. -/
structure DialAllowed (remote : Remote) (history : List Answered) (addr : SocketAddr) : Prop where
  admitted : Admitted d req remote
  counted : Counted d req remote history
  port : addr.port = remote.port
  portAllowed : d.config.dest.portAllowed addr.port = true
  routable : d.config.dest.allowPrivateDestinations = true ∨ isGlobalUnicast addr.ip = true
  answered : InAnswer d remote history addr

/-- The request holds no lease and has resolved its name at most once. -/
structure Unleased (history : List Answered) : Prop where
  grants : grants history = []
  lookups : (lookups history).length ≤ 1

def Allowed (history : List Answered) (op : Operation) : Prop :=
  Unleased history ∧
    match op with
    | .lookupHost _ _ => lookups history = []
    | .connect addr => ∃ remote, DialAllowed d req remote history addr
    | _ => True

def Returned (history : List Answered) : Response → Prop
  | .upgrade u =>
    parseRemote req.query.remote = .ok u.remote ∧
      u.lease = leaseFor d (req.client d) u.remote.destKey ∧
      grants history = [u.lease] ∧ (lookups history).length ≤ 1
  | _ => Unleased history

section Histories

variable {d req} {remote : Remote} {history : List Answered} {addr : SocketAddr}

lemma lookups_concat (history : List Answered) (e : Answered) :
    lookups (history ++ [e]) = lookups history ++ lookups [e] := by
  simp [lookups]

lemma grants_concat (history : List Answered) (e : Answered) :
    grants (history ++ [e]) = grants history ++ grants [e] := by
  simp [grants]

lemma Unleased.concat (h : Unleased history) {e : Answered} (hl : Proofs.lookups [e] = [])
    (hg : Proofs.grants [e] = []) : Unleased (history ++ [e]) := by
  constructor
  · rw [grants_concat, h.grants, hg, List.append_nil]
  · rw [lookups_concat, hl, List.append_nil]
    exact h.lookups

lemma Counted.concat (h : Counted d req remote history) (e : Answered) :
    Counted d req remote (history ++ [e]) := List.mem_append_left _ h

/-- A dial does not change what may be dialed. -/
lemma DialAllowed.concat (h : DialAllowed d req remote history addr) {e : Answered}
    (hl : lookups [e] = []) : DialAllowed d req remote (history ++ [e]) addr := by
  refine { h with counted := h.counted.concat e, answered := ?_ }
  have ha := h.answered
  unfold InAnswer at ha ⊢
  rw [lookups_concat, hl, List.append_nil]
  exact ha

lemma checkRequest_ok (h : checkRequest d req = .ok remote) : Admitted d req remote := by
  unfold checkRequest at h
  split at h
  · cases h
  · rename_i horigin
    split at h
    · cases h
    · rename_i hhost
      split at h
      · split at h <;> cases h
      · rename_i htoken
        split at h
        · cases h
        · rename_i parsed hparsed
          split at h
          · cases h
          · rename_i hpolicy
            cases h
            exact ⟨by simpa using horigin, by simpa using hhost, htoken, hparsed, hpolicy⟩

/-- A request that is not admitted is not upgraded. -/
lemma checkRequest_error {response : Response} (h : checkRequest d req = .error response) (u : Upgrade) :
    response ≠ .upgrade u := by
  rintro rfl
  unfold checkRequest at h
  split at h
  · cases h
  · split at h
    · cases h
    · split at h
      · split at h <;> cases h
      · split at h
        · cases h
        · split at h <;> cases h

lemma checkPolicy_port {policy : DestPolicy} (h : checkPolicy remote policy = .ok ()) :
    policy.portAllowed remote.port = true := by
  unfold checkPolicy at h
  split at h
  · cases h
  · rename_i hport
    simpa using hport

end Histories

/-! ### The handler -/

section Handler

variable {d req} {remote : Remote} {history : List Answered}

/-- What the handler knows while it looks for an upstream. -/
structure Searching (d : Deployment) (req : Request) (remote : Remote)
    (history : List Answered) : Prop where
  admitted : Admitted d req remote
  counted : Counted d req remote history
  unleased : Unleased history

lemma Searching.concat (h : Searching d req remote history) {e : Answered}
    (hl : lookups [e] = []) (hg : grants [e] = []) :
    Searching d req remote (history ++ [e]) :=
  ⟨h.admitted, h.counted.concat e, h.unleased.concat hl hg⟩

def Resolved (d : Deployment) (req : Request) (remote : Remote) (history : List Answered)
    (r : Except DestError (List SocketAddr)) : Prop :=
  Searching d req remote history ∧
    ∀ addrs, r = .ok addrs → ∀ addr ∈ addrs, DialAllowed d req remote history addr

lemma resolveFiltered_literal (h : Searching d req remote history) {ip : IpAddr}
    (hip : remote.ipLiteral = some ip) (hlookups : lookups history = [])
    (hroute : d.config.dest.allowPrivateDestinations = true ∨ isGlobalUnicast ip = true) :
    DialAllowed d req remote history ⟨ip, remote.port⟩ where
  admitted := h.admitted
  counted := h.counted
  port := rfl
  portAllowed := checkPolicy_port h.admitted.policy
  routable := hroute
  answered := by
    unfold InAnswer
    rw [hip]
    exact ⟨hlookups, rfl⟩

lemma resolveFiltered_answer (h : Searching d req remote history) {answer : List SocketAddr}
    (hip : remote.ipLiteral = none)
    (hlookups : lookups history = [(remote.host, remote.port, .ok answer)])
    (hports : ∀ a ∈ answer, a.port = remote.port) {addr : SocketAddr}
    (hmem : addr ∈ d.config.dest.filterAnswer answer) : DialAllowed d req remote history addr := by
  obtain ⟨hanswer, hroute⟩ := List.mem_filter.1 hmem
  have hport := hports addr hanswer
  refine ⟨h.admitted, h.counted, hport, ?_, by simpa using hroute, ?_⟩
  · rw [hport]
    exact checkPolicy_port h.admitted.policy
  · unfold InAnswer
    rw [hip]
    exact ⟨answer, hlookups, hmem⟩

lemma resolveFiltered_spec (h : Searching d req remote history) (hlookups : lookups history = []) :
    Prog.Spec (Admits d) (Allowed d req) (Resolved d req remote) history
      (resolveFiltered remote d.config.dest) := by
  unfold resolveFiltered
  split
  · rename_i ip hip
    split
    · exact ⟨h, fun _ h => by cases h⟩
    · rename_i hroute
      refine ⟨h, ?_⟩
      rintro _ ⟨⟩ addr hmem
      rw [List.mem_singleton] at hmem
      subst hmem
      refine resolveFiltered_literal h hip hlookups ?_
      simpa [-not_or, or_iff_not_imp_left] using hroute
  · rename_i hip
    refine Prog.Spec.bind (Q := fun history' r =>
      (∃ e, history' = history ++ [e] ∧ grants [e] = []) ∧
        lookups history' = [(remote.host, remote.port, r)] ∧
        ∀ answer, r = .ok answer → ∀ a ∈ answer, a.port = remote.port)
      (Prog.Spec.call ⟨h.unleased, hlookups⟩ ?_) ?_
    · intro r hr
      refine ⟨⟨_, rfl, rfl⟩, ?_, ?_⟩
      · rw [lookups_concat, hlookups]
        rfl
      · rintro answer rfl
        exact hr
    · rintro history' r ⟨⟨e, rfl, hg⟩, hl, hports⟩
      have hsearch : Searching d req remote (history ++ [e]) := by
        refine ⟨h.admitted, h.counted.concat e, ?_, ?_⟩
        · rw [grants_concat, h.unleased.grants, hg, List.append_nil]
        · rw [hl]
          exact le_rfl
      cases r with
      | ok answer =>
        dsimp only
        split
        · exact ⟨hsearch, fun _ h => by cases h⟩
        · refine ⟨hsearch, ?_⟩
          rintro _ ⟨⟩ addr hmem
          exact resolveFiltered_answer hsearch hip hl (hports answer rfl) hmem
      | failed => exact ⟨hsearch, fun _ h => by cases h⟩
      | elapsed => exact ⟨hsearch, fun _ h => by cases h⟩

lemma connectLoop_spec (lastErr : DestError) (addrs : List SocketAddr)
    (h : Searching d req remote history)
    (hdial : ∀ addr ∈ addrs, DialAllowed d req remote history addr) :
    Prog.Spec (Admits d) (Allowed d req) (fun history' _ => Searching d req remote history')
      history (connectLoop lastErr addrs) := by
  induction addrs generalizing history lastErr with
  | nil => exact h
  | cons addr addrs ih =>
    rw [connectLoop]
    refine Prog.Spec.bind (Q := fun history' _ => Searching d req remote history' ∧
      ∀ addr ∈ addrs, DialAllowed d req remote history' addr)
      (Prog.Spec.call ⟨h.unleased, remote, hdial addr List.mem_cons_self⟩ ?_) ?_
    · intro r _
      refine ⟨h.concat rfl rfl, ?_⟩
      intro addr hmem
      exact (hdial addr (List.mem_cons_of_mem _ hmem)).concat rfl
    · rintro history' r ⟨hsearch, hrest⟩
      cases r with
      | ok _ => exact hsearch
      | failed => exact ih .connect hsearch hrest
      | elapsed => exact ih .connect hsearch hrest

lemma openUpstream_spec (h : Admitted d req remote) :
    Prog.Spec (Admits d) (Allowed d req) (Returned d req) [] (openUpstream d req remote) := by
  have hstart : Unleased [] := ⟨rfl, Nat.zero_le _⟩
  refine Prog.Spec.bind (Q := fun history r => Unleased history ∧
    (r = .ok () → Searching d req remote history ∧ lookups history = []))
    (Prog.Spec.call ⟨hstart, trivial⟩ ?_) ?_
  · intro r _
    have hunleased := hstart.concat (e := ⟨.recordAttempt (req.client d) remote.destKey, r⟩) rfl rfl
    refine ⟨hunleased, ?_⟩
    rintro rfl
    exact ⟨⟨h, List.mem_singleton.2 rfl, hunleased⟩, rfl⟩
  rintro history r ⟨hunleased, hcounted⟩
  cases r with
  | error e => exact hunleased
  | ok _ =>
    obtain ⟨hsearch, hlookups⟩ := hcounted rfl
    refine Prog.Spec.bind (resolveFiltered_spec hsearch hlookups) ?_
    rintro history r ⟨hsearch, hdial⟩
    cases r with
    | error e => exact hsearch.unleased
    | ok addrs =>
      refine Prog.Spec.bind (connectLoop_spec .connect addrs hsearch (hdial addrs rfl)) ?_
      intro history r hsearch
      cases r with
      | error e => exact hsearch.unleased
      | ok tcp =>
        refine Prog.Spec.bind (Q := fun history r =>
          (∀ e, r = .error e → Unleased history) ∧ ∀ lease, r = .ok lease →
            lease = leaseFor d (req.client d) remote.destKey ∧ grants history = [lease] ∧
            (lookups history).length ≤ 1)
          (Prog.Spec.call ⟨hsearch.unleased, trivial⟩ ?_) ?_
        · intro r hr
          refine ⟨?_, ?_⟩
          · rintro e rfl
            exact hsearch.unleased.concat rfl rfl
          · rintro lease rfl
            refine ⟨hr, ?_, ?_⟩
            · rw [grants_concat, hsearch.unleased.grants]
              rfl
            · rw [lookups_concat]
              exact (List.append_nil _).symm ▸ hsearch.unleased.lookups
        · rintro history r ⟨herror, hlease⟩
          cases r with
          | error e => exact herror e rfl
          | ok lease =>
            obtain ⟨hfor, hgrants, hlookups⟩ := hlease lease rfl
            exact ⟨h.parsed, hfor, hgrants, hlookups⟩

theorem proxyHandler_spec (d : Deployment) (req : Request) :
    Prog.Spec (Admits d) (Allowed d req) (Returned d req) [] (proxyHandler d req) := by
  unfold proxyHandler
  split
  · rename_i response hcheck
    cases response with
    | upgrade u => exact absurd rfl (checkRequest_error hcheck u)
    | _ => exact ⟨rfl, Nat.zero_le _⟩
  · exact openUpstream_spec (checkRequest_ok ‹_›)

end Handler

end WsTcpProxy.Proofs
