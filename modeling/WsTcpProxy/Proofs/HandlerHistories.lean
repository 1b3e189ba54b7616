import WsTcpProxy.Proofs.DialSafety
import WsTcpProxy.Proofs.Refusals

/-!
# Histories of a request

All that a request can do from its arrival to its response, for any answers whatever.
-/

namespace WsTcpProxy.Proofs
open Library

def anyAnswer : (op : Operation) → op.Answer → Prop := fun _ _ => True

/-- Dials of all the addresses in their order, none of which was accepted. -/
def RefusedDials (addrs : List SocketAddr) (history : List Answered) : Prop :=
  List.Forall₂ (fun addr e => ∃ r : Timed Unit, r ≠ .ok () ∧ e = ⟨.connect addr, r⟩) addrs history

/-- How a remote turns into the addresses that may be dialed, or into a refusal. -/
inductive Resolution (policy : DestPolicy) (remote : Remote) :
    List Answered → Except DestError (List SocketAddr) → Prop
  | literal {ip : IpAddr} (hip : remote.ipLiteral = some ip)
      (hroute : policy.allowPrivateDestinations = true ∨ isGlobalUnicast ip = true) :
      Resolution policy remote [] (.ok [⟨ip, remote.port⟩])
  | privateLiteral {ip : IpAddr} (hip : remote.ipLiteral = some ip)
      (hroute : ¬ (policy.allowPrivateDestinations = true ∨ isGlobalUnicast ip = true)) :
      Resolution policy remote [] (.error .privateIp)
  | answered {answer : List SocketAddr} (hip : remote.ipLiteral = none)
      (hsome : policy.filterAnswer answer ≠ []) :
      Resolution policy remote [⟨.lookupHost remote.host remote.port, Timed.ok answer⟩]
        (.ok (policy.filterAnswer answer))
  | privateAnswer {answer : List SocketAddr} (hip : remote.ipLiteral = none)
      (hnone : policy.filterAnswer answer = []) :
      Resolution policy remote [⟨.lookupHost remote.host remote.port, Timed.ok answer⟩]
        (.error .privateIp)
  | unresolved {r : Timed (List SocketAddr)} (hip : remote.ipLiteral = none)
      (hr : ∀ answer, r ≠ .ok answer) :
      Resolution policy remote [⟨.lookupHost remote.host remote.port, r⟩] (.error .dns)

variable (d : Deployment) (req : Request)

def counted (remote : Remote) (r : Except LimitError Unit) : Answered :=
  ⟨.recordAttempt (req.client d) remote.destKey, r⟩

/-- The upgrade of a request whose upstream `tcp` was accepted. -/
def upgradeOf (remote : Remote) (tcp : SocketAddr) (lease : ConnectionLease) : Upgrade where
  remote := remote
  client := req.client d
  tcp := tcp
  lease := lease
  maxMessageSize := d.config.wsMaxMessageBytes
  maxFrameSize := d.config.wsMaxFrameBytes
  protocol := offeredAuthProtocol req.headers

/-- The whole life of a request: the operations it performed with their answers, and its response. -/
inductive Concluded : List Answered → Response → Prop
  | rejected {response : Response} (h : Refused d req response) : Concluded [] response
  | limited {remote : Remote} {e : LimitError} (h : Admitted d req remote) :
      Concluded [counted d req remote (.error e)] (rejectLimit e)
  | unresolved {remote : Remote} {history : List Answered} {e : DestError}
      (h : Admitted d req remote)
      (hresolve : Resolution d.config.dest remote history (.error e)) :
      Concluded (counted d req remote (.ok ()) :: history) (rejectDest e)
  | unreachable {remote : Remote} {history dials : List Answered} {addrs : List SocketAddr}
      (h : Admitted d req remote)
      (hresolve : Resolution d.config.dest remote history (.ok addrs))
      (hdials : RefusedDials addrs dials) :
      Concluded (counted d req remote (.ok ()) :: (history ++ dials)) (rejectDest .connect)
  | connected {remote : Remote} {history dials : List Answered} {tried untried : List SocketAddr}
      {addr : SocketAddr} (r : Except LimitError ConnectionLease) (h : Admitted d req remote)
      (hresolve : Resolution d.config.dest remote history (.ok (tried ++ addr :: untried)))
      (hdials : RefusedDials tried dials) :
      Concluded (counted d req remote (.ok ()) :: (history ++ (dials ++
          [⟨.connect addr, Timed.ok ()⟩, ⟨.acquire (req.client d) remote.destKey, r⟩])))
        (match r with
        | .ok lease => .upgrade (upgradeOf d req remote addr lease)
        | .error e => rejectLimit e)

section Yields

variable {d req} {remote : Remote} {history : List Answered}

lemma yields_pure_iff {α : Type} {a b : α} :
    (pure a : Handler α).Yields anyAnswer history b ↔ history = [] ∧ a = b := Iff.rfl

lemma call_yields_iff {β : Type} {op : Operation} {f : op.Answer → Handler β} {b : β} :
    (Prog.call op >>= f).Yields anyAnswer history b ↔
      ∃ ans rest, history = ⟨op, ans⟩ :: rest ∧ (f ans).Yields anyAnswer rest b := by
  rw [Prog.yields_call_bind_iff]
  simp only [anyAnswer, true_and]

lemma recordAttempt_yields_iff {β : Type} {client : IpAddr} {dest : Str}
    {f : Except LimitError Unit → Handler β} {b : β} :
    (recordAttempt client dest >>= f).Yields anyAnswer history b ↔
      ∃ ans rest, history = ⟨.recordAttempt client dest, ans⟩ :: rest ∧ (f ans).Yields anyAnswer rest b :=
  call_yields_iff

lemma lookupHost_yields_iff {β : Type} {host : Str} {port : Nat}
    {f : Timed (List SocketAddr) → Handler β} {b : β} :
    (lookupHost host port >>= f).Yields anyAnswer history b ↔
      ∃ ans rest, history = ⟨.lookupHost host port, ans⟩ :: rest ∧ (f ans).Yields anyAnswer rest b :=
  call_yields_iff

lemma connect_yields_iff {β : Type} {addr : SocketAddr} {f : Timed Unit → Handler β} {b : β} :
    (connect addr >>= f).Yields anyAnswer history b ↔
      ∃ ans rest, history = ⟨.connect addr, ans⟩ :: rest ∧ (f ans).Yields anyAnswer rest b :=
  call_yields_iff

lemma acquire_yields_iff {β : Type} {client : IpAddr} {dest : Str}
    {f : Except LimitError ConnectionLease → Handler β} {b : β} :
    (acquire client dest >>= f).Yields anyAnswer history b ↔
      ∃ ans rest, history = ⟨.acquire client dest, ans⟩ :: rest ∧ (f ans).Yields anyAnswer rest b :=
  call_yields_iff

/-- A literal is not looked up. -/
lemma resolution_literal_iff {policy : DestPolicy} {ip : IpAddr}
    {r : Except DestError (List SocketAddr)} (hip : remote.ipLiteral = some ip) :
    Resolution policy remote history r ↔ history = [] ∧
      (if !policy.allowPrivateDestinations && !isGlobalUnicast ip then .error .privateIp
        else .ok [⟨ip, remote.port⟩]) = r := by
  constructor
  · intro h
    cases h with
    | literal hip' hroute =>
      cases hip.symm.trans hip'
      rw [if_neg fun hprivate => routable_iff.mp hprivate hroute]
      exact ⟨rfl, rfl⟩
    | privateLiteral hip' hroute =>
      cases hip.symm.trans hip'
      rw [if_pos (routable_iff.mpr hroute)]
      exact ⟨rfl, rfl⟩
    | answered hip' => cases hip.symm.trans hip'
    | privateAnswer hip' => cases hip.symm.trans hip'
    | unresolved hip' => cases hip.symm.trans hip'
  · rintro ⟨rfl, rfl⟩
    split
    · exact .privateLiteral hip (routable_iff.mp ‹_›)
    · rename_i hroute
      exact .literal hip (not_not.mp (mt routable_iff.mpr hroute))

/-- What `resolve_filtered` makes of the answer of the resolver. -/
def filteredAnswer (policy : DestPolicy) : Timed (List SocketAddr) → Except DestError (List SocketAddr)
  | .ok answer =>
    if (policy.filterAnswer answer).isEmpty then .error .privateIp
    else .ok (policy.filterAnswer answer)
  | .failed | .elapsed => .error .dns

/-- A name is looked up once. -/
lemma resolution_lookup_iff {policy : DestPolicy} {r : Except DestError (List SocketAddr)}
    (hip : remote.ipLiteral = none) :
    Resolution policy remote history r ↔
      ∃ ans, history = [⟨.lookupHost remote.host remote.port, ans⟩] ∧ filteredAnswer policy ans = r := by
  constructor
  · intro h
    cases h with
    | literal hip' => cases hip.symm.trans hip'
    | privateLiteral hip' => cases hip.symm.trans hip'
    | @answered answer _ hsome =>
      exact ⟨.ok answer, rfl, if_neg fun hnone => hsome (List.isEmpty_iff.mp hnone)⟩
    | @privateAnswer answer _ hnone =>
      exact ⟨.ok answer, rfl, if_pos (List.isEmpty_iff.mpr hnone)⟩
    | @unresolved ans _ hans =>
      refine ⟨ans, rfl, ?_⟩
      cases ans with
      | ok answer => exact absurd rfl (hans answer)
      | failed | elapsed => rfl
  · rintro ⟨ans, rfl, rfl⟩
    cases ans with
    | ok answer =>
      rw [filteredAnswer]
      split
      · exact .privateAnswer hip (List.isEmpty_iff.mp ‹_›)
      · rename_i hsome
        exact .answered hip fun hnone => hsome (List.isEmpty_iff.mpr hnone)
    | failed | elapsed => exact .unresolved hip fun _ h => by cases h

/-- `resolve_filtered` of a name: one lookup, and what is made of its answer. -/
lemma resolveFiltered_lookup (policy : DestPolicy) (hip : remote.ipLiteral = none) :
    resolveFiltered remote policy =
      lookupHost remote.host remote.port >>= fun ans => pure (filteredAnswer policy ans) := by
  unfold resolveFiltered
  rw [hip]
  dsimp only
  congr 1
  funext ans
  cases ans with
  | ok answer =>
    dsimp only [filteredAnswer]
    split <;> rfl
  | failed | elapsed => rfl

lemma resolveFiltered_yields_iff {policy : DestPolicy} {r : Except DestError (List SocketAddr)} :
    (resolveFiltered remote policy).Yields anyAnswer history r ↔ Resolution policy remote history r := by
  cases hip : remote.ipLiteral with
  | some ip =>
    unfold resolveFiltered
    rw [resolution_literal_iff hip, hip]
    dsimp only
    split <;> exact yields_pure_iff
  | none =>
    rw [resolution_lookup_iff hip, resolveFiltered_lookup policy hip, lookupHost_yields_iff]
    apply exists_congr
    intro ans
    constructor
    · rintro ⟨rest, rfl, hrest, hr⟩
      rw [show rest = [] from hrest]
      exact ⟨rfl, hr⟩
    · rintro ⟨rfl, hr⟩
      exact ⟨[], rfl, rfl, hr⟩

lemma connectLoop_yields_iff {addrs : List SocketAddr} {r : Except DestError SocketAddr} :
    (connectLoop .connect addrs).Yields anyAnswer history r ↔
      (RefusedDials addrs history ∧ r = .error .connect) ∨
      ∃ tried addr untried dials, addrs = tried ++ addr :: untried ∧ RefusedDials tried dials ∧
        history = dials ++ [⟨.connect addr, Timed.ok ()⟩] ∧ r = .ok addr := by
  induction addrs generalizing history with
  | nil =>
    rw [connectLoop, yields_pure_iff]
    constructor
    · rintro ⟨rfl, rfl⟩
      exact .inl ⟨.nil, rfl⟩
    · rintro (⟨hdials, rfl⟩ | ⟨tried, addr, untried, dials, haddrs, -⟩)
      · cases hdials
        exact ⟨rfl, rfl⟩
      · cases tried <;> cases haddrs
  | cons addr addrs ih =>
    rw [connectLoop, connect_yields_iff]
    constructor
    · rintro ⟨ans, rest, rfl, h⟩
      have hrefused (ans : Timed Unit) (hne : ans ≠ .ok ())
          (h : (connectLoop .connect addrs).Yields anyAnswer rest r) :
          (RefusedDials (addr :: addrs) (⟨.connect addr, ans⟩ :: rest) ∧ r = .error .connect) ∨
          ∃ tried addr' untried dials, addr :: addrs = tried ++ addr' :: untried ∧
            RefusedDials tried dials ∧
            (⟨.connect addr, ans⟩ :: rest : List Answered) = dials ++ [⟨.connect addr', Timed.ok ()⟩] ∧
            r = .ok addr' := by
        obtain ⟨hdials, hr⟩ | ⟨tried, addr', untried, dials, rfl, hdials, rfl, hr⟩ := ih.mp h
        · exact .inl ⟨.cons ⟨ans, hne, rfl⟩ hdials, hr⟩
        · exact .inr ⟨addr :: tried, addr', untried, _ :: dials, rfl, .cons ⟨ans, hne, rfl⟩ hdials,
            rfl, hr⟩
      cases ans with
      | ok u =>
        obtain ⟨rfl, rfl⟩ := h
        exact .inr ⟨[], addr, addrs, [], rfl, .nil, rfl, rfl⟩
      | failed => exact hrefused .failed (fun h => by cases h) h
      | elapsed => exact hrefused .elapsed (fun h => by cases h) h
    · rintro (⟨hdials, hr⟩ | ⟨tried, addr', untried, dials, haddrs, hdials, rfl, hr⟩)
      · cases hdials with
        | @cons _ e _ rest hfirst hdials =>
          obtain ⟨ans, hne, rfl⟩ := hfirst
          refine ⟨ans, rest, rfl, ?_⟩
          have h := ih.mpr (.inl ⟨hdials, hr⟩)
          cases ans with
          | ok u => exact absurd rfl hne
          | failed => exact h
          | elapsed => exact h
      · cases tried with
        | nil =>
          cases hdials
          cases haddrs
          exact ⟨.ok (), [], rfl, rfl, hr.symm⟩
        | cons first tried =>
          cases haddrs
          cases hdials with
          | @cons _ e _ dials hfirst hdials =>
            obtain ⟨ans, hne, rfl⟩ := hfirst
            refine ⟨ans, dials ++ [⟨.connect addr', Timed.ok ()⟩], rfl, ?_⟩
            have h := ih.mpr (.inr ⟨tried, addr', untried, dials, rfl, hdials, rfl, hr⟩)
            cases ans with
            | ok u => exact absurd rfl hne
            | failed => exact h
            | elapsed => exact h

/-- A handler that has got past its checks, and what it then performs. -/
lemma concluded_of_yields {response : Response} (hadmitted : Admitted d req remote)
    (h : (openUpstream d req remote).Yields anyAnswer history response) :
    Concluded d req history response := by
  unfold openUpstream at h
  obtain ⟨ans, rest, rfl, hcounted⟩ := recordAttempt_yields_iff.mp h
  cases ans with
  | error e =>
    obtain ⟨rfl, rfl⟩ := hcounted
    exact .limited hadmitted
  | ok u =>
    obtain ⟨resolved, rest, r, rfl, hresolve, hresolved⟩ := Prog.yields_bind_iff.mp hcounted
    rw [resolveFiltered_yields_iff] at hresolve
    cases r with
    | error e =>
      obtain ⟨rfl, rfl⟩ := hresolved
      rw [List.append_nil]
      exact .unresolved hadmitted hresolve
    | ok addrs =>
      obtain ⟨dials, rest, r, rfl, hconnect, hdialed⟩ := Prog.yields_bind_iff.mp hresolved
      obtain ⟨hdials, rfl⟩ | ⟨tried, addr, untried, dials, rfl, hdials, rfl, rfl⟩ :=
        connectLoop_yields_iff.mp hconnect
      · obtain ⟨rfl, rfl⟩ := hdialed
        rw [List.append_nil]
        exact .unreachable hadmitted hresolve hdials
      · obtain ⟨lease, rest, rfl, hleased⟩ := acquire_yields_iff.mp hdialed
        rw [List.append_assoc]
        have hconnected := Concluded.connected lease hadmitted hresolve hdials
        cases lease with
        | error e =>
          obtain ⟨rfl, rfl⟩ := hleased
          exact hconnected
        | ok lease =>
          obtain ⟨rfl, rfl⟩ := hleased
          exact hconnected

lemma yields_of_concluded {response : Response} (hcheck : checkRequest d req = .ok remote)
    (h : Concluded d req history response) :
    (openUpstream d req remote).Yields anyAnswer history response := by
  unfold openUpstream
  rw [recordAttempt_yields_iff]
  cases h with
  | rejected h => cases hcheck.symm.trans (checkRequest_error_iff.mpr h)
  | limited h =>
    cases hcheck.symm.trans (checkRequest_ok_iff.mpr h)
    exact ⟨.error _, [], rfl, rfl, rfl⟩
  | unresolved h hresolve =>
    cases hcheck.symm.trans (checkRequest_ok_iff.mpr h)
    refine ⟨.ok (), _, rfl, Prog.yields_bind_iff.mpr ?_⟩
    exact ⟨_, [], _, (List.append_nil _).symm, resolveFiltered_yields_iff.mpr hresolve, rfl, rfl⟩
  | unreachable h hresolve hdials =>
    cases hcheck.symm.trans (checkRequest_ok_iff.mpr h)
    refine ⟨.ok (), _, rfl, Prog.yields_bind_iff.mpr ?_⟩
    refine ⟨_, _, _, rfl, resolveFiltered_yields_iff.mpr hresolve, Prog.yields_bind_iff.mpr ?_⟩
    exact ⟨_, [], _, (List.append_nil _).symm, connectLoop_yields_iff.mpr (.inl ⟨hdials, rfl⟩), rfl, rfl⟩
  | @connected _ _ dials tried untried addr r h hresolve hdials =>
    cases hcheck.symm.trans (checkRequest_ok_iff.mpr h)
    refine ⟨.ok (), _, rfl, Prog.yields_bind_iff.mpr ?_⟩
    refine ⟨_, _, _, rfl, resolveFiltered_yields_iff.mpr hresolve, Prog.yields_bind_iff.mpr ?_⟩
    have hconnect := connectLoop_yields_iff.mpr (.inr ⟨tried, addr, untried, dials, rfl, hdials, rfl, rfl⟩)
    refine ⟨_, [⟨.acquire (req.client d) remote.destKey, r⟩], _, ?_, hconnect,
      acquire_yields_iff.mpr ⟨r, [], rfl, ?_⟩⟩
    · rw [List.append_assoc]
      rfl
    · cases r with
      | error e => exact ⟨rfl, rfl⟩
      | ok lease => exact ⟨rfl, rfl⟩

lemma proxyHandler_yields_iff {response : Response} :
    (proxyHandler d req).Yields anyAnswer history response ↔ Concluded d req history response := by
  unfold proxyHandler
  cases hcheck : checkRequest d req with
  | error refused =>
    have hnone (remote : Remote) : ¬ Admitted d req remote := by
      rw [← checkRequest_ok_iff, hcheck]
      exact fun h => by cases h
    dsimp only
    rw [yields_pure_iff]
    constructor
    · rintro ⟨rfl, rfl⟩
      exact .rejected (checkRequest_error_iff.mp hcheck)
    · intro h
      cases h with
      | rejected h =>
        cases hcheck.symm.trans (checkRequest_error_iff.mpr h)
        exact ⟨rfl, rfl⟩
      | limited h => exact absurd h (hnone _)
      | unresolved h => exact absurd h (hnone _)
      | unreachable h => exact absurd h (hnone _)
      | connected _ h => exact absurd h (hnone _)
  | ok remote =>
    exact ⟨concluded_of_yields (checkRequest_ok_iff.mp hcheck), yields_of_concluded hcheck⟩

end Yields

/-- For any answers of the limiter, the resolver and the network, the histories of a request with
their responses are these and no others. -/
theorem handler_concluded_iff (history : List Answered) (response : Response) :
    Prog.Reaches anyAnswer (proxyHandler d req) history (.pure response) ↔
      Concluded d req history response := by
  rw [Prog.reaches_pure_iff, proxyHandler_yields_iff]

lemma exists_answer (op : Operation) : ∃ ans : op.Answer, anyAnswer op ans := by
  cases op with
  | recordAttempt => exact ⟨Except.ok (), trivial⟩
  | lookupHost => exact ⟨Timed.failed, trivial⟩
  | connect => exact ⟨Timed.failed, trivial⟩
  | acquire client dest => exact ⟨Except.ok ⟨client, dest⟩, trivial⟩

variable {d}

/-- In every run of the server, what a request has done so far begins one of its whole lives, and is
all of it once the request is answered. -/
theorem requests_begin_concluded {now : Instant} {trace : ServerTrace} {s : Server}
    (hrun : ServerRuns d now trace s) {id : Nat} {a : Active} (ha : s.requests id = some a) :
    ∃ rest response, Concluded d a.request (historyOf id trace ++ rest) response ∧
      ∀ r, a.prog = .pure r → rest = [] ∧ r = response := by
  have hreached : Prog.Reaches anyAnswer (proxyHandler d a.request) (historyOf id trace) a.prog :=
    ((Tracked.of_runs hrun id).reached a ha).mono fun _ _ _ => trivial
  cases hprog : a.prog with
  | pure r =>
    rw [hprog, Prog.reaches_pure_iff, proxyHandler_yields_iff] at hreached
    refine ⟨[], r, ?_, ?_⟩
    · rw [List.append_nil]
      exact hreached
    · rintro _ ⟨⟩
      exact ⟨rfl, rfl⟩
  | perform op next =>
    obtain ⟨rest, response, hyields⟩ := Prog.exists_yields exists_answer a.prog
    refine ⟨rest, response, ?_, fun _ h => by cases h⟩
    rw [← proxyHandler_yields_iff]
    exact hreached.yields hyields

end WsTcpProxy.Proofs
