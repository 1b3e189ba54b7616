import WsTcpProxy.Headers

/-!
# The address of the client behind a proxy

What a client can do to the address under which `limits.rs` counts it, when the peer is a proxy
that sets `X-Forwarded-For` and passes the other headers on.
-/

namespace WsTcpProxy.Proofs

def headerAddress (headers : HeaderMap) (name : String) : Option IpAddr :=
  (headers.text name).bind fun value =>
    (value.splitOn ',').findSome? fun token => parseIpAddr (trim token)

/-- The proxy received `sent`, set `X-Forwarded-For` to the address of the client, alone or as the
first entry, and passed every other header on. -/
structure Fronted (client : IpAddr) (sent headers : HeaderMap) : Prop where
  forwarded : ∃ value, headers.text "x-forwarded-for" = some value ∧
    (value.splitOn ',').head?.bind (fun token => parseIpAddr (trim token)) = some client
  passed : ∀ name, name ≠ "x-forwarded-for".toList → headers.get name = sent.get name

/-- The address under the two headers that come before `X-Forwarded-For`. -/
def preferredAddress (sent : HeaderMap) : Option IpAddr :=
  headerAddress sent "cf-connecting-ip" <|> headerAddress sent "x-real-ip"

lemma forwardedClientIp_eq (headers : HeaderMap) :
    forwardedClientIp headers =
      (preferredAddress headers <|> headerAddress headers "x-forwarded-for" <|>
        headerAddress headers "x-envoy-external-address") := by
  have hloop : forwardedClientIp headers = forwardedNames.findSome? (headerAddress headers) := rfl
  simp only [hloop, forwardedNames, preferredAddress, List.findSome?_cons, List.findSome?_nil]
  cases headerAddress headers "cf-connecting-ip" with
  | some ip => rfl
  | none =>
    cases headerAddress headers "x-real-ip" with
    | some ip => rfl
    | none =>
      cases headerAddress headers "x-forwarded-for" with
      | some ip => rfl
      | none => cases headerAddress headers "x-envoy-external-address" <;> rfl

lemma Fronted.headerAddress_forwarded {client : IpAddr} {sent headers : HeaderMap}
    (h : Fronted client sent headers) : headerAddress headers "x-forwarded-for" = some client := by
  obtain ⟨value, htext, hfirst⟩ := h.forwarded
  rw [headerAddress, htext, Option.bind_some]
  cases hparts : value.splitOn ',' with
  | nil =>
    rw [hparts] at hfirst
    cases hfirst
  | cons token rest =>
    rw [hparts] at hfirst
    rw [List.findSome?_cons, show parseIpAddr (trim token) = some client from hfirst]

lemma Fronted.headerAddress_passed {client : IpAddr} {sent headers : HeaderMap}
    (h : Fronted client sent headers) {name : String}
    (hname : name.toList ≠ "x-forwarded-for".toList) :
    headerAddress headers name = headerAddress sent name := by
  rw [headerAddress, headerAddress, HeaderMap.text, HeaderMap.text, h.passed _ hname]

/-- Behind the proxy, the address depends only on the client and on the two preferred headers. -/
lemma Fronted.forwardedClientIp_eq {client : IpAddr} {sent headers : HeaderMap}
    (h : Fronted client sent headers) :
    forwardedClientIp headers = some ((preferredAddress sent).getD client) := by
  have hpreferred : preferredAddress headers = preferredAddress sent := by
    rw [preferredAddress, preferredAddress, h.headerAddress_passed (by decide),
      h.headerAddress_passed (by decide)]
  rw [Proofs.forwardedClientIp_eq, hpreferred, h.headerAddress_forwarded]
  cases preferredAddress sent <;> rfl

/-- Behind a trusted proxy a client is counted under its own address, unless it sends an address in
`CF-Connecting-IP` or `X-Real-IP`, which are preferred; no other header of two requests from one
client makes a difference. A peer that is not a trusted proxy is counted under its own address. -/
theorem client_ip_behind_proxy (peer : SocketAddr) (trusted : List Cidr) :
    (trusted.any (·.contains peer.ip) = true → ∀ client sent sent' headers headers',
      Fronted client sent headers → Fronted client sent' headers' →
        (preferredAddress sent = none → clientIp headers peer true trusted = client) ∧
        (∀ ip, preferredAddress sent = some ip → clientIp headers peer true trusted = ip) ∧
        (preferredAddress sent = preferredAddress sent' →
          clientIp headers peer true trusted = clientIp headers' peer true trusted)) ∧
    (trusted.any (·.contains peer.ip) = false → ∀ headers trust,
      clientIp headers peer trust trusted = peer.ip) := by
  constructor
  · intro htrusted client sent sent' headers headers' h h'
    have hclient {sent headers : HeaderMap} (h : Fronted client sent headers) :
        clientIp headers peer true trusted = (preferredAddress sent).getD client := by
      rw [clientIp, htrusted, Bool.and_self, if_pos rfl, h.forwardedClientIp_eq, Option.getD_some]
    refine ⟨?_, ?_, ?_⟩
    · intro hnone
      rw [hclient h, hnone, Option.getD_none]
    · intro ip hsome
      rw [hclient h, hsome, Option.getD_some]
    · intro hsame
      rw [hclient h, hclient h', hsame]
  · intro hpeer headers trust
    rw [clientIp, hpeer, Bool.and_false]
    rfl

/-- A proxy that puts its `X-Forwarded-For` in front of the headers it received. -/
def forwardedFor (sent : HeaderMap) (value : String) : HeaderMap where
  entries := ("x-forwarded-for".toList, asciiBytes value) :: sent.entries

lemma forwardedFor_get (sent : HeaderMap) (value : String) (name : Str) :
    (forwardedFor sent value).get name =
      if "x-forwarded-for".toList = name then some (asciiBytes value) else sent.get name := by
  unfold HeaderMap.get forwardedFor
  generalize "x-forwarded-for".toList = forwarded
  by_cases h : forwarded = name
  · simp [h]
  · simp [h]

lemma fronted_forwardedFor {client : IpAddr} {value : String} {text : Str} (sent : HeaderMap)
    (htext : headerText (asciiBytes value) = some text)
    (hfirst : (text.splitOn ',').head?.bind (fun token => parseIpAddr (trim token)) = some client) :
    Fronted client sent (forwardedFor sent value) where
  forwarded := by
    refine ⟨text, ?_, hfirst⟩
    rw [HeaderMap.text, forwardedFor_get, if_pos rfl, Option.bind_some, htext]
  passed name hname := by
    rw [forwardedFor_get, if_neg hname.symm]

/-- What the mesh in front of the service makes of a request of `203.0.113.50`. -/
lemma fronted_mesh (sent : HeaderMap) :
    Fronted (.v4 (.new 203 0 113 50)) sent
      (forwardedFor sent "203.0.113.50, 10.1.2.3") := by
  have htext : headerText (asciiBytes "203.0.113.50, 10.1.2.3") =
      some "203.0.113.50, 10.1.2.3".toList := by decide +kernel
  exact fronted_forwardedFor sent htext (by decide +kernel)

theorem client_ip_behind_proxy_mesh :
    clientIp (forwardedFor ⟨[("user-agent".toList, asciiBytes "1.2.3.4")]⟩
        "203.0.113.50, 10.1.2.3") ⟨.v4 (.new 10 0 0 2), 9⟩ true [⟨.v4 (.new 10 0 0 0), 8⟩] =
      .v4 (.new 203 0 113 50) := by
  have h := (client_ip_behind_proxy ⟨.v4 (.new 10 0 0 2), 9⟩ [⟨.v4 (.new 10 0 0 0), 8⟩]).1
    (by decide +kernel)
  exact (h _ _ _ _ _ (fronted_mesh _) (fronted_mesh ⟨[]⟩)).1 (by decide +kernel)

/-- Two requests of one client that differ in `CF-Connecting-IP` are counted under two addresses. -/
theorem preferred_header_chosen :
    ¬∀ (peer : SocketAddr) (trusted : List Cidr), trusted.any (·.contains peer.ip) = true →
      ∀ client sent sent' headers headers',
        Fronted client sent headers → Fronted client sent' headers' →
          clientIp headers peer true trusted = clientIp headers' peer true trusted ∧
          clientIp headers peer true trusted = client := by
  intro h
  have hsame := (h ⟨.v4 (.new 10 0 0 2), 9⟩ [⟨.v4 (.new 10 0 0 0), 8⟩] (by decide +kernel) _ _ _ _ _
    (fronted_mesh ⟨[("cf-connecting-ip".toList, asciiBytes "1.2.3.4")]⟩)
    (fronted_mesh ⟨[("cf-connecting-ip".toList, asciiBytes "5.6.7.8")]⟩)).1
  exact absurd hsame (by decide +kernel)

end WsTcpProxy.Proofs
