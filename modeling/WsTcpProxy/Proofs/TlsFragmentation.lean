import WsTcpProxy.Proofs.TlsRecords

/-!
# The TLS probe and the framing of the client's bytes

The verdict of `probe_tls_sni` on every way of cutting a stream into messages.
-/

namespace WsTcpProxy.Proofs
open Library

def ProbeStep.decision : ProbeStep → Option Bool
  | .more => none
  | .accepted => some true
  | .rejected => some false

/-- What a probe returns for the bytes it collected and its decision. -/
def probeResult (r : Bytes × Bool) : Except RejectReason Bytes :=
  if r.2 then .ok r.1 else .error .proto

def tlsDecision (remote : Remote) (hello : Bytes) : Option Bool :=
  ProbeStep.decision (tlsProbeStep remote hello)

lemma filterMap_data_cons {msg : Message} {d : Bytes} {ms : List Message} (h : msg.data = some d) :
    (msg :: ms).filterMap Message.data = d :: ms.filterMap Message.data := by
  rw [List.filterMap_cons, h]

/-- Without a close, the TLS probe feeds itself the payloads of the data messages. -/
lemma probeTlsSni_eq (remote : Remote) (hello : Bytes) {ms : List Message} (h : .close ∉ ms) :
    probeTlsSni remote hello ms =
      (feedUntil (tlsDecision remote) hello (ms.filterMap Message.data)).map probeResult := by
  induction ms generalizing hello with
  | nil => rfl
  | cons msg ms ih =>
    have hrest : .close ∉ ms := fun hm => h (List.mem_cons_of_mem _ hm)
    cases msg with
    | close => exact absurd List.mem_cons_self h
    | ping p => exact ih hello hrest
    | pong p => exact ih hello hrest
    | binary data =>
      rw [probeTlsSni, filterMap_data_cons rfl, feedUntil, tlsDecision]
      cases tlsProbeStep remote (hello ++ data) with
      | more => exact ih _ hrest
      | accepted => rfl
      | rejected => rfl
    | text s =>
      rw [probeTlsSni, filterMap_data_cons rfl, feedUntil, tlsDecision]
      cases tlsProbeStep remote (hello ++ asBytes s) with
      | more => exact ih _ hrest
      | accepted => rfl
      | rejected => rfl

/-! ### Steps on the prefixes of a stream -/

section Prefixes

variable {remote : Remote} {b : Bytes}

lemma validate_complete {host : Str} {literal : Bool}
    (h : validateTlsClientHello b host literal = .ok ()) : tlsRecordNeeded b = .ok 0 := by
  unfold validateTlsClientHello at h
  cases hn : tlsRecordNeeded b with
  | error e =>
    rw [hn, error_bind] at h
    cases h
  | ok n =>
    rw [hn, ok_bind] at h
    by_cases h0 : n = 0
    · rw [h0]
    · rw [if_pos h0] at h
      cases h

lemma tlsProbeStep_accepted_iff :
    tlsProbeStep remote b = .accepted ↔
      validateTlsClientHello b remote.host remote.ipLiteral.isSome = .ok () := by
  constructor
  · intro h
    unfold tlsProbeStep at h
    split at h
    · split at h
      · rename_i hval
        exact hval
      · cases h
    · split at h <;> cases h
    · cases h
  · intro h
    have h0 := validate_complete h
    simp only [tlsProbeStep, h0, h]

lemma RecordHeader.of_initial {p : Bytes} (h : RecordHeader b) (hp : p <+: b) (hlen : 5 ≤ p.length) :
    RecordHeader p ∧ recordLen p = recordLen b := by
  obtain ⟨e, rfl⟩ := hp
  have hrec := recordLen_append e hlen
  refine ⟨⟨hlen, ?_, ?_, ?_, ?_⟩, hrec.symm⟩
  · rw [← getD_append e (by omega), h.handshake]
  · rw [← getD_append e (by omega), h.version]
  · rw [← hrec]
    exact h.pos
  · rw [← hrec]
    exact h.le

/-- A proper prefix of an admissible record waits, unless the buffer limit is passed. -/
lemma tlsProbeStep_incomplete {p : Bytes} (h : RecordHeader b) (hp : p <+: b)
    (hlen : p.length < 5 + recordLen b) :
    tlsProbeStep remote p = if 16 * 1024 < p.length then .rejected else .more := by
  have hneeded : ∃ n, tlsRecordNeeded p = .ok (n + 1) := by
    by_cases hshort : p.length < 5
    · by_cases hne : p = []
      · subst hne
        exact ⟨4, rfl⟩
      · have hpos := List.length_pos_iff.2 hne
        have h0 : p.getD 0 0 = 0x16 := by
          obtain ⟨e, rfl⟩ := hp
          rw [← getD_append e hpos, h.handshake]
        refine ⟨4 - p.length, ?_⟩
        rw [tlsRecordNeeded_eq hne, if_neg (not_not.2 h0), if_pos hshort]
        congr 1
        omega
    · obtain ⟨hheader, hrec⟩ := h.of_initial hp (by omega)
      refine ⟨4 + recordLen b - p.length, ?_⟩
      rw [tlsRecordNeeded_of_header hheader, hrec]
      congr 1
      omega
  obtain ⟨n, hn⟩ := hneeded
  simp only [tlsProbeStep, hn]

/-- A stream that starts with an accepted record is accepted from the record's end on. -/
lemma tlsProbeStep_complete {p : Bytes}
    (h : validateTlsClientHello b remote.host remote.ipLiteral.isSome = .ok ()) (hp : p <+: b)
    (hlen : 5 + recordLen b ≤ p.length) : tlsProbeStep remote p = .accepted := by
  obtain ⟨hheader, -⟩ := (tlsRecordNeeded_zero_iff b).1 (validate_complete h)
  obtain ⟨hpheader, hrec⟩ := hheader.of_initial hp (by omega)
  have hpneeded : tlsRecordNeeded p = .ok 0 := by
    rw [tlsRecordNeeded_zero_iff, hrec]
    exact ⟨hpheader, hlen⟩
  obtain ⟨e, rfl⟩ := hp
  rw [tlsProbeStep_accepted_iff, ← h, validateTlsClientHello_append e _ _ hpneeded]

/-- No prefix of a stream is accepted unless the stream is. -/
lemma validate_of_initial {p : Bytes} (hp : p <+: b) (h : tlsProbeStep remote p = .accepted) :
    validateTlsClientHello b remote.host remote.ipLiteral.isSome = .ok () := by
  have hval := tlsProbeStep_accepted_iff.1 h
  obtain ⟨e, rfl⟩ := hp
  rw [validateTlsClientHello_append e _ _ (validate_complete hval), hval]

end Prefixes

/-! ### Verdicts -/

/-- Every cutting of `b` into messages that reaches a verdict reaches the same one, and a first
record that is accepted in one message is accepted however it is cut. -/
def TlsVerdictStable (remote : Remote) (b : Bytes) : Prop :=
  (∀ ms₁ ms₂ : List Message, .close ∉ ms₁ → .close ∉ ms₂ →
    (ms₁.filterMap Message.data).flatten = b → (ms₂.filterMap Message.data).flatten = b →
    ∀ v₁ v₂, probeTlsSni remote [] ms₁ = some v₁ → probeTlsSni remote [] ms₂ = some v₂ →
      v₁.isOk = v₂.isOk) ∧
  (validateTlsClientHello b remote.host remote.ipLiteral.isSome = .ok () →
    ∀ ms : List Message, .close ∉ ms → (ms.filterMap Message.data).flatten = b →
      ∃ hello, probeTlsSni remote [] ms = some (.ok hello))

lemma tlsDecision_nil (remote : Remote) : tlsDecision remote [] = none := rfl

lemma ProbeStep.decision_none {st : ProbeStep} : ProbeStep.decision st = none ↔ st = .more := by
  cases st <;> simp [ProbeStep.decision]

lemma ProbeStep.decision_true {st : ProbeStep} :
    ProbeStep.decision st = some true ↔ st = .accepted := by
  cases st <;> simp [ProbeStep.decision]

lemma isOk_probeResult (r : Bytes × Bool) : (probeResult r).isOk = r.2 := by
  unfold probeResult
  cases r.2 <;> rfl

/-- A verdict is the step on some prefix of the stream. -/
lemma tlsVerdict_initial {remote : Remote} {ms : List Message} (hclose : .close ∉ ms)
    {v : Except RejectReason Bytes} (h : probeTlsSni remote [] ms = some v) :
    ∃ p, p <+: (ms.filterMap Message.data).flatten ∧
      tlsDecision remote p = some v.isOk := by
  rw [probeTlsSni_eq remote [] hclose, Option.map_eq_some_iff] at h
  obtain ⟨⟨p, accepted⟩, hfeed, rfl⟩ := h
  obtain ⟨hdec, hinit, -⟩ := feedUntil_some (tlsDecision_nil remote) hfeed
  exact ⟨p, hinit, by rw [hdec, isOk_probeResult]⟩

/-- A stream that ends with a decision has a verdict however it is cut. -/
lemma tlsVerdict_exists {remote : Remote} {ms : List Message} (hclose : .close ∉ ms)
    (h : tlsProbeStep remote (ms.filterMap Message.data).flatten ≠ .more) :
    ∃ v, probeTlsSni remote [] ms = some v := by
  have hend : (tlsDecision remote ([] ++ (ms.filterMap Message.data).flatten)).isSome := by
    rw [Option.isSome_iff_ne_none, Ne, tlsDecision, ProbeStep.decision_none]
    exact h
  obtain ⟨r, hr⟩ := Option.isSome_iff_exists.1 (feedUntil_isSome (tlsDecision_nil remote) hend)
  exact ⟨probeResult r, by rw [probeTlsSni_eq remote [] hclose, hr]; rfl⟩

/-- The record is short enough that no prefix of it passes the buffer limit. -/
lemma tlsVerdict_accepts {remote : Remote} {b : Bytes}
    (hval : validateTlsClientHello b remote.host remote.ipLiteral.isSome = .ok ())
    (hshort : recordLen b ≤ 16380) {ms : List Message} (hclose : .close ∉ ms)
    (hb : (ms.filterMap Message.data).flatten = b) {v : Except RejectReason Bytes}
    (h : probeTlsSni remote [] ms = some v) : v.isOk = true := by
  obtain ⟨hheader, -⟩ := (tlsRecordNeeded_zero_iff b).1 (validate_complete hval)
  obtain ⟨p, hp, hdec⟩ := tlsVerdict_initial hclose h
  rw [hb] at hp
  by_cases hlen : 5 + recordLen b ≤ p.length
  · rw [tlsDecision, tlsProbeStep_complete hval hp hlen] at hdec
    simpa [ProbeStep.decision] using hdec.symm
  · rw [tlsDecision, tlsProbeStep_incomplete hheader hp (by omega), if_neg (by omega)] at hdec
    cases hdec

/-- A longer record is rejected when its last bytes come in a message of their own. -/
lemma tlsVerdict_rejects_split {remote : Remote} {b : Bytes} (h : tlsRecordNeeded b = .ok 0)
    (hlong : 16380 < recordLen b) :
    probeTlsSni remote [] [.binary (b.take 16385), .binary (b.drop 16385)] =
      some (.error .proto) := by
  obtain ⟨hheader, hrec⟩ := (tlsRecordNeeded_zero_iff b).1 h
  have hp : b.take 16385 <+: b := List.take_prefix _ _
  have hlen : (b.take 16385).length = 16385 := by
    rw [List.length_take]
    omega
  have hstep : tlsProbeStep remote ([] ++ b.take 16385) = .rejected := by
    rw [List.nil_append, tlsProbeStep_incomplete hheader hp (by omega), if_pos (by omega)]
  rw [probeTlsSni, hstep]

lemma not_stable_of_long {remote : Remote} {b : Bytes}
    (hval : validateTlsClientHello b remote.host remote.ipLiteral.isSome = .ok ())
    (hlong : 16380 < recordLen b) : ¬ TlsVerdictStable remote b := by
  rintro ⟨-, hwhole⟩
  have hcut : (List.filterMap Message.data
      [.binary (b.take 16385), .binary (b.drop 16385)]).flatten = b := by
    simp [Message.data]
  obtain ⟨hello, hok⟩ := hwhole hval _ (by simp) hcut
  rw [tlsVerdict_rejects_split (validate_complete hval) hlong] at hok
  cases hok

/-- The TLS probe's verdict depends on the framing exactly when the record is accepted and
longer than what the buffer limit lets pass in pieces. -/
theorem tls_verdict_stable_iff (remote : Remote) (b : Bytes) :
    TlsVerdictStable remote b ↔
      (validateTlsClientHello b remote.host remote.ipLiteral.isSome = .ok () →
        recordLen b ≤ 16380) := by
  constructor
  · intro hstable hval
    by_contra hlong
    exact not_stable_of_long hval (by omega) hstable
  · intro hcond
    by_cases hval : validateTlsClientHello b remote.host remote.ipLiteral.isSome = .ok ()
    · have hshort := hcond hval
      constructor
      · intro ms₁ ms₂ hc₁ hc₂ hb₁ hb₂ v₁ v₂ h₁ h₂
        rw [tlsVerdict_accepts hval hshort hc₁ hb₁ h₁, tlsVerdict_accepts hval hshort hc₂ hb₂ h₂]
      · intro _ ms hclose hb
        have hend : tlsProbeStep remote (ms.filterMap Message.data).flatten ≠ .more := by
          rw [hb, tlsProbeStep_accepted_iff.2 hval]
          simp
        obtain ⟨v, hv⟩ := tlsVerdict_exists hclose hend
        have hok := tlsVerdict_accepts hval hshort hclose hb hv
        cases v with
        | error e => cases hok
        | ok hello => exact ⟨hello, hv⟩
    · have hreject : ∀ ms : List Message, .close ∉ ms → (ms.filterMap Message.data).flatten = b →
          ∀ v, probeTlsSni remote [] ms = some v → v.isOk = false := by
        intro ms hclose hb v hv
        obtain ⟨p, hp, hdec⟩ := tlsVerdict_initial hclose hv
        rw [hb] at hp
        cases hok : v.isOk with
        | false => rfl
        | true =>
          rw [hok, tlsDecision, ProbeStep.decision_true] at hdec
          exact absurd (validate_of_initial hp hdec) hval
      constructor
      · intro ms₁ ms₂ hc₁ hc₂ hb₁ hb₂ v₁ v₂ h₁ h₂
        rw [hreject ms₁ hc₁ hb₁ v₁ h₁, hreject ms₂ hc₂ hb₂ v₂ h₂]
      · exact fun h => absurd h hval

/-! ### A record at the limit -/

/-- A ClientHello for `mail`, with its handshake header. -/
def mailHello : Bytes :=
  [0x01, 0, 0, 56, 0x03, 0x03] ++ List.replicate 32 0 ++
    [0, 0, 2, 0x13, 0x01, 1, 0, 0, 13, 0, 0, 0, 9, 0, 7, 0, 0, 4, 109, 97, 105, 108]

/-- The ClientHello in a record of 16384 bytes, of which `slack` is unused. -/
def longMailRecord (slack : Bytes) : Bytes :=
  [0x16, 0x03, 0x01, 0x40, 0x00] ++ (mailHello ++ slack)

def mailRemote : Remote := ⟨"mail".toList, 993, none⟩

section LongRecord

variable {slack : Bytes} (hslack : slack.length = 16324)

lemma recordLen_longMailRecord : recordLen (longMailRecord slack) = 16384 := by
  have hfield : recordLen (longMailRecord slack) = u16FromBeBytes 0x40 0 := rfl
  simp [hfield, u16FromBeBytes]

lemma length_longMailRecord : (longMailRecord slack).length = 65 + slack.length := by
  rw [longMailRecord, List.length_append, List.length_append, ← Nat.add_assoc]
  rfl

include hslack

lemma longMailRecord_complete : tlsRecordNeeded (longMailRecord slack) = .ok 0 := by
  have hlen : (longMailRecord slack).length = 65 + slack.length := length_longMailRecord
  rw [tlsRecordNeeded_zero_iff, recordLen_longMailRecord]
  exact ⟨⟨by omega, rfl, rfl, by rw [recordLen_longMailRecord]; omega,
    by rw [recordLen_longMailRecord]; decide⟩, by omega⟩

lemma longMailRecord_sni : parseSni (longMailRecord slack) = .ok (some "mail".toList) := by
  have hlen : (longMailRecord slack).length = 65 + slack.length := length_longMailRecord
  have hbody : (mailHello ++ slack).length = 60 + slack.length := by
    rw [List.length_append]
    rfl
  have hrange : getRange (longMailRecord slack) 5 (5 + 16384) = some (mailHello ++ slack) := by
    rw [getRange, if_pos ⟨by omega, by omega⟩, show 5 + 16384 - 5 = 16384 from rfl]
    exact congrArg some (List.take_of_length_le (by change (mailHello ++ slack).length ≤ _; omega))
  have hhello : getRange (mailHello ++ slack) 4 (4 + 56) = some (mailHello.drop 4) := by
    rw [getRange_append slack (by decide)]
    decide +kernel
  have hu24 : u24 [0, 0, 56] = .ok 56 := by decide
  have hhead : indexRange (mailHello ++ slack) 1 4 = .ok [0, 0, 56] := by
    rw [indexRange, getRange_append slack (by decide)]
    rfl
  have hparse : parseHello (mailHello.drop 4) = .ok (some "mail".toList) := by decide +kernel
  have h0 : index (longMailRecord slack) 0 = .ok 0x16 := rfl
  have h3 : index (longMailRecord slack) 3 = .ok 0x40 := rfl
  have h4 : index (longMailRecord slack) 4 = .ok 0 := rfl
  have hb : index (mailHello ++ slack) 0 = .ok 0x01 := rfl
  have hrec : u16FromBeBytes 0x40 0 = 16384 := by simp [u16FromBeBytes]
  unfold parseSni
  rw [if_neg (by omega), h0, h3, h4]
  simp only [ok_bind, hrec, hrange, orMalformed_some, hb]
  rw [if_neg (by simp), if_neg (by omega), if_neg (by simp), hhead, ok_bind, hu24, ok_bind, hhello,
    orMalformed_some, ok_bind, hparse]

lemma longMailRecord_valid :
    validateTlsClientHello (longMailRecord slack) mailRemote.host mailRemote.ipLiteral.isSome =
      .ok () := by
  rw [validateTlsClientHello, longMailRecord_complete hslack, ok_bind, if_neg (by simp),
    longMailRecord_sni hslack]
  rfl

end LongRecord

/-- A record of 16384 bytes is accepted in one message and rejected in two. -/
theorem tls_verdict_depends_on_framing :
    ¬ TlsVerdictStable mailRemote (longMailRecord (List.replicate 16324 0)) :=
  not_stable_of_long (longMailRecord_valid List.length_replicate)
    (by rw [recordLen_longMailRecord]; decide)

end WsTcpProxy.Proofs
