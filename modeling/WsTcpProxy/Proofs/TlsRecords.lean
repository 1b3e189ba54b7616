import WsTcpProxy.Probe
import WsTcpProxy.Library.Feeding

/-!
# TLS records

What `tls_record_needed` says of a buffer, and that `validate_tls_client_hello` reads nothing
beyond the first record.
-/

namespace WsTcpProxy.Proofs

lemma index_eq {b : Bytes} {i : Nat} (h : i < b.length) : index b i = .ok (b.getD i 0) := by
  simp [index, okOr, List.getD, h]

def recordLen (b : Bytes) : Nat := u16FromBeBytes (b.getD 3 0) (b.getD 4 0)

structure RecordHeader (b : Bytes) : Prop where
  length : 5 ≤ b.length
  handshake : b.getD 0 0 = 0x16
  version : b.getD 1 0 = 0x03
  pos : 0 < recordLen b
  le : recordLen b ≤ maxTlsRecord

lemma ok_bind {α β : Type} (a : α) (f : α → Checked β) : (Except.ok a >>= f) = f a := rfl

lemma error_bind {α β : Type} (e : Fault) (f : α → Checked β) :
    ((Except.error e : Checked α) >>= f) = .error e := rfl

lemma orMalformed_some {α : Type} (a : α) : orMalformed (some a) = .ok a := rfl

/-- `tls_record_needed` with its indices in range. -/
lemma tlsRecordNeeded_eq {b : Bytes} (hne : b ≠ []) :
    tlsRecordNeeded b =
      if b.getD 0 0 ≠ 0x16 then .error (.proto .notTls)
      else if b.length < 5 then .ok (5 - b.length)
      else if b.getD 1 0 ≠ 0x03 then .error (.proto .notTls)
      else if recordLen b = 0 ∨ maxTlsRecord < recordLen b then .error (.proto .malformed)
      else if 5 + recordLen b ≤ b.length then .ok 0 else .ok (5 + recordLen b - b.length) := by
  have hempty : b.isEmpty = false := by simpa using hne
  have hpos : 0 < b.length := List.length_pos_iff.2 hne
  unfold tlsRecordNeeded
  rw [hempty, if_neg (by simp), index_eq hpos, ok_bind]
  by_cases hlen : b.length < 5
  · simp only [if_pos hlen]
    rfl
  · have h1 : 1 < b.length := by omega
    have h3 : 3 < b.length := by omega
    have h4 : 4 < b.length := by omega
    simp only [if_neg hlen, index_eq h1, index_eq h3, index_eq h4, ok_bind]
    rfl

lemma tlsRecordNeeded_of_header {b : Bytes} (h : RecordHeader b) :
    tlsRecordNeeded b = .ok (5 + recordLen b - b.length) := by
  have hlen := h.length
  have hpos := h.pos
  have hle := h.le
  have hne : b ≠ [] := by
    rintro rfl
    simp at hlen
  rw [tlsRecordNeeded_eq hne, if_neg (not_not.2 h.handshake), if_neg (by omega),
    if_neg (not_not.2 h.version), if_neg (by omega)]
  split
  · congr 1
    omega
  · rfl

lemma recordHeader_of_needed {b : Bytes} {n : Nat} (hlen : 5 ≤ b.length)
    (h : tlsRecordNeeded b = .ok n) : RecordHeader b := by
  have hne : b ≠ [] := by
    rintro rfl
    simp at hlen
  rw [tlsRecordNeeded_eq hne] at h
  split at h
  · cases h
  rename_i h0
  rw [if_neg (by omega)] at h
  split at h
  · cases h
  rename_i h1
  split at h
  · cases h
  rename_i hrange
  exact ⟨hlen, not_not.1 h0, not_not.1 h1, by omega, by omega⟩

/-- Before the header is complete, the rest of it is needed. -/
lemma needed_of_short {b : Bytes} {n : Nat} (hshort : b.length < 5)
    (h : tlsRecordNeeded b = .ok n) : n = 5 - b.length := by
  by_cases hne : b = []
  · subst hne
    cases h
    rfl
  · rw [tlsRecordNeeded_eq hne, if_pos hshort] at h
    split at h
    · cases h
    · cases h
      rfl

/-- A complete record: an admissible header and all the bytes it announces. -/
lemma tlsRecordNeeded_zero_iff (b : Bytes) :
    tlsRecordNeeded b = .ok 0 ↔ RecordHeader b ∧ 5 + recordLen b ≤ b.length := by
  constructor
  · intro h
    have hlen : 5 ≤ b.length := by
      by_contra hshort
      have := needed_of_short (by omega) h
      omega
    have hheader := recordHeader_of_needed hlen h
    rw [tlsRecordNeeded_of_header hheader] at h
    have : 5 + recordLen b - b.length = 0 := by simpa using h
    exact ⟨hheader, by omega⟩
  · rintro ⟨hheader, hlen⟩
    rw [tlsRecordNeeded_of_header hheader]
    congr 1
    omega

/-! ### Extending a buffer -/

lemma getD_append {b : Bytes} {i : Nat} (e : Bytes) (h : i < b.length) :
    (b ++ e).getD i 0 = b.getD i 0 := by
  simp [List.getD, List.getElem?_append_left h]

lemma recordLen_append {b : Bytes} (e : Bytes) (h : 5 ≤ b.length) :
    recordLen (b ++ e) = recordLen b := by
  rw [recordLen, recordLen, getD_append e (by omega), getD_append e (by omega)]

lemma RecordHeader.append {b : Bytes} (h : RecordHeader b) (e : Bytes) : RecordHeader (b ++ e) := by
  have hlen := h.length
  have hrec := recordLen_append e hlen
  refine ⟨?_, ?_, ?_, ?_, ?_⟩
  · rw [List.length_append]
    omega
  · rw [getD_append e (by omega), h.handshake]
  · rw [getD_append e (by omega), h.version]
  · rw [hrec]
    exact h.pos
  · rw [hrec]
    exact h.le

lemma getRange_append {b : Bytes} {i j : Nat} (e : Bytes) (h : j ≤ b.length) :
    getRange (b ++ e) i j = getRange b i j := by
  have hj : j ≤ (b ++ e).length := by
    rw [List.length_append]
    omega
  unfold getRange
  by_cases hij : i ≤ j
  · rw [if_pos ⟨hij, hj⟩, if_pos ⟨hij, h⟩, List.drop_append_of_le_length (by omega),
      List.take_append_of_le_length (by rw [List.length_drop]; omega)]
  · rw [if_neg (fun hc => hij hc.1), if_neg (fun hc => hij hc.1)]

/-- `parse_sni` reads the first record only. -/
lemma parseSni_append {b : Bytes} (e : Bytes) (h : 5 ≤ b.length) (hrec : 5 + recordLen b ≤ b.length) :
    parseSni (b ++ e) = parseSni b := by
  have hlen : ¬ b.length < 5 := by omega
  have hlen' : ¬ (b ++ e).length < 5 := by
    rw [List.length_append]
    omega
  have hidx : ∀ i, i < 5 → index (b ++ e) i = index b i := by
    intro i hi
    have hi' : i < (b ++ e).length := by
      rw [List.length_append]
      omega
    rw [index_eq hi', index_eq (by omega), getD_append e (by omega)]
  have hrange : getRange (b ++ e) 5 (5 + u16FromBeBytes (b.getD 3 0) (b.getD 4 0)) =
      getRange b 5 (5 + u16FromBeBytes (b.getD 3 0) (b.getD 4 0)) := getRange_append e hrec
  unfold parseSni
  rw [if_neg hlen, if_neg hlen', hidx 0 (by omega), hidx 3 (by omega), hidx 4 (by omega),
    index_eq (b := b) (i := 3) (by omega), index_eq (b := b) (i := 4) (by omega)]
  simp only [ok_bind, hrange]

lemma tlsRecordNeeded_append_complete {b : Bytes} (e : Bytes) (h : tlsRecordNeeded b = .ok 0) :
    tlsRecordNeeded (b ++ e) = .ok 0 := by
  obtain ⟨hheader, hrec⟩ := (tlsRecordNeeded_zero_iff b).1 h
  rw [tlsRecordNeeded_zero_iff, recordLen_append e hheader.length, List.length_append]
  exact ⟨hheader.append e, by omega⟩

lemma validateTlsClientHello_append {b : Bytes} (e : Bytes) (host : Str) (literal : Bool)
    (h : tlsRecordNeeded b = .ok 0) :
    validateTlsClientHello (b ++ e) host literal = validateTlsClientHello b host literal := by
  obtain ⟨hheader, hrec⟩ := (tlsRecordNeeded_zero_iff b).1 h
  unfold validateTlsClientHello
  rw [h, tlsRecordNeeded_append_complete e h, parseSni_append e hheader.length hrec]

/-- An error shows in the bytes that are already there. -/
lemma tlsRecordNeeded_append_error {b : Bytes} {x : Fault} (e : Bytes)
    (h : tlsRecordNeeded b = .error x) : tlsRecordNeeded (b ++ e) = .error x := by
  have hne : b ≠ [] := by
    rintro rfl
    cases h
  have hpos : 0 < b.length := List.length_pos_iff.2 hne
  rw [tlsRecordNeeded_eq hne] at h
  rw [tlsRecordNeeded_eq (List.append_ne_nil_of_left_ne_nil hne e), getD_append e hpos]
  split at h
  · rename_i h0
    rw [if_pos h0, h]
  rename_i h0
  split at h
  · cases h
  rename_i hlen
  have hlen' : ¬ (b ++ e).length < 5 := by
    rw [List.length_append]
    omega
  rw [if_neg h0, if_neg hlen', getD_append e (by omega), recordLen_append e (by omega)]
  split at h
  · rename_i h1
    rw [if_pos h1, h]
  rename_i h1
  split at h
  · rename_i hrange
    rw [if_neg h1, if_pos hrange, h]
  · split at h
    · cases h
    · cases h

/-- A record is not complete before all the bytes that are needed have arrived. -/
lemma tlsRecordNeeded_append_short {b e : Bytes} {n : Nat} (h : tlsRecordNeeded b = .ok n)
    (he : e.length < n) : tlsRecordNeeded (b ++ e) ≠ .ok 0 := by
  rw [Ne, tlsRecordNeeded_zero_iff, List.length_append]
  rintro ⟨hheader, hrec⟩
  have hheaderLen := hheader.length
  rw [List.length_append] at hheaderLen
  by_cases hshort : b.length < 5
  · have := needed_of_short hshort h
    omega
  · rw [recordLen_append e (by omega)] at hrec
    rw [tlsRecordNeeded_of_header (recordHeader_of_needed (by omega) h)] at h
    have : 5 + recordLen b - b.length = n := by simpa using h
    omega

/-- What the accumulation loop relies on: however the stream goes on, an error stays, a complete
record stays complete and is read in the same way, and a partial one asks for no more bytes than
it lacks. -/
theorem tlsRecordNeeded_streaming (b e : Bytes) :
    (∀ x, tlsRecordNeeded b = .error x → tlsRecordNeeded (b ++ e) = .error x) ∧
    (tlsRecordNeeded b = .ok 0 →
      tlsRecordNeeded (b ++ e) = .ok 0 ∧ parseSni (b ++ e) = parseSni b ∧
      (∀ host literal, validateTlsClientHello (b ++ e) host literal =
        validateTlsClientHello b host literal) ∧
      getRange b 5 (5 + recordLen b) ≠ none) ∧
    ∀ n, tlsRecordNeeded b = .ok n → 0 < n → e.length < n → tlsRecordNeeded (b ++ e) ≠ .ok 0 := by
  refine ⟨fun x h => tlsRecordNeeded_append_error e h, ?_,
    fun n h _ he => tlsRecordNeeded_append_short h he⟩
  intro h
  obtain ⟨hheader, hrec⟩ := (tlsRecordNeeded_zero_iff b).1 h
  refine ⟨tlsRecordNeeded_append_complete e h, parseSni_append e hheader.length hrec,
    fun host literal => validateTlsClientHello_append e host literal h, ?_⟩
  rw [getRange, if_pos ⟨by omega, hrec⟩]
  simp

theorem tlsRecordNeeded_streaming_records :
    tlsRecordNeeded [0x17, 0xff] = .error (.proto .notTls) ∧
    tlsRecordNeeded [0x16, 3, 1, 0, 2, 1, 1, 9] = .ok 0 ∧
    parseSni [0x16, 3, 1, 0, 2, 1, 1, 9] = parseSni [0x16, 3, 1, 0, 2, 1, 1] ∧
    tlsRecordNeeded [0x16, 3, 1, 0, 2, 1] ≠ .ok 0 := by
  have herror := (tlsRecordNeeded_streaming [0x17] [0xff]).1 (.proto .notTls) (by decide)
  have hcomplete := (tlsRecordNeeded_streaming [0x16, 3, 1, 0, 2, 1, 1] [9]).2.1 (by decide)
  have hshort := (tlsRecordNeeded_streaming [0x16, 3, 1, 0, 2] [1]).2.2 2 (by decide) (by decide)
    (by decide)
  exact ⟨herror, hcomplete.1, hcomplete.2.1, hshort⟩

end WsTcpProxy.Proofs
