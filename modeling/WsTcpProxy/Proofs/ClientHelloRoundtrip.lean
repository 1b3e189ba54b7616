import WsTcpProxy.ClientHello
import WsTcpProxy.Proofs.ForeignNames
import WsTcpProxy.Proofs.TlsFragmentation

/-!
# Reading ClientHellos back

Whatever a client puts into its ClientHello and behind it, the parser finds the name it asks for.
-/

namespace WsTcpProxy.Proofs
open Library

/-! ### Lengths -/

lemma u16_be16_mod (n : ℕ) : u16FromBeBytes (.ofNat (n / 256)) (.ofNat n) = n % 2 ^ 16 := by
  rw [u16FromBeBytes, UInt8.toNat_ofNat', UInt8.toNat_ofNat']
  omega

lemma u16_be16 {n : ℕ} (h : n < 2 ^ 16) : u16FromBeBytes (.ofNat (n / 256)) (.ofNat n) = n :=
  (u16_be16_mod n).trans (Nat.mod_eq_of_lt h)

section Vectors

variable {field : Bytes}

lemma vec8_entry (h : field.length < 2 ^ 8) : vec8.Entry [.ofNat field.length] field := by
  refine ⟨rfl, ?_⟩
  change _ = (UInt8.ofNat field.length).toNat
  rw [UInt8.toNat_ofNat', Nat.mod_eq_of_lt h]

lemma vec16_entry (h : field.length < 2 ^ 16) : vec16.Entry (be16 field.length) field :=
  ⟨rfl, (u16_be16 h).symm⟩

lemma vec24_entry (h : field.length < 2 ^ 24) : vec24.Entry (be24 field.length) field := by
  refine ⟨rfl, ?_⟩
  change _ = (UInt8.ofNat (field.length / 65536)).toNat * 65536 +
    (UInt8.ofNat (field.length / 256)).toNat * 256 + (UInt8.ofNat field.length).toNat
  simp only [UInt8.toNat_ofNat']
  omega

end Vectors

/-! ### Names -/

lemma ServerName.entry (n : ServerName) : listedName.Entry n.header n.bytes := by
  have hshort : n.bytes.length < 2 ^ 16 := by
    cases n with
    | hostName name _ short => exact short
    | other kind name _ short => exact short
  exact ⟨rfl, (u16_be16 hshort).symm⟩

lemma ServerName.isHostName_header (n : ServerName) : isHostName n.header = n.host.isSome := by
  cases n with
  | hostName => rfl
  | other kind name foreign => exact beq_eq_false_iff_ne.mpr foreign

lemma sniNameLoop_encode (names : List ServerName) :
    sniNameLoop (names.flatMap ServerName.encode) 0 = .ok (names.findSome? ServerName.host) := by
  rw [sniNameLoop_eq, List.drop_zero]
  unfold ServerName.encode
  rw [CountedFormat.first_of_items fun n _ => ServerName.entry n]
  induction names with
  | nil => rfl
  | cons n names ih =>
    rw [List.find?_cons, List.findSome?_cons, ServerName.isHostName_header]
    cases n with
    | hostName name nonempty => exact nameVerdict_eq_ok.mpr ⟨name, rfl, nonempty, rfl⟩
    | other kind name => exact ih

/-! ### Extensions -/

lemma Extension.data_short (e : Extension) : e.data.length < 2 ^ 16 := by
  cases e with
  | serverName names short =>
    rw [Extension.data, List.length_append, Nat.add_comm]
    exact short
  | other kind data _ _ short => exact short

lemma Extension.entry (e : Extension) : extension.Entry e.header e.data :=
  ⟨rfl, (u16_be16 (Extension.data_short e)).symm⟩

lemma Extension.isServerName_header (e : Extension) : isServerName e.header = e.names.isSome := by
  have hkind : isServerName e.header = (e.kind == 0) := by
    have hrange : e.kind < 2 ^ 16 := by
      cases e with
      | serverName => exact Nat.two_pow_pos 16
      | other kind data _ range => exact range
    exact congrArg (· == 0) (u16_be16 hrange)
  rw [hkind]
  cases e with
  | serverName => rfl
  | other kind data foreign => exact beq_eq_false_iff_ne.mpr foreign

lemma parseSniExtension_encode (names : List ServerName)
    (short : (names.flatMap ServerName.encode).length + 2 < 2 ^ 16) :
    parseSniExtension (Extension.serverName names short).data =
      .ok (names.findSome? ServerName.host) := by
  have hread : vec16.read (be16 (names.flatMap ServerName.encode).length ++
      names.flatMap ServerName.encode ++ []) = some ((_, names.flatMap ServerName.encode), []) :=
    vec16.read_append (vec16_entry (by omega))
  rw [List.append_nil] at hread
  rw [parseSniExtension_eq, Extension.data, hread]
  exact sniNameLoop_encode names

lemma extensionLoop_encode (exts : List Extension) :
    extensionLoop (exts.flatMap Extension.encode) 0 =
      .ok ((exts.findSome? Extension.names).bind fun names => names.findSome? ServerName.host) := by
  rw [extensionLoop_eq, List.drop_zero]
  unfold Extension.encode
  rw [CountedFormat.first_of_items fun e _ => Extension.entry e]
  induction exts with
  | nil => rfl
  | cons e exts ih =>
    rw [List.find?_cons, List.findSome?_cons, Extension.isServerName_header]
    cases e with
    | serverName names short => exact parseSniExtension_encode names short
    | other kind data => exact ih

/-! ### ClientHellos -/

lemma helloFront_front (h : ClientHello) : HelloFront h.front :=
  ⟨_, _, _, _, _, _, _, _, rfl, Vector.length_toList, Vector.length_toList,
    vec8_entry h.sessionId_short, vec16_entry h.ciphers_short, vec8_entry h.compression_short⟩

lemma parseHello_encode (h : ClientHello) : parseHello h.encode = .ok h.serverName := by
  cases hexts : h.extensions with
  | none =>
    have hblock : h.block = [] := by rw [ClientHello.block, hexts]
    have hfront : readFront h.encode = some h.block :=
      readFront_eq_some.mpr ⟨h.front, rfl, helloFront_front h⟩
    rw [parseHello_eq, hfront, hblock, ClientHello.serverName, hexts]
    rfl
  | some exts =>
    have hwith : HelloWith (exts.flatMap Extension.encode) h.encode := by
      refine ⟨h.front, _, [], ?_, helloFront_front h, vec16_entry (h.extensions_short exts hexts)⟩
      rw [ClientHello.encode, ClientHello.block, hexts, List.append_nil]
    rw [parseHello_of_helloWith hwith, extensionLoop_encode, ClientHello.serverName, hexts]
    rfl

/-! ### Records -/

section Records

variable (r : HelloRecord) (later : Bytes)

lemma recordWith_encode : RecordWith r.hello.encode (r.encode ++ later) := by
  have hshort := r.short
  have hbody : r.body.length < 2 ^ 16 := by
    simp only [HelloRecord.body, be24, List.length_cons, List.length_append, List.length_nil]
    omega
  refine ⟨0x03, r.minor, be16 r.body.length, r.body, later, be24 r.hello.encode.length, r.rest, rfl,
    vec16_entry hbody, rfl, vec24_entry ?_⟩
  omega

lemma parseSni_encode : parseSni (r.encode ++ later) = .ok r.hello.serverName := by
  rw [parseSni_eq_ok]
  exact ⟨r.hello.encode, recordWith_encode r later, parseHello_eq_ok.mp (parseHello_encode r.hello)⟩

lemma recordLen_encode : recordLen (r.encode ++ later) = r.body.length := by
  have hshort := r.short
  refine u16_be16 ?_
  simp only [HelloRecord.body, be24, List.length_cons, List.length_append, List.length_nil]
  omega

lemma tlsRecordNeeded_encode :
    tlsRecordNeeded (r.encode ++ later) = .ok 0 ↔ r.body.length ≤ maxTlsRecord := by
  have hlen : (r.encode ++ later).length = 5 + r.body.length + later.length := by
    simp only [HelloRecord.encode, be16, List.length_cons, List.length_append, List.length_nil]
    omega
  have hpos : 0 < r.body.length := Nat.succ_pos _
  rw [tlsRecordNeeded_zero_iff, recordLen_encode]
  constructor
  · rintro ⟨hheader, -⟩
    rw [← recordLen_encode r later]
    exact hheader.le
  · intro hle
    refine ⟨⟨?_, rfl, rfl, ?_, ?_⟩, ?_⟩
    · omega
    · rw [recordLen_encode]
      exact hpos
    · rw [recordLen_encode]
      exact hle
    · omega

lemma validate_encode (host : Str) (literal : Bool) :
    validateTlsClientHello (r.encode ++ later) host literal = .ok () ↔
      r.body.length ≤ maxTlsRecord ∧ (literal = false →
        ∃ s, r.hello.serverName = some s ∧ normalizeHostname s = normalizeHostname host) := by
  constructor
  · intro h
    refine ⟨(tlsRecordNeeded_encode r later).mp (validate_complete h), ?_⟩
    rintro rfl
    obtain ⟨s, hs, hname⟩ := sni_of_accepted h
    rw [parseSni_encode] at hs
    exact ⟨s, Except.ok.inj hs, hname⟩
  · rintro ⟨hle, hhost⟩
    rw [validateTlsClientHello, (tlsRecordNeeded_encode r later).mpr hle, ok_bind, if_neg (not_not.mpr rfl),
      parseSni_encode, ok_bind]
    cases literal with
    | true => rfl
    | false =>
      obtain ⟨s, hs, hname⟩ := hhost rfl
      rw [hs]
      exact if_pos hname

/-- A ClientHello is read back whatever its other fields are and whatever follows it; it is accepted
exactly if the record is not too long and its name is that of the destination, which a literal does
not need. -/
theorem hello_read_back :
    parseSni (r.encode ++ later) = .ok r.hello.serverName ∧
      ∀ host literal, validateTlsClientHello (r.encode ++ later) host literal = .ok () ↔
        r.body.length ≤ maxTlsRecord ∧ (literal = false →
          ∃ s, r.hello.serverName = some s ∧ normalizeHostname s = normalizeHostname host) :=
  ⟨parseSni_encode r later, validate_encode r later⟩

end Records

/-! ### The client of the tests -/

section SampleClient

variable (name : Str) (hne : name ≠ []) (hshort : (asBytes name).length ≤ 65479)

/-- The ClientHello of `client_hello_with_sni`. -/
def namedHello : ClientHello where
  version := #v[0x03, 0x03]
  random := Vector.replicate 32 0
  sessionId := []
  ciphers := [0x00, 0x2f]
  compression := [0]
  extensions := some [.serverName [.hostName name hne (by omega)] (by
    simp [ServerName.encode, ServerName.header, ServerName.bytes, be16]
    omega)]
  sessionId_short := by decide
  ciphers_short := by decide
  compression_short := by decide
  extensions_short := by
    rintro exts ⟨⟩
    simp [Extension.encode, Extension.header, Extension.data, ServerName.encode, ServerName.header,
      ServerName.bytes, be16]
    omega

def namedRecord : HelloRecord where
  minor := 0x01
  hello := namedHello name hne hshort
  rest := []
  short := by
    simp [namedHello, ClientHello.encode, ClientHello.front, ClientHello.block, Extension.encode,
      Extension.header, Extension.data, ServerName.encode, ServerName.header, ServerName.bytes, be16]
    omega

lemma namedRecord_encode : (namedRecord name hne hshort).encode = clientHelloWithSni name := by
  have hlist (n : ℕ) : be16 (n + 1 + 1 + 1) = be16 (1 + 2 + n) := congrArg be16 (by omega)
  simp [namedRecord, HelloRecord.encode, HelloRecord.body, namedHello, ClientHello.encode,
    ClientHello.front, ClientHello.block, Extension.encode, Extension.header, Extension.data,
    Extension.kind, ServerName.encode, ServerName.header, ServerName.bytes, ServerName.kind, be16,
    be24, clientHelloWithSni]
  simpa [be16] using hlist (asBytes name).length

end SampleClient

section SampleRoundtrip

variable {name : Str}

/-- The framing of the record, with the two lengths that it carries. -/
lemma clientHelloWithSni_framed (name : Str) :
    ∃ hello : Bytes, hello.length = (asBytes name).length + 52 ∧
      clientHelloWithSni name = 0x16 :: 0x03 :: 0x01 ::
        (be16 (hello.length + 4) ++ (0x01 :: (be24 hello.length ++ hello))) := by
  have hcode : ∃ hello : Bytes, hello.length = (asBytes name).length + 52 ∧
      clientHelloWithSni name = [0x16] ++ [0x03, 0x01] ++
        be16 ([0x01] ++ be24 hello.length ++ hello).length ++ ([0x01] ++ be24 hello.length ++ hello) := by
    refine ⟨_, ?_, rfl⟩
    simp [be16]
  obtain ⟨hello, hlen, hcode⟩ := hcode
  have hs : ([0x01] ++ be24 hello.length ++ hello).length = hello.length + 4 := by simp [be24]
  refine ⟨hello, hlen, hcode.trans ?_⟩
  rw [hs]
  rfl

lemma firstEntry_short {p : Bytes → Bool} {list field : Bytes} (h : listedName.FirstEntry p list field) :
    field.length < 2 ^ 16 := by
  obtain ⟨skipped, entries, header, rest, -, -, -, hentry, -⟩ := h
  have hhigh := (header.getD 1 0).toNat_lt
  have hlow := (header.getD 2 0).toNat_lt
  rw [hentry.field_length]
  change (header.getD 1 0).toNat * 256 + (header.getD 2 0).toNat < 2 ^ 16
  omega

/-- A name that is read back is short, since the format has two bytes for its length. -/
lemma short_of_read (h : parseSni (clientHelloWithSni name) = .ok (some name)) :
    name ≠ [] ∧ (asBytes name).length < 2 ^ 16 := by
  obtain ⟨hello, -, ⟨hnone, -⟩ | ⟨exts, -, ⟨hnone, -⟩ | ⟨data, list, -, -, hne, hname⟩⟩⟩ :=
    parseSni_eq_ok.mp h
  · cases hnone
  · cases hnone
  · exact ⟨hne, firstEntry_short hname⟩

/-- In a record that is read the ClientHello fits, as the record announces both lengths. -/
lemma fits_of_read {hello read : Bytes} (hlen : hello.length < 2 ^ 24)
    (h : RecordWith read (0x16 :: 0x03 :: 0x01 ::
      (be16 (hello.length + 4) ++ (0x01 :: (be24 hello.length ++ hello))))) :
    hello.length + 4 ≤ (hello.length + 4) % 2 ^ 16 := by
  obtain ⟨v, v', header, body, rest, header', slack, heq, hbody, rfl, hread⟩ := h
  simp only [List.cons.injEq, true_and, List.append_assoc] at heq
  obtain ⟨-, -, hframe⟩ := heq
  obtain ⟨hheader, hrecord⟩ := List.append_inj hframe hbody.header_length.symm
  simp only [List.cons_append, List.cons.injEq, true_and, List.append_assoc] at hrecord
  obtain ⟨hheader', -⟩ := List.append_inj hrecord hread.header_length.symm
  subst hheader hheader'
  have hreadLen : read.length = hello.length :=
    hread.field_length.trans (vec24_entry hlen).field_length.symm
  have hannounced : (0x01 :: (be24 hello.length ++ read ++ slack)).length =
      (hello.length + 4) % 2 ^ 16 := hbody.field_length.trans (u16_be16_mod _)
  rw [← hannounced, ← hreadLen]
  simp only [be24, List.length_cons, List.length_append, List.length_nil]
  omega

/-- The round trip of the tests, `sni_roundtrip`, for every name: it works exactly for a name that
is not empty and for which the record has room. -/
theorem sni_roundtrip_iff (name : Str) :
    parseSni (clientHelloWithSni name) = .ok (some name) ↔
      name ≠ [] ∧ (asBytes name).length ≤ 65479 := by
  constructor
  · intro h
    obtain ⟨hne, hname⟩ := short_of_read h
    refine ⟨hne, ?_⟩
    obtain ⟨hello, hlen, hframed⟩ := clientHelloWithSni_framed name
    obtain ⟨read, hrecord, -⟩ := parseSni_eq_ok.mp h
    rw [hframed] at hrecord
    have hfits := fits_of_read (by omega) hrecord
    omega
  · rintro ⟨hne, hshort⟩
    rw [← namedRecord_encode name hne hshort, ← List.append_nil (HelloRecord.encode _), parseSni_encode]
    rfl

end SampleRoundtrip

end WsTcpProxy.Proofs
