import WsTcpProxy.Proofs.ClientHelloGrammar

/-!
# Foreign server names

Which `host_name` entries of an accepted ClientHello are compared with the destination.
-/

namespace WsTcpProxy.Proofs
open Library

/-- The `host_name` entries of the `server_name` extensions of a block, in order. Every list of
names is cut wholly into entries. -/
inductive ServerNames : List (Bytes × Bytes) → List Bytes → Prop
  | nil : ServerNames [] []
  | other {header data : Bytes} {entries : List (Bytes × Bytes)} {names : List Bytes} :
      isServerName header = false → ServerNames entries names →
        ServerNames ((header, data) :: entries) names
  | list {header data list : Bytes} {entries listed : List (Bytes × Bytes)} {names : List Bytes} :
      isServerName header = true → NamesWith list data → listedName.Splits list listed →
        ServerNames entries names → ServerNames ((header, data) :: entries)
          ((listed.filter fun e => isHostName e.1).map Prod.snd ++ names)

/-- The extension block of the ClientHello in `buf` and its `server_name` lists are cut wholly into
entries, and `names` are its `host_name` entries. -/
def HostNames (buf : Bytes) (names : List Bytes) : Prop :=
  ∃ hello exts entries, RecordWith hello buf ∧ HelloWith exts hello ∧
    extension.Splits exts entries ∧ ServerNames entries names

def namedHost (name : Bytes) : Option Str := (fromUtf8 name).map normalizeHostname

lemma parseSni_of_helloWith {buf hello exts : Bytes} (hrecord : RecordWith hello buf)
    (hhello : HelloWith exts hello) : parseSni buf = extensionLoop exts 0 := by
  have hparse : parseSni buf = parseHello hello := by
    rcases parseSni_cases buf with ⟨hello', hread, hparse⟩ | ⟨hread, -⟩
    · cases hread.symm.trans (readRecord_eq_some.mpr hrecord)
      exact hparse
    · cases hread.symm.trans (readRecord_eq_some.mpr hrecord)
  rw [hparse, parseHello_of_helloWith hhello]

/-- The name that the parser returns is the first of all. -/
lemma head_of_parsed {exts : Bytes} {entries : List (Bytes × Bytes)} {names : List Bytes} {s : Str}
    (hsplits : extension.Splits exts entries) (hnames : ServerNames entries names)
    (hparse : extensionLoop exts 0 = .ok (some s)) :
    ∃ first, names.head? = some first ∧ fromUtf8 first = some s := by
  rw [extensionLoop_eq, List.drop_zero, CountedFormat.first_of_splits hsplits] at hparse
  clear hsplits
  induction hnames with
  | nil => cases hparse
  | other hother _ ih =>
    rw [List.find?_cons, hother] at hparse
    exact ih hparse
  | @list _ _ _ _ listed _ hserver hlist hlisted _ _ =>
    rw [List.find?_cons, hserver] at hparse
    obtain ⟨header, tail, rfl, hentry⟩ := hlist
    simp only [parseSniExtension_eq, vec16.read_append hentry] at hparse
    rw [sniNameLoop_eq, List.drop_zero, CountedFormat.first_of_splits hlisted] at hparse
    cases hfind : listed.find? (fun e => isHostName e.1) with
    | none =>
      rw [hfind] at hparse
      cases hparse
    | some e =>
      rw [hfind] at hparse
      obtain ⟨s', hname, -, hs⟩ := nameVerdict_eq_ok.mp hparse
      cases hs
      refine ⟨e.2, ?_, fromUtf8_eq_some.mpr hname⟩
      rw [List.head?_append, List.head?_map, List.head?_filter, hfind]
      rfl

lemma sni_of_accepted {buf : Bytes} {host : Str}
    (h : validateTlsClientHello buf host false = .ok ()) :
    ∃ s, parseSni buf = .ok (some s) ∧ normalizeHostname s = normalizeHostname host := by
  rw [validateTlsClientHello] at h
  cases hneeded : tlsRecordNeeded buf with
  | error e =>
    rw [hneeded] at h
    cases h
  | ok n =>
    rw [hneeded, ok_bind] at h
    split at h
    · cases h
    · cases hsni : parseSni buf with
      | error e =>
        rw [hsni] at h
        cases h
      | ok sni =>
        rw [hsni, ok_bind] at h
        cases sni with
        | none => cases h
        | some s =>
          rw [if_neg (by simp)] at h
          dsimp only at h
          split at h
          · rename_i heq
            exact ⟨s, rfl, heq⟩
          · cases h

/-- In an accepted ClientHello all `host_name` entries name the destination exactly when the later
ones repeat the first. -/
theorem no_foreign_name_iff (buf : Bytes) (host : Str) (names : List Bytes)
    (hok : validateTlsClientHello buf host false = .ok ()) (hnames : HostNames buf names) :
    (∀ name ∈ names, namedHost name = some (normalizeHostname host)) ↔
      ∀ name ∈ names.tail, namedHost name = names.head?.bind namedHost := by
  obtain ⟨s, hsni, hhost⟩ := sni_of_accepted hok
  obtain ⟨hello, exts, entries, hrecord, hhello, hsplits, hserver⟩ := hnames
  rw [parseSni_of_helloWith hrecord hhello] at hsni
  obtain ⟨first, hfirst, hs⟩ := head_of_parsed hsplits hserver hsni
  obtain ⟨later, rfl⟩ := List.head?_eq_some_iff.mp hfirst
  have hnamed : namedHost first = some (normalizeHostname host) := by
    rw [namedHost, hs, ← hhost]
    rfl
  simp [hnamed]

/-! ### ClientHellos that are accepted -/

def short16 (field : Bytes) : Bytes := [0, .ofNat field.length]

def sampleData (list : Bytes) : Bytes := short16 list ++ list ++ []

def sampleHeader (list : Bytes) : Bytes := [0, 0] ++ short16 (sampleData list)

def sampleBlock (list : Bytes) : Bytes := sampleHeader list ++ sampleData list ++ []

/-- The fields before the extensions, with one cipher suite. -/
def sampleFront : Bytes :=
  [3, 3] ++ List.replicate 32 0 ++ ([0] ++ []) ++ ([0, 2] ++ [0x13, 0x01]) ++ ([1] ++ [0])

def sampleHello (list : Bytes) : Bytes :=
  sampleFront ++ (short16 (sampleBlock list) ++ sampleBlock list ++ [])

def sampleBody (list : Bytes) : Bytes :=
  0x01 :: (0 :: short16 (sampleHello list) ++ sampleHello list ++ [])

def sampleRecord (list : Bytes) : Bytes :=
  0x16 :: 3 :: 1 :: (short16 (sampleBody list) ++ sampleBody list ++ [])

section
variable {list : Bytes}

lemma u16_short {field : Bytes} (h : field.length < 256) :
    u16FromBeBytes 0 (.ofNat field.length) = field.length := by
  simp only [u16FromBeBytes, UInt8.toNat_ofNat']
  simp
  omega

lemma vec16_short {field : Bytes} (h : field.length < 256) : vec16.Entry (short16 field) field :=
  ⟨rfl, (u16_short h).symm⟩

lemma sampleHello_length : (sampleHello list).length = list.length + 49 := by
  simp [sampleHello, sampleBlock, sampleHeader, sampleData, sampleFront, short16]

lemma sampleBody_length : (sampleBody list).length = list.length + 53 := by
  simp [sampleBody, sampleHello_length, short16]

lemma sampleRecord_with (h : list.length < 200) : RecordWith (sampleHello list) (sampleRecord list) := by
  have hhello : (sampleHello list).length = list.length + 49 := sampleHello_length
  refine ⟨3, 1, _, _, [], _, [], rfl, vec16_short ?_, rfl, ⟨rfl, ?_⟩⟩
  · rw [sampleBody_length]
    omega
  · have hlen := @u16_short (sampleHello list) (by omega)
    simp only [vec24, short16, List.getD_cons_zero, List.getD_cons_succ, u16FromBeBytes] at hlen ⊢
    simpa using hlen.symm

lemma sampleHello_with (h : list.length < 200) : HelloWith (sampleBlock list) (sampleHello list) := by
  refine ⟨sampleFront, _, [], rfl, ?_, vec16_short ?_⟩
  · exact ⟨_, _, _, _, _, _, _, _, rfl, rfl, rfl, ⟨rfl, rfl⟩, ⟨rfl, rfl⟩, ⟨rfl, rfl⟩⟩
  · simp [sampleBlock, sampleHeader, sampleData, short16]
    omega

lemma sampleBlock_entry (h : list.length < 200) :
    extension.Entry (sampleHeader list) (sampleData list) :=
  ⟨rfl, (u16_short (by simp [sampleData, short16]; omega)).symm⟩

lemma sampleHeader_type (list : Bytes) : isServerName (sampleHeader list) = true := by
  simp [isServerName, sampleHeader, u16FromBeBytes]

lemma sampleData_names (h : list.length < 200) : NamesWith list (sampleData list) :=
  ⟨short16 list, [], rfl, vec16_short (by omega)⟩

lemma sampleRecord_names {listed : List (Bytes × Bytes)} (h : list.length < 200)
    (hlisted : listedName.Splits list listed) :
    HostNames (sampleRecord list) ((listed.filter fun e => isHostName e.1).map Prod.snd) := by
  have hblock : extension.Splits (sampleBlock list) [(sampleHeader list, sampleData list)] :=
    by simpa [sampleBlock] using CountedFormat.Splits.single extension (sampleBlock_entry h)
  have hnames := ServerNames.list (sampleHeader_type list) (sampleData_names h) hlisted .nil
  rw [List.append_nil] at hnames
  exact ⟨_, _, _, sampleRecord_with h, sampleHello_with h, hblock, hnames⟩

/-- The first `host_name` decides, whatever follows it. -/
lemma sampleRecord_accepted {s host : Str} (h : list.length < 200) (hne : s ≠ [])
    (hfirst : listedName.FirstEntry isHostName list (utf8Bytes s))
    (hhost : normalizeHostname s = normalizeHostname host) :
    validateTlsClientHello (sampleRecord list) host false = .ok () := by
  have hneeded : tlsRecordNeeded (sampleRecord list) = .ok 0 := by
    have hbody : (sampleRecord list).length = list.length + 58 := by
      simp [sampleRecord, sampleBody_length, short16]
    have hlen : recordLen (sampleRecord list) = list.length + 53 := by
      rw [← sampleBody_length]
      exact u16_short (by rw [sampleBody_length]; omega)
    rw [tlsRecordNeeded_zero_iff]
    refine ⟨⟨by omega, rfl, rfl, by omega, ?_⟩, by omega⟩
    rw [hlen, maxTlsRecord]
    omega
  have hsni : parseSni (sampleRecord list) = .ok (some s) := by
    rw [parseSni_of_helloWith (sampleRecord_with h) (sampleHello_with h), extensionLoop_eq_ok]
    refine .inr ⟨sampleData list, list, ?_, sampleData_names h, hne, hfirst⟩
    exact ⟨[], [], sampleHeader list, [], rfl, .nil, by simp, sampleBlock_entry h,
      sampleHeader_type list⟩
  rw [validateTlsClientHello, hneeded, ok_bind, if_neg (by simp), hsni, ok_bind, if_neg (by simp)]
  simp only [hhost, if_true]
  rfl

end

/-- A list with `a` and then `A.` repeats its first name. -/
theorem no_foreign_name_iff_respelled :
    ∃ buf, validateTlsClientHello buf "a".toList false = .ok () ∧ HostNames buf [[97], [65, 46]] ∧
      ∀ name ∈ [[97], [65, 46]], namedHost name = some (normalizeHostname "a".toList) := by
  have hlisted : listedName.Splits ([0, 0, 1] ++ [97] ++ ([0, 0, 2] ++ [65, 46]))
      [([0, 0, 1], [97]), ([0, 0, 2], [65, 46])] := .cons ⟨rfl, rfl⟩ (.single _ ⟨rfl, rfl⟩)
  have hfirst : listedName.FirstEntry isHostName [0, 0, 1, 97, 0, 0, 2, 65, 46] (utf8Bytes "a".toList) :=
    ⟨[], [], [0, 0, 1], [0, 0, 2, 65, 46], rfl, .nil, by simp, ⟨rfl, rfl⟩, rfl⟩
  have hok := sampleRecord_accepted (by decide) (by decide) hfirst rfl
  have hnames := sampleRecord_names (by decide) hlisted
  have hplain : namedHost [97] = some "a".toList := by
    rw [namedHost, fromUtf8_eq_some.mpr (show [97] = utf8Bytes "a".toList by decide)]
    rfl
  have hdotted : namedHost [65, 46] = some "a".toList := by
    rw [namedHost, fromUtf8_eq_some.mpr (show [65, 46] = utf8Bytes "A.".toList by decide)]
    rfl
  refine ⟨_, hok, hnames, (no_foreign_name_iff _ _ _ hok hnames).mpr ?_⟩
  intro name hname
  rw [List.mem_singleton.mp (show name ∈ [[65, 46]] from hname), hdotted]
  exact hplain.symm

/-- A list with `a` and then `b` is accepted for `a`. -/
theorem foreign_name_accepted :
    ¬∀ buf host names, validateTlsClientHello buf host false = .ok () → HostNames buf names →
      ∀ name ∈ names, namedHost name = some (normalizeHostname host) := by
  intro h
  have hlisted : listedName.Splits ([0, 0, 1] ++ [97] ++ ([0, 0, 1] ++ [98]))
      [([0, 0, 1], [97]), ([0, 0, 1], [98])] := .cons ⟨rfl, rfl⟩ (.single _ ⟨rfl, rfl⟩)
  have hfirst : listedName.FirstEntry isHostName [0, 0, 1, 97, 0, 0, 1, 98] (utf8Bytes "a".toList) :=
    ⟨[], [], [0, 0, 1], [0, 0, 1, 98], rfl, .nil, by simp, ⟨rfl, rfl⟩, rfl⟩
  have hforeign := h _ "a".toList _ (sampleRecord_accepted (by decide) (by decide) hfirst rfl)
    (sampleRecord_names (by decide) hlisted) [98] (by decide)
  have hb : namedHost [98] = some "b".toList := by
    rw [namedHost, fromUtf8_eq_some.mpr (show [98] = utf8Bytes "b".toList by decide)]
    rfl
  rw [hb] at hforeign
  exact absurd hforeign (by decide)

end WsTcpProxy.Proofs
