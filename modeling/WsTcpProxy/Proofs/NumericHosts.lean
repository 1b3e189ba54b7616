import WsTcpProxy.Proofs.AddrGrammar

/-!
# Numeric hosts and the literal tests

`parse_remote` tests the host text for a literal as it is written, and hands it to the resolver
trimmed and in lower case. The difference between the two is where a numeric address can pass
for a hostname.
-/

namespace WsTcpProxy.Proofs

/-! ### Hostnames -/

lemma isValidDnsHostname_iff (host : Str) :
    isValidDnsHostname host ↔
      host ≠ [] ∧ utf8Len host ≤ maxHostnameLen ∧ host.head? ≠ some '.' ∧
        contains "..".toList host = false ∧ ∀ label ∈ host.splitOn '.', isValidDnsLabel label := by
  unfold isValidDnsHostname
  split_ifs with h1 h2
  · simp only [Bool.or_eq_true, List.isEmpty_iff, decide_eq_true_eq] at h1
    rw [iff_false_left (by simp)]
    rintro ⟨hne, hlen, -⟩
    exact h1.elim hne (by omega)
  · simp only [Bool.or_eq_true, beq_iff_eq] at h2
    rw [iff_false_left (by simp)]
    rintro ⟨-, -, hhead, hdots, -⟩
    rw [hdots] at h2
    exact h2.elim hhead (by simp)
  · simp only [Bool.or_eq_true, List.isEmpty_iff, decide_eq_true_eq, not_or] at h1
    simp only [Bool.or_eq_true, beq_iff_eq, not_or, Bool.not_eq_true] at h2
    rw [List.all_eq_true]
    exact ⟨fun h => ⟨h1.1, by omega, h2.1, h2.2, h⟩, fun h => h.2.2.2.2⟩

lemma isValidDnsLabel_iff (label : Str) :
    isValidDnsLabel label ↔
      label ≠ [] ∧ utf8Len label ≤ maxDnsLabelLen ∧ label.head?.any isAsciiAlphanumeric ∧
        label.getLast?.any isAsciiAlphanumeric ∧
        ∀ c ∈ label, isAsciiAlphanumeric c ∨ c = '-' := by
  unfold isValidDnsLabel
  split_ifs with h1 h2
  · simp only [Bool.or_eq_true, List.isEmpty_iff, decide_eq_true_eq] at h1
    rw [iff_false_left (by simp)]
    rintro ⟨hne, hlen, -⟩
    exact h1.elim hne (by omega)
  · simp only [Bool.or_eq_true, Bool.not_eq_true'] at h2
    rw [iff_false_left (by simp)]
    rintro ⟨-, -, hhead, hlast, -⟩
    exact h2.elim (by simp [hhead]) (by simp [hlast])
  · simp only [Bool.or_eq_true, List.isEmpty_iff, decide_eq_true_eq, not_or] at h1
    simp only [Bool.or_eq_true, Bool.not_eq_true', not_or, Bool.not_eq_false] at h2
    have hall : (label.all fun c => isAsciiAlphanumeric c || c == '-') = true ↔
        ∀ c ∈ label, isAsciiAlphanumeric c ∨ c = '-' := by
      simp
    rw [hall]
    exact ⟨fun h => ⟨h1.1, by omega, h2.1, h2.2, h⟩, fun h => h.2.2.2.2⟩

lemma colon_notMem_of_valid {host : Str} (h : isValidDnsHostname host) : ':' ∉ host := by
  intro hcolon
  obtain ⟨label, hlabel, hmem⟩ : ∃ label ∈ host.splitOn '.', ':' ∈ label :=
    mem_splitOn hcolon (by decide)
  obtain ⟨-, -, -, -, hlabels⟩ := (isValidDnsHostname_iff host).1 h
  obtain ⟨-, -, -, -, hchars⟩ := (isValidDnsLabel_iff label).1 (hlabels label hlabel)
  exact absurd (hchars ':' hmem) (by decide)

/-! ### Numeric texts as hostnames -/

lemma numeral_length {part : Str} (h : (numeral part).isSome) : utf8Len part = part.length := by
  apply utf8Len_ascii
  intro c hc
  have := (isAsciiAlphanumeric_iff c).1 (numeral_alphanumeric h hc)
  omega

lemma inetAton_length {s : Str} (h : (inetAton s).isSome) : utf8Len s = s.length := by
  apply utf8Len_ascii
  intro c hc
  obtain halnum | rfl := inetAton_chars h hc
  · have := (isAsciiAlphanumeric_iff c).1 halnum
    omega
  · decide

lemma isValidDnsLabel_of_numeral {part : Str} (h : (numeral part).isSome) :
    isValidDnsLabel part ↔ part.length ≤ maxDnsLabelLen := by
  rw [isValidDnsLabel_iff, numeral_length h]
  constructor
  · exact fun hvalid => hvalid.2.1
  · intro hlen
    have hne := numeral_isSome_ne_nil h
    refine ⟨hne, hlen, ?_, ?_, fun c hc => .inl (numeral_alphanumeric h hc)⟩
    · rw [List.head?_eq_some_head hne]
      exact numeral_alphanumeric h (List.head_mem hne)
    · rw [List.getLast?_eq_some_getLast hne]
      exact numeral_alphanumeric h (List.getLast_mem hne)

/-- A numeric text is a hostname unless it is too long. -/
lemma isValidDnsHostname_of_inetAton {s : Str} (h : (inetAton s).isSome) :
    isValidDnsHostname s ↔
      s.length ≤ maxHostnameLen ∧ ∀ label ∈ s.splitOn '.', label.length ≤ maxDnsLabelLen := by
  obtain ⟨addr, haddr⟩ := Option.isSome_iff_exists.1 h
  obtain ⟨-, hparts⟩ := inetAton_parts haddr
  have hnil : [] ∉ s.splitOn '.' := fun hmem => numeral_isSome_ne_nil (hparts [] hmem) rfl
  rw [isValidDnsHostname_iff, inetAton_length h]
  constructor
  · rintro ⟨-, hlen, -, -, hlabels⟩
    exact ⟨hlen, fun label hl =>
      (isValidDnsLabel_of_numeral (hparts label hl)).1 (hlabels label hl)⟩
  · rintro ⟨hlen, hlabels⟩
    refine ⟨?_, hlen, ?_, ?_, fun label hl =>
      (isValidDnsLabel_of_numeral (hparts label hl)).2 (hlabels label hl)⟩
    · rintro rfl
      exact hnil (by simp)
    · exact fun hhead => hnil (nil_mem_splitOn_of_head hhead)
    · rw [← Bool.not_eq_true]
      exact fun hdots => hnil (nil_mem_splitOn_of_contains hdots)

/-! ### The host that is resolved -/

lemma numericHost_iff_inetAton {host : Str} (hvalid : isValidDnsHostname host) :
    NumericHost host ↔ (inetAton host).isSome := by
  constructor
  · rintro (hip | haddr)
    · obtain ⟨haddr, -⟩ | hcolon := parseIpAddr_cases hip
      · exact haddr
      · exact absurd hcolon (colon_notMem_of_valid hvalid)
    · exact haddr
  · exact .inr

lemma normalizeHostname_eq (host : Str) : normalizeHostname host = (hostCore host).map Char.toLower :=
  rfl

lemma colon_mem_normalizeHostname {host : Str} (h : ':' ∈ host) : ':' ∈ normalizeHostname host := by
  have hcore : ':' ∈ hostCore host := mem_trimEndWhile (mem_trim h rfl) rfl
  exact List.mem_map.2 ⟨':', hcore, rfl⟩

/-- The literal tests see every numeric text that is written plainly. -/
lemma literal_of_plain {host : Str} (haddr : (inetAton host).isSome) (hlen : host.length ≤ 32) :
    (parseLooseIpv4 host).isSome := by
  rw [parseLooseIpv4_eq, if_pos (by rw [inetAton_length haddr]; exact hlen), Option.isSome_map]
  exact haddr

/-- A disguised address is missed by both literal tests. -/
lemma no_literal_of_disguised {host : Str} (hvalid : isValidDnsHostname (normalizeHostname host))
    (hdress : hostCore host ≠ host ∨ 32 < host.length) :
    parseIpAddr host = none ∧ parseLooseIpv4 host = none := by
  have hplain : (inetAton host).isSome → utf8Len host ≤ 32 → False := by
    intro haddr hlen
    rw [inetAton_length haddr] at hlen
    exact hdress.elim (fun h => h (inetAton_trims haddr)) (by omega)
  constructor
  · cases hip : parseIpAddr host with
    | none => rfl
    | some ip =>
      obtain ⟨haddr, hlen⟩ | hcolon := parseIpAddr_cases (s := host) (by rw [hip]; rfl)
      · exact (hplain haddr (by omega)).elim
      · exact absurd (colon_mem_normalizeHostname hcolon) (colon_notMem_of_valid hvalid)
  · rw [parseLooseIpv4_eq]
    split
    · rename_i hlen
      cases haddr : inetAton host with
      | none => rfl
      | some addr => exact (hplain (by rw [haddr]; rfl) hlen).elim
    · rfl

lemma inetAton_normalizeHostname (host : Str) :
    inetAton (normalizeHostname host) = inetAton (hostCore host) := by
  rw [normalizeHostname_eq]
  exact inetAton_toLower _

/-- A disguised address is, after normalization, a hostname that denotes an address. -/
lemma disguised_normalized {host : Str} (h : DisguisedAddress host) :
    isValidDnsHostname (normalizeHostname host) ∧ NumericHost (normalizeHostname host) := by
  obtain ⟨haddr, -, hlen, hlabels⟩ := h
  have hnorm : (inetAton (normalizeHostname host)).isSome := by
    rw [inetAton_normalizeHostname]
    exact haddr
  refine ⟨(isValidDnsHostname_of_inetAton hnorm).2 ⟨?_, ?_⟩, .inr hnorm⟩
  · rw [normalizeHostname_eq, List.length_map]
    exact hlen
  · have hdot : ∀ c : Char, c.toLower = '.' ↔ c = '.' := fun c =>
      toLower_eq_iff (by decide) (by decide)
    rw [normalizeHostname_eq, splitOn_map hdot]
    intro label hlabel
    obtain ⟨part, hpart, rfl⟩ := List.mem_map.1 hlabel
    rw [List.length_map]
    exact hlabels part hpart

/-- A numeric hostname that the literal tests missed was disguised. -/
lemma disguised_of_missed {host : Str} (hloose : parseLooseIpv4 host = none)
    (hvalid : isValidDnsHostname (normalizeHostname host))
    (hnum : NumericHost (normalizeHostname host)) : DisguisedAddress host := by
  have hnorm := (numericHost_iff_inetAton hvalid).1 hnum
  have haddr : (inetAton (hostCore host)).isSome := by
    rw [← inetAton_normalizeHostname]
    exact hnorm
  obtain ⟨hlen, hlabels⟩ := (isValidDnsHostname_of_inetAton hnorm).1 hvalid
  refine ⟨haddr, ?_, ?_, ?_⟩
  · by_contra hplain
    push Not at hplain
    rw [hplain.1] at haddr hplain
    have := literal_of_plain haddr hplain.2
    rw [hloose] at this
    cases this
  · rw [normalizeHostname_eq, List.length_map] at hlen
    exact hlen
  · intro label hlabel
    have hdot : ∀ c : Char, c.toLower = '.' ↔ c = '.' := fun c =>
      toLower_eq_iff (by decide) (by decide)
    rw [normalizeHostname_eq, splitOn_map hdot] at hlabels
    have := hlabels _ (List.mem_map_of_mem hlabel)
    rwa [List.length_map] at this

lemma parseRemote_ok {raw : Str} {r : Remote} :
    parseRemote raw = .ok r ↔
      ∃ host port, hostAndPort raw = .ok (host, port) ∧ classifyHost host port = .ok r := by
  unfold parseRemote
  cases hsplit : hostAndPort raw with
  | error e =>
    constructor
    · intro h
      cases h
    · rintro ⟨_, _, h, -⟩
      cases h
  | ok hp =>
    obtain ⟨host, port⟩ := hp
    constructor
    · exact fun h => ⟨host, port, rfl, h⟩
    · rintro ⟨_, _, h, hr⟩
      cases h
      exact hr

lemma classifyHost_cases {host : Str} {port : Nat} {r : Remote} (h : classifyHost host port = .ok r) :
    (∃ ip, r = ⟨ipCanonical ip, port, some ip⟩) ∨
    (r = ⟨normalizeHostname host, port, none⟩ ∧ parseIpAddr host = none ∧
      parseLooseIpv4 host = none ∧ isValidDnsHostname (normalizeHostname host)) := by
  unfold classifyHost at h
  split at h
  · cases h
    exact .inl ⟨_, rfl⟩
  · rename_i hip
    split at h
    · cases h
      exact .inl ⟨_, rfl⟩
    · rename_i hloose
      dsimp only at h
      split at h
      · rename_i hvalid
        cases h
        exact .inr ⟨rfl, hip, hloose, hvalid⟩
      · cases h

lemma checkPolicy_no_literal {r : Remote} {policy : DestPolicy} (hlit : policy.allowIpLiterals = false)
    (h : checkPolicy r policy = .ok ()) : r.ipLiteral = none := by
  cases hr : r.ipLiteral with
  | none => rfl
  | some ip =>
    unfold checkPolicy at h
    rw [hr, hlit] at h
    split at h
    · cases h
    · simp at h

/-- No disguised address is a literal to `parse_remote`. -/
lemma disguised_no_literal {host : Str} (h : DisguisedAddress host) :
    parseIpAddr host = none ∧ parseLooseIpv4 host = none := by
  apply no_literal_of_disguised (disguised_normalized h).1
  by_cases hcore : hostCore host = host
  · have hlong := h.2.1
    rw [hcore] at hlong
    exact .inr (hlong.resolve_left fun hne => hne rfl)
  · exact .inl hcore

/-- A numeric address passes for a hostname exactly when the host text disguises it. -/
theorem no_hidden_address_iff (raw : Str) :
    NoHiddenAddress raw ↔
      ∀ host port, hostAndPort raw = .ok (host, port) → ¬ DisguisedAddress host := by
  constructor
  · intro hsafe host port hsplit hdis
    obtain ⟨hvalid, hnum⟩ := disguised_normalized hdis
    obtain ⟨hip, hloose⟩ := disguised_no_literal hdis
    have hparse : parseRemote raw = .ok ⟨normalizeHostname host, port, none⟩ := by
      rw [parseRemote_ok]
      refine ⟨host, port, hsplit, ?_⟩
      simp [classifyHost, hip, hloose, hvalid]
    exact (hsafe _ hparse).1 rfl hnum
  · intro hplain r hparse
    have hhost : r.ipLiteral = none → ¬ NumericHost r.host := by
      intro hnone hnum
      obtain ⟨host, port, hsplit, hclass⟩ := parseRemote_ok.1 hparse
      obtain ⟨ip, rfl⟩ | ⟨rfl, -, hloose, hvalid⟩ := classifyHost_cases hclass
      · cases hnone
      · exact hplain host port hsplit (disguised_of_missed hloose hvalid hnum)
    exact ⟨hhost, fun policy hlit hpass => hhost (checkPolicy_no_literal hlit hpass)⟩

/-- `127.0.0.1.:993` passes the default policy as the hostname `127.0.0.1`. -/
theorem hidden_address_trailing_dot : ¬ NoHiddenAddress "127.0.0.1.:993".toList := by
  intro hsafe
  have hparse : parseRemote "127.0.0.1.:993".toList = .ok ⟨"127.0.0.1".toList, 993, none⟩ := by
    decide +kernel
  have hnum : NumericHost "127.0.0.1".toList := .inl (by decide +kernel)
  exact (hsafe _ hparse).2 {} rfl (by decide) hnum

end WsTcpProxy.Proofs
