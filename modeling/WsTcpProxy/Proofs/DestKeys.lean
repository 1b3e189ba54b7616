import WsTcpProxy.Proofs.AddressNumbers
import WsTcpProxy.Proofs.NumericHosts

/-!
# Destination keys

What `parseRemote` leaves of the spelling of a destination.
-/

namespace WsTcpProxy.Proofs

def addrText : IpAddr → Str
  | .v4 v4 => v4.toText
  | .v6 v6 => v6.toText

/-- A label of 1 to 63 bytes of lowercase letters, digits and inner hyphens. -/
structure LdhLabel (label : Str) : Prop where
  nonempty : 1 ≤ utf8Len label
  bounded : utf8Len label ≤ 63
  chars : ∀ c ∈ label, (97 ≤ c.toNat ∧ c.toNat ≤ 122) ∨ (48 ≤ c.toNat ∧ c.toNat ≤ 57) ∨ c = '-'
  first : label.head? ≠ some '-'
  last : label.getLast? ≠ some '-'

/-- A hostname in the form that is stored: bounded, lowercase and normalized. -/
structure CanonicalHostname (host : Str) : Prop where
  nonempty : 1 ≤ utf8Len host
  bounded : utf8Len host ≤ 253
  labels : ∀ label ∈ host.splitOn '.', LdhLabel label
  normalized : normalizeHostname host = host

/-- Two host texts that differ only in the case of ASCII letters, in dots at the end and in white
space around them. -/
inductive Respelling : Str → Str → Prop
  | case {h h' : Str} : toAsciiLowercase h = toAsciiLowercase h' → Respelling h h'
  | dot (h : Str) : Respelling h (h ++ ['.'])
  | spaceBefore (h : Str) {c : Char} : isWhitespace c = true → Respelling h (c :: h)
  | spaceAfter (h : Str) {c : Char} : isWhitespace c = true → Respelling h (h ++ [c])
  | symm {h h' : Str} : Respelling h h' → Respelling h' h
  | trans {h h' h'' : Str} : Respelling h h' → Respelling h' h'' → Respelling h h''

/-! ### Ports and literals -/

lemma parseU16_le {s : Str} {n : ℕ} (h : parseU16 s = some n) : n ≤ 2 ^ 16 - 1 := by
  simp only [parseU16, fromStrRadix] at h
  split at h
  · cases h
  · simpa using (Option.filter_eq_some_iff.mp h).2

lemma hostAndPort_port {raw host : Str} {port : ℕ} (h : hostAndPort raw = .ok (host, port)) :
    1 ≤ port ∧ port ≤ 65535 := by
  unfold hostAndPort at h
  dsimp only at h
  split at h
  · cases h
  · obtain ⟨⟨hostRaw, portStr⟩, -, h⟩ := except_bind_eq_ok.mp h
    dsimp only at h
    split at h
    · cases h
    · obtain ⟨n, hn, h⟩ := except_bind_eq_ok.mp h
      split at h
      · cases h
      · rename_i hzero
        cases h
        have hle : port ≤ 2 ^ 16 - 1 := by
          cases hparse : parseU16 portStr with
          | none =>
            rw [hparse] at hn
            cases hn
          | some m =>
            rw [hparse] at hn
            cases hn
            exact parseU16_le hparse
        omega

lemma ipCanonical_eq (ip : IpAddr) : ipCanonical ip = addrText (unmapped ip) := by
  cases ip with
  | v4 v4 => rfl
  | v6 v6 =>
    cases h : v6.toIpv4Mapped with
    | some v4 => simp only [ipCanonical, unmapped, addrText, h]
    | none => simp only [ipCanonical, unmapped, addrText, h]

/-! ### Keys -/

lemma colon_notMem_toDigits (n : ℕ) : ':' ∉ Nat.toDigits 10 n := by
  intro h
  exact absurd (Nat.isDigit_of_mem_toDigits (by decide) (by decide) h) (by decide)

lemma toDigits_inj {m n : ℕ} (h : Nat.toDigits 10 m = Nat.toDigits 10 n) : m = n := by
  rw [← Nat.ofDigitChars_ten_toDigits (n := m), h, Nat.ofDigitChars_ten_toDigits]

/-- The last separator tells the two parts of a text apart. -/
lemma append_cons_inj {c : Char} {s s' t t' : Str} (ht : c ∉ t) (ht' : c ∉ t') :
    s ++ c :: t = s' ++ c :: t' ↔ s = s' ∧ t = t' := by
  constructor
  · simp only [List.append_eq_append_iff, List.cons_eq_append_iff, List.cons_eq_cons]
    rintro (⟨u, rfl, ⟨rfl, -, rfl⟩ | ⟨v, rfl, rfl⟩⟩ | ⟨u, rfl, ⟨rfl, -, rfl⟩ | ⟨v, rfl, rfl⟩⟩) <;>
      simp_all
  · rintro ⟨rfl, rfl⟩
    rfl

lemma destKey_inj (r r' : Remote) :
    r.destKey = r'.destKey ↔ r.port = r'.port ∧ r.host = r'.host := by
  rw [Remote.destKey, Remote.destKey,
    append_cons_inj (colon_notMem_toDigits _) (colon_notMem_toDigits _)]
  constructor
  · rintro ⟨hhost, hport⟩
    exact ⟨toDigits_inj hport, hhost⟩
  · rintro ⟨hport, hhost⟩
    exact ⟨hhost, by rw [hport]⟩

/-! ### Hostnames -/

lemma isWhitespace_toLower (c : Char) : isWhitespace c.toLower = isWhitespace c := by
  have hlow := toLower_toNat c
  by_cases h : 65 ≤ c.toNat ∧ c.toNat ≤ 90
  · rw [if_pos h] at hlow
    rw [Bool.eq_iff_iff]
    simp only [isWhitespace, hlow, Bool.or_eq_true, Bool.and_eq_true, decide_eq_true_eq, beq_iff_eq]
    omega
  · rw [if_neg h] at hlow
    simp only [isWhitespace, hlow]

/-- The characters that a respelling adds at the end of a host. -/
def isDressing (c : Char) : Bool := isWhitespace c || c == '.'

/-- What all respellings of a host have in common. -/
def hostStem (host : Str) : Str :=
  trimEndWhile isDressing ((toAsciiLowercase host).dropWhile isWhitespace)

lemma isDressing_of_whitespace {c : Char} (hc : isWhitespace c = true) : isDressing c = true := by
  rw [isDressing, hc, Bool.true_or]

lemma toLower_of_dressing {c : Char} (hc : isDressing c = true) : c.toLower = c := by
  apply Char.toNat_inj.mp
  rw [toLower_toNat, if_neg]
  intro hrange
  rw [isDressing, Bool.or_eq_true, beq_iff_eq] at hc
  obtain hw | rfl := hc
  · simp only [isWhitespace, Bool.or_eq_true, Bool.and_eq_true, decide_eq_true_eq, beq_iff_eq] at hw
    omega
  · exact absurd hrange (by decide)

lemma hostStem_concat (host : Str) {c : Char} (hc : isDressing c = true) :
    hostStem (host ++ [c]) = hostStem host := by
  have hlow := toLower_of_dressing hc
  rw [hostStem, hostStem, toAsciiLowercase, toAsciiLowercase, List.map_append, List.dropWhile_append]
  split
  case isTrue hempty =>
    rw [List.isEmpty_iff.mp hempty]
    by_cases hw : isWhitespace c = true
    · simp [hlow, hw]
    · simp [hlow, hw, trimEndWhile, hc]
  case isFalse =>
    rw [List.map_singleton, hlow]
    exact trimEndWhile_concat_of_pos _ hc

lemma Respelling.hostStem_eq {h h' : Str} (hspell : Respelling h h') : hostStem h = hostStem h' := by
  induction hspell with
  | case hlow => rw [hostStem, hostStem, hlow]
  | dot h => exact (hostStem_concat h (by decide)).symm
  | spaceBefore h hc =>
    rw [hostStem, hostStem, toAsciiLowercase, toAsciiLowercase, List.map_cons,
      toLower_of_dressing (isDressing_of_whitespace hc), List.dropWhile_cons, if_pos hc]
  | spaceAfter h hc => exact (hostStem_concat h (isDressing_of_whitespace hc)).symm
  | symm _ ih => exact ih.symm
  | trans _ _ ih ih' => exact ih.trans ih'

lemma toAsciiLowercase_trimEndWhile {p : Char → Bool} (hp : ∀ c, p c.toLower = p c) (s : Str) :
    toAsciiLowercase (trimEndWhile p s) = trimEndWhile p (toAsciiLowercase s) := by
  have hcomp : p ∘ Char.toLower = p := funext hp
  simp only [toAsciiLowercase, trimEndWhile, ← List.map_reverse, List.dropWhile_map, hcomp]

lemma hostStem_eq_trim (host : Str) : hostStem host = trimEndWhile isDressing (normalizeHostname host) := by
  have hcomp : isWhitespace ∘ Char.toLower = isWhitespace := funext isWhitespace_toLower
  have hdot (c : Char) : (c.toLower == '.') = (c == '.') := by
    rw [Bool.eq_iff_iff, beq_iff_eq, beq_iff_eq]
    exact toLower_eq_iff (by decide) (by decide)
  rw [normalizeHostname, trimEndMatches, toAsciiLowercase_trimEndWhile hdot, trim,
    toAsciiLowercase_trimEndWhile isWhitespace_toLower,
    trimEndWhile_trimEndWhile (p := fun c => c == '.'),
    trimEndWhile_trimEndWhile (p := isWhitespace), hostStem, toAsciiLowercase, toAsciiLowercase,
    List.dropWhile_map, hcomp]
  · intro c hc
    exact isDressing_of_whitespace hc
  · intro c hc
    rw [isDressing, hc, Bool.or_true]

lemma mem_valid {host : Str} (h : isValidDnsHostname host) {c : Char} (hc : c ∈ host) :
    isAsciiAlphanumeric c ∨ c = '-' ∨ c = '.' := by
  by_cases hdot : c = '.'
  · exact .inr (.inr hdot)
  · obtain ⟨label, hlabel, hmem⟩ := mem_splitOn hc hdot
    obtain ⟨-, -, -, -, hlabels⟩ := (isValidDnsHostname_iff host).1 h
    obtain ⟨-, -, -, -, hchars⟩ := (isValidDnsLabel_iff label).1 (hlabels label hlabel)
    obtain halnum | hdash := hchars c hmem
    · exact .inl halnum
    · exact .inr (.inl hdash)

lemma getLast_valid {host : Str} (h : isValidDnsHostname host) : host.getLast? ≠ some '.' := by
  intro hlast
  obtain ⟨front, rfl⟩ : ∃ front, host = front ++ ['.'] := List.getLast?_eq_some_iff.mp hlast
  obtain ⟨-, -, -, -, hlabels⟩ := (isValidDnsHostname_iff _).1 h
  have hempty := hlabels [] (nil_mem_splitOn_concat '.' front)
  exact absurd hempty (by decide)

lemma whitespace_notMem_valid {host : Str} (h : isValidDnsHostname host) {c : Char} (hc : c ∈ host) :
    isWhitespace c = false := by
  obtain halnum | rfl | rfl := mem_valid h hc
  · exact isWhitespace_of_alphanumeric halnum
  · rfl
  · rfl

lemma normalizeHostname_eq_hostStem {host : Str} (h : isValidDnsHostname (normalizeHostname host)) :
    normalizeHostname host = hostStem host := by
  rw [hostStem_eq_trim]
  generalize normalizeHostname host = s at h
  cases s using List.reverseRecOn with
  | nil => rfl
  | append_singleton s c =>
    have hw := whitespace_notMem_valid h (show c ∈ s ++ [c] by simp)
    have hdot : c ≠ '.' := by simpa using getLast_valid h
    refine (trimEndWhile_concat s ?_).symm
    rw [isDressing, hw, Bool.false_or, beq_eq_false_iff_ne]
    exact hdot

lemma toAsciiLowercase_twice (s : Str) :
    toAsciiLowercase (toAsciiLowercase s) = toAsciiLowercase s := by
  rw [toAsciiLowercase, toAsciiLowercase, List.map_map]
  apply List.map_congr_left
  intro c _
  apply Char.toNat_inj.mp
  rw [Function.comp_apply, toLower_toNat c.toLower, toLower_toNat c]
  split_ifs <;> omega

lemma ldhLabel_of_valid {core label : Str} (h : isValidDnsLabel label)
    (hmem : label ∈ (toAsciiLowercase core).splitOn '.') : LdhLabel label := by
  obtain ⟨hne, hlen, hfirst, hlast, hchars⟩ := (isValidDnsLabel_iff label).1 h
  refine ⟨?_, hlen, ?_, ?_, ?_⟩
  · exact (List.length_pos_iff.mpr hne).trans_le (length_le_utf8Len label)
  · intro c hc
    obtain halnum | hdash := hchars c hc
    · have hlower : ¬(65 ≤ c.toNat ∧ c.toNat ≤ 90) := by
        rw [toAsciiLowercase, splitOn_map fun d => toLower_eq_iff (by decide) (by decide)] at hmem
        obtain ⟨part, -, rfl⟩ := List.mem_map.mp hmem
        obtain ⟨d, -, rfl⟩ := List.mem_map.mp hc
        rw [toLower_toNat]
        split <;> omega
      have := (isAsciiAlphanumeric_iff c).mp halnum
      omega
    · exact .inr (.inr hdash)
  · intro hdash
    rw [hdash] at hfirst
    exact absurd hfirst (by decide)
  · intro hdash
    rw [hdash] at hlast
    exact absurd hlast (by decide)

lemma canonicalHostname_of_valid {host : Str} (h : isValidDnsHostname (normalizeHostname host)) :
    CanonicalHostname (normalizeHostname host) := by
  obtain ⟨hne, hlen, -, -, hlabels⟩ := (isValidDnsHostname_iff _).1 h
  refine ⟨?_, hlen, ?_, ?_⟩
  · exact (List.length_pos_iff.mpr hne).trans_le (length_le_utf8Len _)
  · intro label hmem
    exact ldhLabel_of_valid (hlabels label hmem) hmem
  · have htrims := trims_eq_self (fun c hc => whitespace_notMem_valid h hc) (getLast_valid h)
    rw [normalizeHostname, htrims, normalizeHostname, toAsciiLowercase_twice]

/-! ### Accepted remotes -/

lemma literal_host {host : Str} {port : ℕ} {r : Remote} (hclass : classifyHost host port = .ok r)
    {ip : IpAddr} (hip : r.ipLiteral = some ip) : r.host = addrText (unmapped ip) := by
  obtain ⟨ip', rfl⟩ | ⟨rfl, -⟩ := classifyHost_cases hclass
  · cases hip
    exact ipCanonical_eq ip
  · cases hip

lemma hostname_host {host : Str} {port : ℕ} {r : Remote} (hclass : classifyHost host port = .ok r)
    (hnone : r.ipLiteral = none) :
    r.host = normalizeHostname host ∧ isValidDnsHostname (normalizeHostname host) := by
  obtain ⟨ip, rfl⟩ | ⟨rfl, -, -, hvalid⟩ := classifyHost_cases hclass
  · cases hnone
  · exact ⟨rfl, hvalid⟩

lemma classifyHost_port {host : Str} {port : ℕ} {r : Remote} (hclass : classifyHost host port = .ok r) :
    r.port = port := by
  obtain ⟨ip, rfl⟩ | ⟨rfl, -⟩ := classifyHost_cases hclass <;> rfl

/-- Hostnames that are respellings of each other are stored as one host. -/
lemma Respelling.host_eq {host host' : Str} {port port' : ℕ} {r r' : Remote}
    (hclass : classifyHost host port = .ok r) (hclass' : classifyHost host' port' = .ok r')
    (hnone : r.ipLiteral = none) (hnone' : r'.ipLiteral = none) (hspell : Respelling host host') :
    r.host = r'.host := by
  obtain ⟨hhost, hvalid⟩ := hostname_host hclass hnone
  obtain ⟨hhost', hvalid'⟩ := hostname_host hclass' hnone'
  rw [hhost, hhost', normalizeHostname_eq_hostStem hvalid, normalizeHostname_eq_hostStem hvalid',
    hspell.hostStem_eq]

end WsTcpProxy.Proofs
