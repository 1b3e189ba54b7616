import WsTcpProxy.Startup
import WsTcpProxy.Proofs.AddrDisplay
import WsTcpProxy.Proofs.AuthTokens

/-!
# Remotes and CIDRs read back

What `parseRemote` and `parseCidrs` make of the texts of their own results.
-/

namespace WsTcpProxy

/-- The text of a remote: `host:port`, with a host that contains colons in brackets. -/
def Remote.toText (r : Remote) : Str :=
  (if ':' ∈ r.host then '[' :: (r.host ++ [']']) else r.host) ++ ':' :: Nat.toDigits 10 r.port

def Cidr.toText (cidr : Cidr) : Str :=
  Proofs.addrText cidr.addr ++ '/' :: Nat.toDigits 10 cidr.bits

end WsTcpProxy

namespace WsTcpProxy.Proofs

/-! ### Numbers and addresses -/

section Texts

lemma fromStrRadix_toDigits {n max : Nat} (hn : n ≤ max) :
    fromStrRadix 10 max (Nat.toDigits 10 n) = some n := by
  rw [fromStrRadix_digits (by decide) Nat.toDigits_ne_nil
    (fun _ => toDigits_digits (by decide) (by decide) n), digitsFrom_toDigits (by decide) (by decide)]
  simpa using hn

/-- The characters of an address. -/
def isAddrChar (c : Char) : Bool := (toDigit 16 c).isSome || c == ':' || c == '.'

lemma digits_addrChar {radix n : Nat} (hone : 1 < radix) (hradix : radix ≤ 16) {c : Char}
    (hc : c ∈ Nat.toDigits radix n) : isAddrChar c = true := by
  have hdigit := toDigits_digits hone hradix n hc
  have hhex : (toDigit 16 c).isSome := by
    rw [toDigit_isSome_iff hradix] at hdigit
    rw [toDigit_isSome_iff le_rfl]
    omega
  simp [isAddrChar, hhex]

lemma ipv4_addrChar (v4 : Ipv4Addr) {c : Char} (hc : c ∈ v4.toText) : isAddrChar c = true := by
  simp only [Ipv4Addr.toText, List.mem_append, List.mem_cons] at hc
  have hdot : isAddrChar '.' = true := rfl
  obtain ((hc | rfl | hc) | rfl | hc) | rfl | hc := hc <;>
    first | exact hdot | exact digits_addrChar (by decide) (by decide) hc

lemma segmentsText_addrChar (segments : List (BitVec 16)) {c : Char}
    (hc : c ∈ segmentsText segments) : isAddrChar c = true := by
  cases segments with
  | nil => simp [segmentsText] at hc
  | cons segment segments =>
    rw [segmentsText_cons, List.mem_append] at hc
    obtain hc | hc := hc
    · exact digits_addrChar (by decide) (by decide) hc
    · obtain ⟨next, -, hc⟩ := List.mem_flatMap.1 hc
      obtain rfl | hc := List.mem_cons.1 hc
      · rfl
      · exact digits_addrChar (by decide) (by decide) hc

lemma addrText_addrChar (ip : IpAddr) {c : Char} (hc : c ∈ addrText ip) : isAddrChar c = true := by
  cases ip with
  | v4 v4 => exact ipv4_addrChar v4 hc
  | v6 v6 =>
    have hcolons : ∀ c ∈ "::ffff:".toList, isAddrChar c = true := List.all_eq_true.mp rfl
    change c ∈ v6.toText at hc
    unfold Ipv6Addr.toText at hc
    split at hc
    · obtain hc | hc := List.mem_append.1 hc
      · exact hcolons c hc
      · exact ipv4_addrChar _ hc
    · dsimp only at hc
      split at hc
      · simp only [List.mem_append] at hc
        obtain (hc | hc) | hc := hc
        · exact segmentsText_addrChar _ hc
        · exact hcolons c (List.mem_of_mem_take (show c ∈ "::ffff:".toList.take 2 from hc))
        · exact segmentsText_addrChar _ hc
      · exact segmentsText_addrChar _ hc

lemma addrText_ne_nil (ip : IpAddr) : addrText ip ≠ [] := by
  intro hnil
  have hparse := parseIpAddr_addrText ip
  rw [hnil] at hparse
  cases hparse

lemma isWhitespace_addrChar {c : Char} (hc : isAddrChar c = true) : isWhitespace c = false := by
  rw [isAddrChar, Bool.or_eq_true, Bool.or_eq_true, beq_iff_eq, beq_iff_eq] at hc
  obtain (hhex | rfl) | rfl := hc
  · apply isWhitespace_of_alphanumeric
    rw [isAsciiAlphanumeric_iff]
    have := (toDigit_isSome_iff le_rfl c).1 hhex
    omega
  · rfl
  · rfl

end Texts

/-! ### Remotes -/

section Remotes

lemma splitOnce_append {c : Char} {s t : Str} (hs : c ∉ s) : splitOnce c (s ++ c :: t) = some (s, t) := by
  induction s with
  | nil => simp [splitOnce]
  | cons d s ih =>
    rw [List.mem_cons, not_or] at hs
    rw [List.cons_append, splitOnce, if_neg (Ne.symm hs.1), ih hs.2]
    rfl

lemma rsplitOnce_append {c : Char} {s t : Str} (ht : c ∉ t) :
    rsplitOnce c (s ++ c :: t) = some (s, t) := by
  have hreverse : (s ++ c :: t).reverse = t.reverse ++ c :: s.reverse := by simp
  rw [rsplitOnce, hreverse, splitOnce_append (by simpa using ht)]
  simp

lemma bracket_notMem_addrText (ip : IpAddr) : '[' ∉ addrText ip ∧ ']' ∉ addrText ip := by
  constructor
  · intro h
    exact absurd (addrText_addrChar ip h) (by decide)
  · intro h
    exact absurd (addrText_addrChar ip h) (by decide)

lemma isWhitespace_toText {r : Remote} (hspace : ∀ c ∈ r.host, isWhitespace c = false) {c : Char}
    (hc : c ∈ r.toText) : isWhitespace c = false := by
  rw [Remote.toText, List.mem_append, List.mem_cons] at hc
  obtain hc | rfl | hc := hc
  · split at hc
    · simp only [List.mem_cons, List.mem_append, List.not_mem_nil, or_false] at hc
      obtain rfl | hc | rfl := hc
      · rfl
      · exact hspace c hc
      · rfl
    · exact hspace c hc
  · rfl
  · exact isWhitespace_addrChar (digits_addrChar (by decide) (by decide) hc)

lemma splitRemote_toText {r : Remote} (hne : r.host ≠ []) (hopen : '[' ∉ r.host)
    (hclose : ']' ∉ r.host) : splitRemote r.toText = .ok (r.host, Nat.toDigits 10 r.port) := by
  obtain ⟨c, host, hhost⟩ := List.exists_cons_of_ne_nil hne
  unfold splitRemote Remote.toText
  by_cases hcolon : ':' ∈ r.host
  · have hrest : stripPrefix ['['] ('[' :: (r.host ++ [']']) ++ ':' :: Nat.toDigits 10 r.port) =
        some (r.host ++ ']' :: ':' :: Nat.toDigits 10 r.port) := by
      simp [stripPrefix]
    rw [if_pos hcolon, hrest]
    dsimp only
    rw [splitOnce_append hclose]
    rfl
  · have hc : '[' ≠ c := by
      rintro rfl
      exact hopen (hhost ▸ List.mem_cons_self)
    have hrest : stripPrefix ['['] (r.host ++ ':' :: Nat.toDigits 10 r.port) = none := by
      rw [hhost, List.cons_append, stripPrefix, if_neg hc]
    have hguard : (r.host.isEmpty || r.host.contains ':') = false := by
      rw [Bool.or_eq_false_iff, List.isEmpty_eq_false_iff, List.contains_eq_mem, decide_eq_false_iff_not]
      exact ⟨hne, hcolon⟩
    rw [if_neg hcolon, hrest]
    dsimp only
    rw [rsplitOnce_append (colon_notMem_toDigits r.port)]
    change (if (r.host.isEmpty || r.host.contains ':') = true then _ else _) = _
    rw [hguard]
    rfl

/-- The host and the port of a remote are read back from its text. -/
lemma hostAndPort_toText {r : Remote} (hne : r.host ≠ []) (hport : 1 ≤ r.port ∧ r.port ≤ 65535)
    (hspace : ∀ c ∈ r.host, isWhitespace c = false) (hopen : '[' ∉ r.host) (hclose : ']' ∉ r.host) :
    hostAndPort r.toText = .ok (r.host, r.port) := by
  have hread : parseU16 (Nat.toDigits 10 r.port) = some r.port := fromStrRadix_toDigits (by omega)
  have htrim : trim r.toText = r.toText :=
    trim_eq_self (fun c hc => isWhitespace_toText hspace (List.mem_of_mem_head? hc))
      (fun c hc => isWhitespace_toText hspace (List.mem_of_getLast? hc))
  have htext : r.toText.isEmpty = false := by
    rw [List.isEmpty_eq_false_iff, Remote.toText]
    exact List.append_ne_nil_of_right_ne_nil _ (List.cons_ne_nil _ _)
  have hhost : r.host.isEmpty = false := List.isEmpty_eq_false_iff.mpr hne
  have hzero : r.port ≠ 0 := by omega
  unfold hostAndPort
  dsimp only
  rw [htrim, splitRemote_toText hne hopen hclose]
  simp only [htext, hhost, Bool.false_eq_true, if_false, bind, Except.bind, pure, Except.pure, hread, okOr,
    hzero]

lemma unmapped_unmapped (ip : IpAddr) : unmapped (unmapped ip) = unmapped ip := by
  cases ip with
  | v4 v4 => rfl
  | v6 v6 =>
    cases h : v6.toIpv4Mapped with
    | some v4 => simp [unmapped, h]
    | none => simp [unmapped, h]

/-- A hostname that the standard parser reads is read by the loose one as well. -/
lemma parseIpAddr_of_valid {host : Str} (hvalid : isValidDnsHostname host)
    (hloose : parseLooseIpv4 host = none) : parseIpAddr host = none := by
  rw [← Option.not_isSome_iff_eq_none]
  intro hip
  obtain ⟨haddr, hlen⟩ | hcolon := parseIpAddr_cases hip
  · rw [parseLooseIpv4_eq, if_pos (by omega), Option.map_eq_none_iff] at hloose
    rw [hloose] at haddr
    cases haddr
  · exact colon_notMem_of_valid hvalid hcolon

lemma bracket_notMem_valid {host : Str} (hvalid : isValidDnsHostname host) : '[' ∉ host ∧ ']' ∉ host := by
  constructor
  · intro h
    exact absurd (mem_valid hvalid h) (by decide)
  · intro h
    exact absurd (mem_valid hvalid h) (by decide)

/-- Every accepted remote is read back from its own text, save a hostname that reads as an
`inet_aton` address. -/
theorem remote_text_stable_iff (raw : Str) (r : Remote) (h : parseRemote raw = .ok r) :
    parseRemote r.toText = .ok { r with ipLiteral := r.ipLiteral.map unmapped } ↔
      (r.ipLiteral = none → parseLooseIpv4 r.host = none) := by
  obtain ⟨hostRaw, port, hsplit, hclass⟩ := parseRemote_ok.mp h
  have hport := hostAndPort_port hsplit
  obtain ⟨ip, rfl⟩ | ⟨rfl, -, -, hvalid⟩ := classifyHost_cases hclass
  · have hhost : ipCanonical ip = addrText (unmapped ip) := ipCanonical_eq ip
    have hbracket := bracket_notMem_addrText (unmapped ip)
    refine iff_of_true ?_ (fun hnone => by cases hnone)
    rw [parseRemote_ok]
    refine ⟨ipCanonical ip, port, hostAndPort_toText ?_ hport ?_ ?_ ?_, ?_⟩
    · exact hhost ▸ addrText_ne_nil _
    · intro c hc
      exact isWhitespace_addrChar (addrText_addrChar (unmapped ip) (hhost ▸ hc))
    · exact hhost ▸ hbracket.1
    · exact hhost ▸ hbracket.2
    · rw [hhost, classifyHost, parseIpAddr_addrText]
      dsimp only [Option.map_some]
      rw [ipCanonical_eq, unmapped_unmapped]
  · set host := normalizeHostname hostRaw
    have hcanonical := canonicalHostname_of_valid hvalid
    have hbracket := bracket_notMem_valid hvalid
    have hne : host ≠ [] := ((isValidDnsHostname_iff host).1 hvalid).1
    have hread : hostAndPort (Remote.toText ⟨host, port, none⟩) = .ok (host, port) :=
      hostAndPort_toText hne hport (fun c hc => whitespace_notMem_valid hvalid hc) hbracket.1 hbracket.2
    have hparse : parseRemote (Remote.toText ⟨host, port, none⟩) = classifyHost host port := by
      rw [parseRemote, hread]
      rfl
    rw [hparse]
    constructor
    · intro hok _
      obtain ⟨ip, hip⟩ | ⟨-, -, hloose, -⟩ := classifyHost_cases hok
      · cases congrArg Remote.ipLiteral hip
      · exact hloose
    · intro hloose
      have hnone := hloose rfl
      rw [classifyHost, parseIpAddr_of_valid hvalid hnone]
      dsimp only
      rw [hnone]
      dsimp only [Option.map_none]
      rw [hcanonical.normalized, if_pos hvalid]

theorem remote_text_stable_iff_literal :
    ∃ r, parseRemote " [::ffff:10.0.0.1]:993".toList = .ok r ∧
      parseRemote r.toText = .ok { r with ipLiteral := r.ipLiteral.map unmapped } := by
  have hraw : parseRemote " [::ffff:10.0.0.1]:993".toList =
      .ok ⟨"10.0.0.1".toList, 993, some (.v6 0xffff0a000001)⟩ := by decide +kernel
  exact ⟨_, hraw, (remote_text_stable_iff _ _ hraw).mpr (fun hnone => by cases hnone)⟩

end Remotes

/-! ### CIDRs -/

section Cidrs

/-- The bits of an address. -/
def addrBits : IpAddr → ℕ
  | .v4 _ => 32
  | .v6 _ => 128

lemma cidr_parse_bits {raw : Str} {cidr : Cidr} (h : Cidr.parse raw = some cidr) :
    cidr.bits ≤ addrBits cidr.addr := by
  unfold Cidr.parse at h
  dsimp only at h
  split at h
  · simp only [Option.bind_eq_bind, Option.bind_eq_some_iff] at h
    obtain ⟨addr, -, bits, -, h⟩ := h
    by_cases hbits : addrBits addr < bits
    · cases addr <;> cases (if_pos hbits).symm.trans h
    · cases addr <;> cases (if_neg hbits).symm.trans h <;> exact not_lt.mp hbits
  · simp only [Option.bind_eq_bind, Option.bind_eq_some_iff] at h
    obtain ⟨addr, -, h⟩ := h
    cases h
    cases addr <;> exact le_rfl

lemma cidr_chars {cidr : Cidr} {c : Char} (hc : c ∈ cidr.toText) : isAddrChar c = true ∨ c = '/' := by
  rw [Cidr.toText, List.mem_append, List.mem_cons] at hc
  obtain hc | rfl | hc := hc
  · exact .inl (addrText_addrChar _ hc)
  · exact .inr rfl
  · exact .inl (digits_addrChar (by decide) (by decide) hc)

lemma cidr_parse_toText {cidr : Cidr} (h : cidr.bits ≤ addrBits cidr.addr) :
    Cidr.parse cidr.toText = some cidr := by
  have hspace : ∀ c ∈ cidr.toText, isWhitespace c = false := by
    intro c hc
    obtain hc | rfl := cidr_chars hc
    · exact isWhitespace_addrChar hc
    · rfl
  have htrim : trim cidr.toText = cidr.toText :=
    trim_eq_self (fun c hc => hspace c (List.mem_of_mem_head? hc))
      (fun c hc => hspace c (List.mem_of_getLast? hc))
  have hslash : '/' ∉ addrText cidr.addr := by
    intro hc
    exact absurd (addrText_addrChar _ hc) (by decide)
  have hbits : parseU8 (Nat.toDigits 10 cidr.bits) = some cidr.bits := by
    apply fromStrRadix_toDigits
    have hle : addrBits cidr.addr ≤ 128 := by cases cidr.addr <;> simp [addrBits]
    omega
  rw [Cidr.parse]
  dsimp only
  rw [htrim, Cidr.toText, splitOnce_append hslash]
  dsimp only
  rw [parseIpAddr_addrText, hbits]
  obtain ⟨addr, bits⟩ := cidr
  cases addr <;> exact if_neg (not_lt.mpr h)

lemma comma_notMem_toText (cidr : Cidr) : ',' ∉ cidr.toText := by
  intro hc
  exact absurd (cidr_chars hc) (by decide)

lemma splitOn_intercalate {c : Char} {part : Str} {parts : List Str}
    (h : ∀ s ∈ part :: parts, c ∉ s) : ([c].intercalate (part :: parts)).splitOn c = part :: parts := by
  induction parts generalizing part with
  | nil =>
    rw [List.intercalate_singleton]
    exact List.splitOn_eq_singleton (h part List.mem_cons_self)
  | cons next parts ih =>
    rw [List.intercalate_cons_cons, List.append_assoc, List.singleton_append,
      List.splitOn_append_cons_self_of_not_mem (h part List.mem_cons_self),
      ih fun s hs => h s (List.mem_cons_of_mem _ hs)]

/-- A list of trusted proxies is read back from its text exactly if every prefix length fits its
address. -/
theorem cidrs_text_stable_iff (cidrs : List Cidr) :
    parseCidrs ([','].intercalate (cidrs.map Cidr.toText)) = cidrs ↔
      ∀ cidr ∈ cidrs, cidr.bits ≤ addrBits cidr.addr := by
  constructor
  · intro h cidr hcidr
    rw [← h, parseCidrs, List.mem_filterMap] at hcidr
    obtain ⟨part, -, hpart⟩ := hcidr
    exact cidr_parse_bits hpart
  · intro h
    cases cidrs with
    | nil => rfl
    | cons cidr cidrs =>
      have hcomma : ∀ s ∈ cidr.toText :: cidrs.map Cidr.toText, ',' ∉ s := by
        intro s hs
        obtain ⟨cidr', -, rfl⟩ := List.mem_map.1 (show s ∈ (cidr :: cidrs).map Cidr.toText from hs)
        exact comma_notMem_toText cidr'
      rw [List.map_cons, parseCidrs, splitOn_intercalate hcomma, ← List.map_cons, List.filterMap_map]
      calc (cidr :: cidrs).filterMap (Cidr.parse ∘ Cidr.toText)
          = (cidr :: cidrs).filterMap some :=
            List.filterMap_congr fun cidr' hmem => cidr_parse_toText (h cidr' hmem)
        _ = cidr :: cidrs := List.filterMap_some

end Cidrs

end WsTcpProxy.Proofs
