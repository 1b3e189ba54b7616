import WsTcpProxy.Proofs.AddrDisplay
import WsTcpProxy.Proofs.DestKeys

/-!
# Spellings of one destination

Whether all accepted texts of one destination share a key, and with it one budget.
-/

namespace WsTcpProxy.Proofs

/-- The address that a host text denotes without a name lookup. -/
def hostAddr (host : Str) : Option IpAddr :=
  match parseIpAddr host with
  | some ip => some (unmapped ip)
  | none => (inetAton (hostCore host)).map fun addr => .v4 (.ofNat 32 addr)

/-- Two host texts for one destination: of one address, or of one name. -/
def HostsAgree (host host' : Str) : Prop :=
  (∃ ip, hostAddr host = some ip ∧ hostAddr host' = some ip) ∨
    hostAddr host = none ∧ hostAddr host' = none ∧ Respelling host host'

def SameDestination (raw raw' : Str) : Prop :=
  ∃ host host' port, hostAndPort raw = .ok (host, port) ∧ hostAndPort raw' = .ok (host', port) ∧
    HostsAgree host host'

/-- What the keys of two accepted remotes promise. -/
structure CanonicalKeys (raw raw' : Str) (r r' : Remote) : Prop where
  ports : 1 ≤ r.port ∧ r.port ≤ 65535
  literal : ∀ ip, r.ipLiteral = some ip →
    r.host = addrText (unmapped ip) ∧ parseIpAddr r.host = some (unmapped ip)
  hostname : r.ipLiteral = none → CanonicalHostname r.host
  injective : r.destKey = r'.destKey ↔ r.port = r'.port ∧ r.host = r'.host
  literals : ∀ ip ip', r.ipLiteral = some ip → r'.ipLiteral = some ip' → unmapped ip = unmapped ip' →
    r.host = r'.host
  hostnames : ∀ host host' port port', hostAndPort raw = .ok (host, port) →
    hostAndPort raw' = .ok (host', port') → r.ipLiteral = none → r'.ipLiteral = none →
    Respelling host host' → r.host = r'.host
  oneBudget : SameDestination raw raw' → r.destKey = r'.destKey

/-- If the host is a disguised address, then it disguises the standard text of an address. -/
def PlainCore (host : Str) : Prop :=
  DisguisedAddress host → ∃ v4 : Ipv4Addr, hostCore host = v4.toText

/-- No disguise changes the text under which the two hosts are kept: what stands in it is the
standard text, or both disguise one text. -/
def HarmlessDisguise (host host' : Str) : Prop :=
  (PlainCore host ∧ PlainCore host') ∨
    (DisguisedAddress host ∧ DisguisedAddress host' ∧
      toAsciiLowercase (hostCore host) = toAsciiLowercase (hostCore host'))

/-! ### The text that is kept -/

lemma inetAton_toText (v4 : Ipv4Addr) : (inetAton v4.toText).map (BitVec.ofNat 32) = some v4 :=
  (inetAton_of_ipv4 (readIpv4Addr_of_parse (parseIpAddr_addrText (.v4 v4)))).1

/-- Lower case leaves the digits and dots of an IPv4 address as they are. -/
lemma toLower_eq_ipv4Char {v4 : Ipv4Addr} {d : Char} (hd : d ∈ v4.toText) (c : Char) :
    c.toLower = d ↔ c = d := by
  have hcase : d = '.' ∨ (48 ≤ d.toNat ∧ d.toNat ≤ 57) := by
    simp only [Ipv4Addr.toText, List.mem_append, List.mem_cons] at hd
    have hdigit {n : ℕ} (h : d ∈ Nat.toDigits 10 n) : 48 ≤ d.toNat ∧ d.toNat ≤ 57 := by
      have := toDigits_digits (by decide) (by decide) n h
      rw [toDigit_isSome_iff (by decide)] at this
      omega
    obtain ((hd | rfl | hd) | rfl | hd) | rfl | hd := hd <;>
      first | exact .inl rfl | exact .inr (hdigit hd)
  obtain rfl | hdigit := hcase
  · exact toLower_eq_iff (by decide) (by decide)
  · exact toLower_eq_iff (by omega) (by omega)

lemma toAsciiLowercase_eq_toText {s : Str} {v4 : Ipv4Addr} :
    toAsciiLowercase s = v4.toText ↔ s = v4.toText := by
  have hchars (d : Char) (hd : d ∈ v4.toText) := toLower_eq_ipv4Char hd
  generalize v4.toText = text at hchars
  induction s generalizing text with
  | nil => rfl
  | cons c s ih =>
    cases text with
    | nil => simp [toAsciiLowercase]
    | cons d text =>
      rw [toAsciiLowercase, List.map_cons, List.cons.injEq, List.cons.injEq,
        hchars d List.mem_cons_self c]
      apply and_congr_right
      intro _
      exact ih text fun e he => hchars e (List.mem_cons_of_mem d he)

lemma disguised_host {host : Str} (h : DisguisedAddress host) {port : ℕ} {r : Remote}
    (hclass : classifyHost host port = .ok r) : r.host = toAsciiLowercase (hostCore host) := by
  obtain ⟨hip, hloose⟩ := disguised_no_literal h
  simp only [classifyHost, hip, hloose] at hclass
  split at hclass
  · cases hclass
    rfl
  · cases hclass

lemma disguised_hostAddr {host : Str} (h : DisguisedAddress host) :
    ∃ v4, hostAddr host = some (.v4 v4) ∧
      (inetAton (hostCore host)).map (BitVec.ofNat 32) = some v4 := by
  obtain ⟨addr, haddr⟩ := Option.isSome_iff_exists.mp h.1
  exact ⟨.ofNat 32 addr, by rw [hostAddr, (disguised_no_literal h).1, haddr]; rfl, by rw [haddr]; rfl⟩

lemma inetAton_of_loose {host : Str} {v4 : Ipv4Addr} (h : parseLooseIpv4 host = some v4) :
    (inetAton (hostCore host)).map (BitVec.ofNat 32) = some v4 := by
  rw [parseLooseIpv4_eq] at h
  split at h
  · obtain ⟨addr, haddr, rfl⟩ := Option.map_eq_some_iff.mp h
    have hcore : hostCore host = host := inetAton_trims (by rw [haddr]; rfl)
    rw [hcore, haddr]
    rfl
  · cases h

/-- Any other host that denotes an address is kept as the standard text of the address. -/
lemma host_eq_of_hostAddr {host : Str} (hplain : ¬DisguisedAddress host) {port : ℕ} {r : Remote}
    (hclass : classifyHost host port = .ok r) {ip : IpAddr} (hip : hostAddr host = some ip) :
    r.host = addrText ip := by
  unfold classifyHost at hclass
  cases hparse : parseIpAddr host with
  | some ip' =>
    rw [hostAddr, hparse] at hip
    rw [hparse] at hclass
    cases hip
    cases hclass
    exact ipCanonical_eq ip'
  | none =>
    rw [hostAddr, hparse] at hip
    rw [hparse] at hclass
    obtain ⟨addr, haddr, rfl⟩ := Option.map_eq_some_iff.mp hip
    cases hloose : parseLooseIpv4 host with
    | some v4 =>
      have hv4 := inetAton_of_loose hloose
      rw [haddr] at hv4
      rw [hloose] at hclass
      cases hv4
      cases hclass
      rfl
    | none =>
      -- a numeric text that both tests miss is a hostname only in disguise
      rw [hloose] at hclass
      dsimp only at hclass
      split at hclass
      case isTrue hvalid =>
        refine absurd (disguised_of_missed hloose hvalid ?_) hplain
        rw [numericHost_iff_inetAton hvalid, inetAton_normalizeHostname, haddr]
        rfl
      case isFalse => cases hclass

lemma no_literal_of_hostAddr {host : Str} {port : ℕ} {r : Remote}
    (hclass : classifyHost host port = .ok r) (hnone : hostAddr host = none) :
    r.ipLiteral = none := by
  unfold classifyHost at hclass
  cases hparse : parseIpAddr host with
  | some ip =>
    rw [hostAddr, hparse] at hnone
    cases hnone
  | none =>
    rw [hostAddr, hparse] at hnone
    rw [hparse] at hclass
    cases hloose : parseLooseIpv4 host with
    | some v4 =>
      have hv4 := inetAton_of_loose hloose
      rw [Option.map_eq_none_iff.mp hnone] at hv4
      cases hv4
    | none =>
      rw [hloose] at hclass
      dsimp only at hclass
      split at hclass
      · cases hclass
        rfl
      · cases hclass

/-! ### Keys of one destination -/

lemma plainCore_iff {host : Str} (h : DisguisedAddress host) {ip : IpAddr}
    (hip : hostAddr host = some ip) :
    PlainCore host ↔ toAsciiLowercase (hostCore host) = addrText ip := by
  obtain ⟨v4, haddr, hread⟩ := disguised_hostAddr h
  cases hip.symm.trans haddr
  change PlainCore host ↔ toAsciiLowercase (hostCore host) = v4.toText
  rw [toAsciiLowercase_eq_toText]
  constructor
  · intro hplain
    obtain ⟨v4', hcore⟩ := hplain h
    rw [hcore, inetAton_toText] at hread
    cases hread
    exact hcore
  · exact fun hcore _ => ⟨v4, hcore⟩

lemma plainCore_of_not_disguised {host : Str} (h : ¬DisguisedAddress host) : PlainCore host :=
  fun hd => absurd hd h

/-- Two hosts of one address are kept as one text exactly if no disguise does harm. -/
lemma host_eq_iff_harmless {host host' : Str} {port port' : ℕ} {r r' : Remote}
    (hclass : classifyHost host port = .ok r) (hclass' : classifyHost host' port' = .ok r') {ip : IpAddr}
    (hip : hostAddr host = some ip) (hip' : hostAddr host' = some ip) :
    r.host = r'.host ↔ HarmlessDisguise host host' := by
  unfold HarmlessDisguise
  by_cases hd : DisguisedAddress host <;> by_cases hd' : DisguisedAddress host'
  · rw [disguised_host hd hclass, disguised_host hd' hclass', plainCore_iff hd hip, plainCore_iff hd' hip']
    constructor
    · exact fun h => .inr ⟨hd, hd', h⟩
    · rintro (⟨h, h'⟩ | ⟨-, -, h⟩)
      · exact h.trans h'.symm
      · exact h
  · have hplain' := plainCore_of_not_disguised hd'
    rw [disguised_host hd hclass, host_eq_of_hostAddr hd' hclass' hip', plainCore_iff hd hip]
    simp only [hplain', hd', and_true, false_and, and_false, or_false]
  · have hplain := plainCore_of_not_disguised hd
    rw [host_eq_of_hostAddr hd hclass hip, disguised_host hd' hclass', plainCore_iff hd' hip', eq_comm]
    simp only [hplain, hd, true_and, false_and, or_false]
  · rw [host_eq_of_hostAddr hd hclass hip, host_eq_of_hostAddr hd' hclass' hip']
    exact iff_of_true rfl (.inl ⟨plainCore_of_not_disguised hd, plainCore_of_not_disguised hd'⟩)

/-- Two accepted remotes have canonical keys exactly if no disguise of an address gives one
destination two texts. -/
theorem dest_keys_canonical_iff (raw raw' : Str) (r r' : Remote) (hraw : parseRemote raw = .ok r)
    (hraw' : parseRemote raw' = .ok r') :
    CanonicalKeys raw raw' r r' ↔
      ∀ host host' port ip, hostAndPort raw = .ok (host, port) → hostAndPort raw' = .ok (host', port) →
        hostAddr host = some ip → hostAddr host' = some ip → HarmlessDisguise host host' := by
  obtain ⟨host, port, hsplit, hclass⟩ := parseRemote_ok.mp hraw
  obtain ⟨host', port', hsplit', hclass'⟩ := parseRemote_ok.mp hraw'
  constructor
  · intro hkeys h h' p ip hs hs' hip hip'
    cases hsplit.symm.trans hs
    cases hsplit'.symm.trans hs'
    have hkey := hkeys.oneBudget ⟨host, host', port, hs, hs', .inl ⟨ip, hip, hip'⟩⟩
    rw [destKey_inj] at hkey
    exact (host_eq_iff_harmless hclass hclass' hip hip').mp hkey.2
  · intro hharmless
    constructor
    case ports =>
      rw [classifyHost_port hclass]
      exact hostAndPort_port hsplit
    case literal =>
      intro ip hip
      have htext := literal_host hclass hip
      exact ⟨htext, by rw [htext, parseIpAddr_addrText]⟩
    case hostname =>
      intro hnone
      obtain ⟨hhost, hvalid⟩ := hostname_host hclass hnone
      rw [hhost]
      exact canonicalHostname_of_valid hvalid
    case injective => exact destKey_inj r r'
    case literals =>
      intro ip ip' hip hip' hsame
      rw [literal_host hclass hip, literal_host hclass' hip', hsame]
    case hostnames =>
      intro h h' p p' hs hs' hnone hnone' hspell
      cases hsplit.symm.trans hs
      cases hsplit'.symm.trans hs'
      exact hspell.host_eq hclass hclass' hnone hnone'
    case oneBudget =>
      rintro ⟨h, h', p, hs, hs', hsame⟩
      cases hsplit.symm.trans hs
      cases hsplit'.symm.trans hs'
      rw [destKey_inj, classifyHost_port hclass, classifyHost_port hclass']
      refine ⟨rfl, ?_⟩
      obtain ⟨ip, hip, hip'⟩ | ⟨hnone, hnone', hspell⟩ := hsame
      · exact (host_eq_iff_harmless hclass hclass' hip hip').mpr (hharmless _ _ _ ip hs hs' hip hip')
      · exact hspell.host_eq hclass hclass' (no_literal_of_hostAddr hclass hnone)
          (no_literal_of_hostAddr hclass' hnone')

/-- `8.8.8.8.` is a disguised address, but under the text that `0x08080808` is kept under. -/
theorem dest_keys_canonical_dotted :
    ∃ r r', parseRemote "0x08080808:993".toList = .ok r ∧ parseRemote "8.8.8.8.:993".toList = .ok r' ∧
      DisguisedAddress "8.8.8.8.".toList ∧
      CanonicalKeys "0x08080808:993".toList "8.8.8.8.:993".toList r r' := by
  have hraw : parseRemote "0x08080808:993".toList =
      .ok ⟨"8.8.8.8".toList, 993, some (.v4 0x08080808)⟩ := by decide +kernel
  have hraw' : parseRemote "8.8.8.8.:993".toList = .ok ⟨"8.8.8.8".toList, 993, none⟩ := by
    decide +kernel
  have hsplit : hostAndPort "0x08080808:993".toList = .ok ("0x08080808".toList, 993) := by
    decide +kernel
  have hsplit' : hostAndPort "8.8.8.8.:993".toList = .ok ("8.8.8.8.".toList, 993) := by
    decide +kernel
  refine ⟨_, _, hraw, hraw', by decide +kernel, (dest_keys_canonical_iff _ _ _ _ hraw hraw').mpr ?_⟩
  intro host host' port ip hs hs' _ _
  cases hsplit.symm.trans hs
  cases hsplit'.symm.trans hs'
  refine .inl ⟨plainCore_of_not_disguised (by decide +kernel), fun _ => ⟨0x08080808, ?_⟩⟩
  decide +kernel

/-- `134744072` and `134744072.` are one address under two keys. -/
theorem respelled_address_fresh_key :
    ∃ r r', parseRemote "134744072:993".toList = .ok r ∧
      parseRemote "134744072.:993".toList = .ok r' ∧
      r.destKey = "8.8.8.8:993".toList ∧ r'.destKey = "134744072:993".toList ∧
      ¬CanonicalKeys "134744072:993".toList "134744072.:993".toList r r' := by
  have hraw : parseRemote "134744072:993".toList =
      .ok ⟨"8.8.8.8".toList, 993, some (.v4 0x08080808)⟩ := by decide +kernel
  have hraw' : parseRemote "134744072.:993".toList = .ok ⟨"134744072".toList, 993, none⟩ := by
    decide +kernel
  refine ⟨_, _, hraw, hraw', by decide +kernel, by decide +kernel, fun hkeys => ?_⟩
  have hsame : SameDestination "134744072:993".toList "134744072.:993".toList :=
    ⟨"134744072".toList, "134744072.".toList, 993, by decide +kernel, by decide +kernel,
      .inl ⟨.v4 0x08080808, by decide +kernel, by decide +kernel⟩⟩
  exact absurd (hkeys.oneBudget hsame) (by decide +kernel)

end WsTcpProxy.Proofs
