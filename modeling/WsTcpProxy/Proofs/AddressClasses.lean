import WsTcpProxy.Proofs.AddressNumbers

/-!
# Address classes

Which addresses `isGlobalUnicast` accepts, as sets of numbers.
-/

namespace WsTcpProxy.Proofs
open Library

/-! ### IPv4 -/

/-- The blocks that are not global: 0/8, 10/8, 100.64/10, 127/8, 169.254/16, 172.16/12,
192.0.0/24, 192.0.2/24, 192.168/16, 198.18/15, 198.51.100/24, 203.0.113/24, 224/4, 240/4. -/
def nonGlobalV4 : List (Ipv4Addr × ℕ) :=
  [(.new 0 0 0 0, 8), (.new 10 0 0 0, 8), (.new 100 64 0 0, 10), (.new 127 0 0 0, 8),
    (.new 169 254 0 0, 16), (.new 172 16 0 0, 12), (.new 192 0 0 0, 24), (.new 192 0 2 0, 24),
    (.new 192 168 0 0, 16), (.new 198 18 0 0, 15), (.new 198 51 100 0, 24),
    (.new 203 0 113 0, 24), (.new 224 0 0 0, 4), (.new 240 0 0 0, 4)]

section V4
variable (ip : Ipv4Addr)

lemma isLoopback_iff : ip.isLoopback = true ↔ InBlock ip (Ipv4Addr.new 127 0 0 0) 8 := by
  have hlt := ip.isLt
  simp only [Ipv4Addr.isLoopback, beq_iff_eq, ← BitVec.toNat_inj, octet_toNat, InBlock,
    ipv4_new_toNat, BitVec.ofNat_eq_ofNat, BitVec.toNat_ofNat]
  omega

lemma isPrivate_iff :
    ip.isPrivate = true ↔ InBlock ip (Ipv4Addr.new 10 0 0 0) 8 ∨
      InBlock ip (Ipv4Addr.new 172 16 0 0) 12 ∨ InBlock ip (Ipv4Addr.new 192 168 0 0) 16 := by
  have hlt := ip.isLt
  simp only [Ipv4Addr.isPrivate, Bool.or_eq_true, Bool.and_eq_true, decide_eq_true_eq, beq_iff_eq,
    ← BitVec.toNat_inj, BitVec.le_def, octet_toNat, InBlock, ipv4_new_toNat,
    BitVec.ofNat_eq_ofNat, BitVec.toNat_ofNat]
  omega

lemma isLinkLocal_iff : ip.isLinkLocal = true ↔ InBlock ip (Ipv4Addr.new 169 254 0 0) 16 := by
  have hlt := ip.isLt
  simp only [Ipv4Addr.isLinkLocal, Bool.and_eq_true, beq_iff_eq, ← BitVec.toNat_inj, octet_toNat,
    InBlock, ipv4_new_toNat, BitVec.ofNat_eq_ofNat, BitVec.toNat_ofNat]
  omega

lemma isDocumentation_iff :
    ip.isDocumentation = true ↔ InBlock ip (Ipv4Addr.new 192 0 2 0) 24 ∨
      InBlock ip (Ipv4Addr.new 198 51 100 0) 24 ∨ InBlock ip (Ipv4Addr.new 203 0 113 0) 24 := by
  have hlt := ip.isLt
  simp only [Ipv4Addr.isDocumentation, Bool.or_eq_true, Bool.and_eq_true, beq_iff_eq,
    ← BitVec.toNat_inj, octet_toNat, InBlock, ipv4_new_toNat, BitVec.ofNat_eq_ofNat,
    BitVec.toNat_ofNat]
  omega

lemma isMulticast_iff : ip.isMulticast = true ↔ InBlock ip (Ipv4Addr.new 224 0 0 0) 4 := by
  have hlt := ip.isLt
  simp only [Ipv4Addr.isMulticast, Bool.and_eq_true, decide_eq_true_eq, BitVec.le_def, octet_toNat,
    InBlock, ipv4_new_toNat, BitVec.ofNat_eq_ofNat, BitVec.toNat_ofNat]
  omega

lemma inBlock_of_isUnspecified (h : ip.isUnspecified = true) :
    InBlock ip (Ipv4Addr.new 0 0 0 0) 8 := by
  obtain rfl : ip = 0 := by simpa [Ipv4Addr.isUnspecified] using h
  decide

lemma inBlock_of_isBroadcast (h : ip.isBroadcast = true) :
    InBlock ip (Ipv4Addr.new 240 0 0 0) 4 := by
  obtain rfl : ip = Ipv4Addr.new 255 255 255 255 := by simpa [Ipv4Addr.isBroadcast] using h
  decide

lemma ipv4In_iff_inBlock {pre : Ipv4Addr} {bits : ℕ} (hbits : bits ≤ 32)
    (hpre : 2 ^ (32 - bits) ∣ pre.toNat) : ipv4In ip pre bits = true ↔ InBlock ip pre bits := by
  rw [ipv4In_iff hbits, agreeOn_iff_inBlock hbits hpre]

theorem isGlobalV4_eq_false_iff :
    isGlobalV4 ip = false ↔ ∃ block ∈ nonGlobalV4, InBlock ip block.1 block.2 := by
  have hzero : ipv4In ip (.new 0 0 0 0) 8 = true ↔ InBlock ip (Ipv4Addr.new 0 0 0 0) 8 :=
    ipv4In_iff_inBlock ip (by decide) (by decide)
  have hshared : ipv4In ip (.new 100 64 0 0) 10 = true ↔ InBlock ip (Ipv4Addr.new 100 64 0 0) 10 :=
    ipv4In_iff_inBlock ip (by decide) (by decide)
  have hietf : ipv4In ip (.new 192 0 0 0) 24 = true ↔ InBlock ip (Ipv4Addr.new 192 0 0 0) 24 :=
    ipv4In_iff_inBlock ip (by decide) (by decide)
  have hbench : ipv4In ip (.new 198 18 0 0) 15 = true ↔ InBlock ip (Ipv4Addr.new 198 18 0 0) 15 :=
    ipv4In_iff_inBlock ip (by decide) (by decide)
  have hreserved : ipv4In ip (.new 240 0 0 0) 4 = true ↔ InBlock ip (Ipv4Addr.new 240 0 0 0) 4 :=
    ipv4In_iff_inBlock ip (by decide) (by decide)
  have hunspecified := inBlock_of_isUnspecified ip
  have hbroadcast := inBlock_of_isBroadcast ip
  simp only [isGlobalV4, Bool.or_eq_true, hzero, hshared, hietf, hbench, hreserved,
    isLoopback_iff, isPrivate_iff, isLinkLocal_iff, isDocumentation_iff, isMulticast_iff,
    ite_eq_left_iff, nonGlobalV4, List.mem_cons, List.not_mem_nil, or_false,
    exists_eq_or_imp, exists_eq_left]
  grind

end V4

/-! ### Embeddings of IPv4 -/

def compatibleV6 (a : Ipv4Addr) : Ipv6Addr := 0#96 ++ a

def nat64V6 (a : Ipv4Addr) : Ipv6Addr := 0x0064ff9b#32 ++ 0#64 ++ a

/-- The address of `2002:a::/48` with the given lower bits. -/
def sixToFourV6 (a : Ipv4Addr) (low : BitVec 80) : Ipv6Addr := 0x2002#16 ++ a ++ low

/-- `x` embeds `a` and is classified as `a` is. -/
structure EmbedsAndClassifiesAs (x : Ipv6Addr) (a : Ipv4Addr) : Prop where
  embedded : embeddedIpv4 x = some a
  same_class : isGlobalUnicast (.v6 x) = isGlobalUnicast (.v4 a)

lemma EmbedsAndClassifiesAs.of_embedded {x : Ipv6Addr} {a : Ipv4Addr}
    (h : embeddedIpv4 x = some a) : EmbedsAndClassifiesAs x a :=
  ⟨h, by simp [isGlobalUnicast, isGlobalV6, h]⟩

lemma embeddedIpv4_of_top {x : Ipv6Addr} {a : Ipv4Addr} {top : ℕ}
    (hx : x.toNat = top * 2 ^ 32 + a.toNat)
    (htop : top = 0xffff ∨ top = 0 ∨ top = 0x64ff9b * 2 ^ 64) : embeddedIpv4 x = some a := by
  have ha := a.isLt
  have hdiv : x.toNat / 2 ^ 32 = top := by omega
  have hlow : x.setWidth 32 = a := by
    apply BitVec.eq_of_toNat_eq
    rw [BitVec.toNat_setWidth]
    omega
  rw [embeddedIpv4_eq, hdiv, if_pos htop, hlow]

lemma embeddedIpv4_sixToFourV6 (a : Ipv4Addr) (low : BitVec 80) :
    embeddedIpv4 (sixToFourV6 a low) = some a := by
  have ha := a.isLt
  have hlow := low.isLt
  have hx : (sixToFourV6 a low).toNat = (0x2002 * 2 ^ 32 + a.toNat) * 2 ^ 80 + low.toNat := by
    rw [sixToFourV6, toNat_append_add, toNat_append_add]
    rfl
  have hfield : (sixToFourV6 a low >>> 80).setWidth 32 = a := by
    apply BitVec.eq_of_toNat_eq
    rw [toNat_field]
    omega
  rw [embeddedIpv4_eq, if_neg (by omega), if_pos (by omega), hfield]

theorem v4_classes_exact_and_embedded (a : Ipv4Addr) :
    (isGlobalUnicast (.v4 a) = false ↔ ∃ block ∈ nonGlobalV4, InBlock a block.1 block.2) ∧
    EmbedsAndClassifiesAs (mappedV6 a) a ∧
    EmbedsAndClassifiesAs (compatibleV6 a) a ∧
    EmbedsAndClassifiesAs (nat64V6 a) a ∧
    ∀ low, EmbedsAndClassifiesAs (sixToFourV6 a low) a := by
  refine ⟨isGlobalV4_eq_false_iff a, .of_embedded ?_, .of_embedded ?_, .of_embedded ?_, ?_⟩
  · exact embeddedIpv4_of_top (mappedV6_toNat a) (.inl rfl)
  · exact embeddedIpv4_of_top (toNat_append_add 0#96 a) (.inr (.inl rfl))
  · exact embeddedIpv4_of_top (toNat_append_add (0x0064ff9b#32 ++ 0#64) a) (.inr (.inr (by decide)))
  · intro low
    exact .of_embedded (embeddedIpv4_sixToFourV6 a low)

/-! ### IPv6 -/

/-- The global unicast space 2000::/3 without 2001::/23 and 2001:db8::/32. -/
def GloballyRoutable (x : Ipv6Addr) : Prop :=
  InBlock x (Ipv6Addr.new 0x2000 0 0 0 0 0 0 0) 3 ∧
  ¬InBlock x (Ipv6Addr.new 0x2001 0 0 0 0 0 0 0) 23 ∧
  ¬InBlock x (Ipv6Addr.new 0x2001 0x0db8 0 0 0 0 0 0) 32

/-- The blocks outside 2000::/3 that `isGlobalV6` names: ff00::/8, fe80::/10, fc00::/7, 100::/64
and 64:ff9b:1::/48. -/
def deniedV6 : List (Ipv6Addr × ℕ) :=
  [(.new 0xff00 0 0 0 0 0 0 0, 8), (.new 0xfe80 0 0 0 0 0 0 0, 10), (.new 0xfc00 0 0 0 0 0 0 0, 7),
    (.new 0x0100 0 0 0 0 0 0 0, 64), (.new 0x64 0xff9b 1 0 0 0 0 0, 48)]

section V6
variable {x : Ipv6Addr}

/-- A mask test of the first segment compares the first bits of the address. -/
lemma segment_mask_iff {pre : BitVec 16} {n : ℕ} (hn : n ≤ 16)
    (hpre : pre &&& leadingMask 16 n = pre) :
    (x.segment 0 &&& leadingMask 16 n == pre) = true ↔
      AgreeOn n x (Ipv6Addr.new pre 0 0 0 0 0 0 0) := by
  have hlt := x.isLt
  have hseg : (x.segment 0).toNat = x.toNat / 2 ^ 112 := by
    rw [segment_toNat]
    omega
  have hnew : (Ipv6Addr.new pre 0 0 0 0 0 0 0).toNat / 2 ^ 112 = pre.toNat := by
    simp only [Ipv6Addr.new, toNat_append_add, BitVec.ofNat_eq_ofNat, BitVec.toNat_ofNat]
    omega
  have hpow : 2 ^ (128 - n) = 2 ^ 112 * 2 ^ (16 - n) := by
    rw [← Nat.pow_add]
    congr 1
    omega
  rw [beq_iff_eq]
  nth_rewrite 1 [← hpre]
  rw [and_leadingMask_eq_iff hn, agreeOn_iff_toNat_div hn, agreeOn_iff_toNat_div (by omega), hpow,
    ← Nat.div_div_eq_div_mul, ← Nat.div_div_eq_div_mul, hseg, hnew]

lemma v6_isMulticast_iff :
    x.isMulticast = true ↔ InBlock x (Ipv6Addr.new 0xff00 0 0 0 0 0 0 0) 8 := by
  rw [← agreeOn_iff_inBlock (by decide) (by decide), ← segment_mask_iff (by decide) (by decide)]
  rfl

lemma isUnicastLinkLocal_iff :
    x.isUnicastLinkLocal = true ↔ InBlock x (Ipv6Addr.new 0xfe80 0 0 0 0 0 0 0) 10 := by
  rw [← agreeOn_iff_inBlock (by decide) (by decide), ← segment_mask_iff (by decide) (by decide)]
  rfl

lemma isUniqueLocal_iff :
    x.isUniqueLocal = true ↔ InBlock x (Ipv6Addr.new 0xfc00 0 0 0 0 0 0 0) 7 := by
  rw [← agreeOn_iff_inBlock (by decide) (by decide), ← segment_mask_iff (by decide) (by decide)]
  rfl

lemma ipv6In_iff_inBlock {pre : Ipv6Addr} {bits : ℕ} (hbits : bits ≤ 128)
    (hpre : 2 ^ (128 - bits) ∣ pre.toNat) : ipv6In x pre bits = true ↔ InBlock x pre bits := by
  rw [ipv6In_iff hbits, agreeOn_iff_inBlock hbits hpre]

/-- An address that embeds none is global unless a block names it. -/
lemma isGlobalV6_iff (hx : embeddedIpv4 x = none) :
    isGlobalV6 x = true ↔
      ¬InBlock x (Ipv6Addr.new 0x2001 0 0 0 0 0 0 0) 23 ∧
      ¬InBlock x (Ipv6Addr.new 0x2001 0x0db8 0 0 0 0 0 0) 32 ∧
      ¬∃ block ∈ deniedV6, InBlock x block.1 block.2 := by
  have hunspecified : x.isUnspecified = false := by
    apply Bool.eq_false_iff.mpr
    intro h
    obtain rfl : x = 0 := by simpa [Ipv6Addr.isUnspecified] using h
    exact absurd hx (by decide)
  have hloopback : x.isLoopback = false := by
    apply Bool.eq_false_iff.mpr
    intro h
    obtain rfl : x = 1 := by simpa [Ipv6Addr.isLoopback] using h
    exact absurd hx (by decide)
  have hietf : ipv6In x (.new 0x2001 0 0 0 0 0 0 0) 23 = true ↔
      InBlock x (Ipv6Addr.new 0x2001 0 0 0 0 0 0 0) 23 :=
    ipv6In_iff_inBlock (by decide) (by decide)
  have hdoc : ipv6In x (.new 0x2001 0x0db8 0 0 0 0 0 0) 32 = true ↔
      InBlock x (Ipv6Addr.new 0x2001 0x0db8 0 0 0 0 0 0) 32 :=
    ipv6In_iff_inBlock (by decide) (by decide)
  have hdiscard : ipv6In x (.new 0x0100 0 0 0 0 0 0 0) 64 = true ↔
      InBlock x (Ipv6Addr.new 0x0100 0 0 0 0 0 0 0) 64 :=
    ipv6In_iff_inBlock (by decide) (by decide)
  have hnat64 : ipv6In x (.new 0x64 0xff9b 1 0 0 0 0 0) 48 = true ↔
      InBlock x (Ipv6Addr.new 0x64 0xff9b 1 0 0 0 0 0) 48 :=
    ipv6In_iff_inBlock (by decide) (by decide)
  simp only [isGlobalV6, hx, hunspecified, hloopback, Bool.or_eq_true, v6_isMulticast_iff,
    isUnicastLinkLocal_iff, isUniqueLocal_iff, hietf, hdoc, hdiscard, hnat64, deniedV6,
    List.mem_cons, List.not_mem_nil, or_false, exists_eq_or_imp, exists_eq_left]
  grind

/-- The code accepts only routable addresses in 2000::/3 and in the blocks it names; all other
space outside 2000::/3 passes. -/
theorem global_v6_routable_iff (hx : embeddedIpv4 x = none) :
    (isGlobalUnicast (.v6 x) = true → GloballyRoutable x) ↔
      InBlock x (Ipv6Addr.new 0x2000 0 0 0 0 0 0 0) 3 ∨
      ∃ block ∈ deniedV6, InBlock x block.1 block.2 := by
  rw [isGlobalUnicast, isGlobalV6_iff hx, GloballyRoutable]
  constructor
  · intro h
    by_contra hout
    push Not at hout
    obtain ⟨hspace, hdenied⟩ := hout
    -- Both excluded blocks lie inside 2000::/3, so nothing rejects this address.
    refine hspace (h ⟨?_, ?_, ?_⟩).1
    · exact fun hin => hspace (hin.mono (by decide) (by decide))
    · exact fun hin => hspace (hin.mono (by decide) (by decide))
    · rintro ⟨block, hmem, hin⟩
      exact hdenied block hmem hin
  · rintro (hspace | hdenied) ⟨hietf, hdoc, hnot⟩
    · exact ⟨hspace, hietf, hdoc⟩
    · exact absurd hdenied hnot

end V6

theorem global_v6_routable_iff_allocated :
    embeddedIpv4 (.new 0x2001 0x4860 0x4860 0 0 0 0 0x8888) = none ∧
    (isGlobalUnicast (.v6 (.new 0x2001 0x4860 0x4860 0 0 0 0 0x8888)) = true →
      GloballyRoutable (.new 0x2001 0x4860 0x4860 0 0 0 0 0x8888)) :=
  ⟨by decide, (global_v6_routable_iff (by decide)).mpr (.inl (by decide))⟩

/-- `fec0::1`, of the deprecated site-local block, is accepted. -/
theorem siteLocal_accepted :
    ¬∀ x, embeddedIpv4 x = none → isGlobalUnicast (.v6 x) = true → GloballyRoutable x := by
  intro h
  have hroutable := h (.new 0xfec0 0 0 0 0 0 0 1) (by decide) (by decide)
  exact absurd hroutable.1 (by decide)

end WsTcpProxy.Proofs
