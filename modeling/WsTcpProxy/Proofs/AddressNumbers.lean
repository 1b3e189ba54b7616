import WsTcpProxy.Dest
import WsTcpProxy.Library.BitPrefix

/-!
# Addresses as numbers

What the octets, the segments and the mask tests of an address say about its number.
-/

namespace WsTcpProxy.Proofs
open Library

lemma octet_toNat (ip : Ipv4Addr) (i : ℕ) :
    (ip.octet i).toNat = ip.toNat / 2 ^ (24 - 8 * i) % 256 :=
  toNat_field ip (24 - 8 * i) 8

lemma segment_toNat (ip : Ipv6Addr) (i : ℕ) :
    (ip.segment i).toNat = ip.toNat / 2 ^ (112 - 16 * i) % 65536 :=
  toNat_field ip (112 - 16 * i) 16

lemma ipv4_new_toNat (a b c d : BitVec 8) :
    (Ipv4Addr.new a b c d).toNat = ((a.toNat * 256 + b.toNat) * 256 + c.toNat) * 256 + d.toNat := by
  simp only [Ipv4Addr.new, toNat_append_add]
  norm_num

/-- The mask test of `ipv4_in` and `ipv6_in`. -/
lemma maskTest_iff {w bits : ℕ} {x y : BitVec w} (hbits : bits ≤ w) :
    (if bits = 0 then true
      else x &&& BitVec.allOnes w <<< (w - bits) == y &&& BitVec.allOnes w <<< (w - bits)) = true ↔
      AgreeOn bits x y := by
  by_cases h0 : bits = 0
  · simp [h0]
  · rw [if_neg h0, beq_iff_eq]
    exact and_leadingMask_eq_iff hbits

lemma ipv4In_iff {ip pre : Ipv4Addr} {bits : ℕ} (hbits : bits ≤ 32) :
    ipv4In ip pre bits = true ↔ AgreeOn bits ip pre :=
  maskTest_iff hbits

lemma ipv6In_iff {ip pre : Ipv6Addr} {bits : ℕ} (hbits : bits ≤ 128) :
    ipv6In ip pre bits = true ↔ AgreeOn bits ip pre :=
  maskTest_iff hbits

lemma checkedMask_eq {w bits : ℕ} (h : bits ≤ w) :
    checkedMask w bits = some (if bits = 0 then 0 else BitVec.allOnes w <<< (w - bits)) := by
  by_cases h0 : bits = 0
  · simp [checkedMask, h0]
  · rw [checkedMask, if_neg h0, if_pos ⟨h, by omega⟩, if_neg h0]

/-! ### Embedded IPv4 addresses -/

def mappedV6 (a : Ipv4Addr) : Ipv6Addr := 0xffff#96 ++ a

lemma mappedV6_toNat (a : Ipv4Addr) : (mappedV6 a).toNat = 0xffff * 2 ^ 32 + a.toNat :=
  toNat_append_add 0xffff#96 a

lemma ushiftRight_eq_iff (ip : Ipv6Addr) (c : BitVec 128) :
    ip >>> 32 = c ↔ ip.toNat / 2 ^ 32 = c.toNat := by
  rw [← BitVec.toNat_inj, BitVec.toNat_ushiftRight, Nat.shiftRight_eq_div_pow]

lemma toIpv4Mapped_eq (ip : Ipv6Addr) :
    ip.toIpv4Mapped = if ip.toNat / 2 ^ 32 = 0xffff then some (ip.setWidth 32) else none := by
  simp only [Ipv6Addr.toIpv4Mapped, ushiftRight_eq_iff]
  rfl

lemma toIpv4Mapped_eq_none {ip : Ipv6Addr} :
    ip.toIpv4Mapped = none ↔ ip.toNat / 2 ^ 32 ≠ 0xffff := by
  rw [toIpv4Mapped_eq]
  split
  case isTrue h => simp only [h, reduceCtorEq, ne_eq, not_true_eq_false]
  case isFalse h => simp only [h, ne_eq, not_false_eq_true]

lemma toIpv4Mapped_eq_some {ip : Ipv6Addr} {v4 : Ipv4Addr} :
    ip.toIpv4Mapped = some v4 ↔ ip.toNat = 0xffff * 2 ^ 32 + v4.toNat := by
  have hv4 := v4.isLt
  have hlow : ip.setWidth 32 = v4 ↔ ip.toNat % 2 ^ 32 = v4.toNat := by
    rw [← BitVec.toNat_inj, BitVec.toNat_setWidth]
  rw [toIpv4Mapped_eq]
  split
  case isTrue h =>
    rw [Option.some_inj, hlow]
    omega
  case isFalse h =>
    constructor
    · intro hnone
      cases hnone
    · intro heq
      omega

lemma mappedV6_toIpv4Mapped (a : Ipv4Addr) : (mappedV6 a).toIpv4Mapped = some a :=
  toIpv4Mapped_eq_some.mpr (mappedV6_toNat a)

/-- The address with an IPv4-mapped IPv6 address replaced by the IPv4 address it embeds. -/
def unmapped : IpAddr → IpAddr
  | .v4 v4 => .v4 v4
  | .v6 v6 =>
    match v6.toIpv4Mapped with
    | some v4 => .v4 v4
    | none => .v6 v6

lemma ipv4OfSegments_eq (hi lo : BitVec 16) : ipv4OfSegments hi lo = hi ++ lo := by
  have hhi := hi.isLt
  have hlo := lo.isLt
  apply BitVec.eq_of_toNat_eq
  simp only [ipv4OfSegments, ipv4_new_toNat, toNat_append_add, BitVec.toNat_setWidth,
    BitVec.toNat_ushiftRight, Nat.shiftRight_eq_div_pow]
  omega

/-- Two neighbouring segments are a field of 32 bits. -/
lemma ipv4OfSegments_segment (ip : Ipv6Addr) {i : ℕ} (hi : i < 7) :
    ipv4OfSegments (ip.segment i) (ip.segment (i + 1)) =
      (ip >>> (96 - 16 * i)).setWidth 32 := by
  apply BitVec.eq_of_toNat_eq
  rw [ipv4OfSegments_eq, toNat_append_add, segment_toNat, segment_toNat, toNat_field,
    show 112 - 16 * i = 96 - 16 * i + 16 by omega, show 112 - 16 * (i + 1) = 96 - 16 * i by omega,
    Nat.pow_add, ← Nat.div_div_eq_div_mul]
  generalize ip.toNat / 2 ^ (96 - 16 * i) = n
  omega

/-- The first six segments are the digits of the number above the last 32 bits. -/
lemma topSegments_iff (ip : Ipv6Addr) (a b c d e f : BitVec 16) :
    (ip.segment 0 = a ∧ ip.segment 1 = b ∧ ip.segment 2 = c ∧ ip.segment 3 = d ∧
      ip.segment 4 = e ∧ ip.segment 5 = f) ↔
      ip.toNat / 2 ^ 32 = (a ++ b ++ c ++ d ++ e ++ f).toNat := by
  have hlt := ip.isLt
  have ha := a.isLt
  have hb := b.isLt
  have hc := c.isLt
  have hd := d.isLt
  have he := e.isLt
  have hf := f.isLt
  simp only [← BitVec.toNat_inj, segment_toNat, toNat_append_add]
  omega

/-- The four embeddings that `embeddedIpv4` undoes, told apart by their leading bits. -/
theorem embeddedIpv4_eq (ip : Ipv6Addr) :
    embeddedIpv4 ip =
      if ip.toNat / 2 ^ 32 = 0xffff ∨ ip.toNat / 2 ^ 32 = 0 ∨
          ip.toNat / 2 ^ 32 = 0x64ff9b * 2 ^ 64 then some (ip.setWidth 32)
      else if ip.toNat / 2 ^ 112 = 0x2002 then some ((ip >>> 80).setWidth 32)
      else none := by
  have hfirst : ip.segment 0 = 0x2002 ↔ ip.toNat / 2 ^ 112 = 0x2002 := by
    have hlt := ip.isLt
    rw [← BitVec.toNat_inj, segment_toNat, show (0x2002 : BitVec 16).toNat = 0x2002 by rfl]
    omega
  have hlow : ipv4OfSegments (ip.segment 6) (ip.segment 7) = ip.setWidth 32 := by
    rw [ipv4OfSegments_segment ip (by decide)]
    simp
  have hmid : ipv4OfSegments (ip.segment 1) (ip.segment 2) = (ip >>> 80).setWidth 32 :=
    ipv4OfSegments_segment ip (by decide)
  unfold embeddedIpv4 Ipv6Addr.toIpv4Mapped Ipv6Addr.toIpv4
  simp only [topSegments_iff, hfirst, ushiftRight_eq_iff, hlow, hmid,
    show (0xffff : BitVec 128).toNat = 0xffff by rfl,
    show (0 : BitVec 128).toNat = 0 by rfl,
    show ((0 : BitVec 16) ++ (0 : BitVec 16) ++ (0 : BitVec 16) ++ (0 : BitVec 16) ++
      (0 : BitVec 16) ++ (0 : BitVec 16)).toNat = 0 by decide,
    show ((0x64 : BitVec 16) ++ (0xff9b : BitVec 16) ++ (0 : BitVec 16) ++ (0 : BitVec 16) ++
      (0 : BitVec 16) ++ (0 : BitVec 16)).toNat = 0x64ff9b * 2 ^ 64 by decide]
  generalize ip.toNat / 2 ^ 32 = top
  by_cases hmapped : top = 0xffff
  · simp [hmapped]
  · by_cases hcompat : top = 0
    · simp [hcompat]
    · simp [hmapped, hcompat]

end WsTcpProxy.Proofs
