import WsTcpProxy.Config
import WsTcpProxy.Proofs.AddressNumbers

/-!
# CIDR membership

`Cidr.contains` against the bits of the prefix. The two differ for prefixes written in
IPv4-mapped form, where the code clamps the length to 32 in place of taking 96 off it.
-/

namespace WsTcpProxy.Proofs
open Library

/-- What membership of `ip` in `cidr` should mean. -/
structure CidrLaw (cidr : Cidr) (ip : IpAddr) : Prop where
  in_range : cidr.containsChecked ip = some (cidr.contains ip)
  v4 : ∀ pre x, cidr.addr = .v4 pre → ip = .v4 x →
    (cidr.contains ip = true ↔ AgreeOn cidr.bits x pre)
  v6 : ∀ pre x, cidr.addr = .v6 pre → ip = .v6 x →
    (cidr.contains ip = true ↔ AgreeOn cidr.bits x pre)
  mapped : ∀ pre x v4, cidr.addr = .v4 pre → ip = .v6 x → x.toIpv4Mapped = some v4 →
    cidr.contains ip = cidr.contains (.v4 v4)

/-- Prefix and address are both IPv4-mapped, and the clamped length separates addresses that the
prefix holds together. -/
def Narrowed (cidr : Cidr) (ip : IpAddr) : Prop :=
  ∃ pre x p4 x4, cidr.addr = .v6 pre ∧ ip = .v6 x ∧ pre.toIpv4Mapped = some p4 ∧
    x.toIpv4Mapped = some x4 ∧ AgreeOn (cidr.bits - 96) x4 p4 ∧ ¬AgreeOn (min cidr.bits 32) x4 p4

/-- The length is one of the family of the address. -/
def Cidr.InRange (cidr : Cidr) : Prop :=
  match cidr.addr with
  | .v4 _ => cidr.bits ≤ 32
  | .v6 _ => cidr.bits ≤ 128

lemma parse_inRange {raw : Str} {cidr : Cidr} (h : Cidr.parse raw = some cidr) :
    Cidr.InRange cidr := by
  simp only [Cidr.parse, Option.bind_eq_bind] at h
  split at h
  · obtain ⟨addr, -, h⟩ := Option.bind_eq_some_iff.mp h
    obtain ⟨bits, -, h⟩ := Option.bind_eq_some_iff.mp h
    obtain ⟨hbits, hcidr⟩ := Option.ite_none_left_eq_some.mp h
    cases hcidr
    cases addr <;> exact Nat.le_of_not_lt hbits
  · obtain ⟨addr, -, h⟩ := Option.bind_eq_some_iff.mp h
    cases h
    cases addr <;> exact le_rfl

/-- Two IPv4-mapped addresses agree on their first 96 bits, and beyond them where the embedded
addresses do. -/
lemma agreeOn_mapped {x y : Ipv6Addr} {x4 y4 : Ipv4Addr} {bits : ℕ} (hbits : bits ≤ 128)
    (hx : x.toIpv4Mapped = some x4) (hy : y.toIpv4Mapped = some y4) :
    AgreeOn bits x y ↔ AgreeOn (bits - 96) x4 y4 := by
  rw [toIpv4Mapped_eq_some] at hx hy
  by_cases h96 : bits ≤ 96
  · have hx4 := x4.isLt
    have hy4 := y4.isLt
    have hall : AgreeOn 96 x y := by
      rw [agreeOn_iff_toNat_div (by decide), hx, hy]
      omega
    simp [hall.mono h96, Nat.sub_eq_zero_of_le h96]
  · have hpow : 2 ^ 32 = 2 ^ (128 - bits) * 2 ^ (bits - 96) := by
      rw [← Nat.pow_add]
      congr 1
      omega
    have hpos : 0 < 2 ^ (128 - bits) := Nat.two_pow_pos _
    have hquot (n : ℕ) : (0xffff * 2 ^ 32 + n) / 2 ^ (128 - bits) =
        n / 2 ^ (128 - bits) + 0xffff * 2 ^ (bits - 96) := by
      rw [hpow, Nat.mul_left_comm, Nat.add_comm, Nat.add_mul_div_left _ _ hpos]
    rw [agreeOn_iff_toNat_div hbits, agreeOn_iff_toNat_div (by omega), hx, hy, hquot, hquot,
      Nat.add_left_inj, show 32 - (bits - 96) = 128 - bits by omega]

section
variable {cidr : Cidr} {ip : IpAddr}

lemma checked_and_eq {w bits : ℕ} (h : bits ≤ w) (x pre : BitVec w) :
    (checkedMask w bits).bind (fun mask => some (x &&& mask == pre &&& mask)) =
      some (if bits = 0 then true
        else x &&& BitVec.allOnes w <<< (w - bits) == pre &&& BitVec.allOnes w <<< (w - bits)) := by
  rw [checkedMask_eq h]
  by_cases h0 : bits = 0 <;> simp [h0]

lemma containsChecked_eq (h : Cidr.InRange cidr) :
    cidr.containsChecked ip = some (cidr.contains ip) := by
  obtain ⟨addr, bits⟩ := cidr
  cases addr with
  | v4 pre =>
    cases ip with
    | v4 x => exact checked_and_eq h x pre
    | v6 x =>
      cases hx : x.toIpv4Mapped with
      | none => simp only [Cidr.containsChecked, Cidr.contains, hx]
      | some x4 =>
        simp only [Cidr.containsChecked, Cidr.contains, hx]
        exact checked_and_eq h x4 pre
  | v6 pre =>
    cases ip with
    | v4 x => rfl
    | v6 x =>
      cases hp : pre.toIpv4Mapped with
      | none =>
        simp only [Cidr.containsChecked, Cidr.contains, hp]
        exact checked_and_eq h x pre
      | some p4 =>
        cases hx : x.toIpv4Mapped with
        | none =>
          simp only [Cidr.containsChecked, Cidr.contains, hp, hx]
          exact checked_and_eq h x pre
        | some x4 =>
          simp only [Cidr.containsChecked, Cidr.contains, hp, hx]
          exact checked_and_eq (Nat.min_le_right bits 32) x4 p4

lemma narrowed_iff {pre x : Ipv6Addr} {p4 x4 : Ipv4Addr} {bits : ℕ}
    (hp : pre.toIpv4Mapped = some p4) (hx : x.toIpv4Mapped = some x4) :
    Narrowed ⟨.v6 pre, bits⟩ (.v6 x) ↔ AgreeOn (bits - 96) x4 p4 ∧ ¬AgreeOn (min bits 32) x4 p4 := by
  constructor
  · rintro ⟨_, _, _, _, hpre, hip, hp', hx', hagree⟩
    cases hpre
    cases hip
    cases hp.symm.trans hp'
    cases hx.symm.trans hx'
    exact hagree
  · intro hagree
    exact ⟨pre, x, p4, x4, rfl, rfl, hp, hx, hagree⟩

/-- Between two IPv6 addresses the code compares the first bits, save where it narrows. -/
lemma contains_v6_iff {pre x : Ipv6Addr} {bits : ℕ} (hbits : bits ≤ 128) :
    (Cidr.mk (.v6 pre) bits).contains (.v6 x) = true ↔
      AgreeOn bits x pre ∧ ¬Narrowed ⟨.v6 pre, bits⟩ (.v6 x) := by
  by_cases hboth : ∃ p4 x4, pre.toIpv4Mapped = some p4 ∧ x.toIpv4Mapped = some x4
  · obtain ⟨p4, x4, hp, hx⟩ := hboth
    have hle : bits - 96 ≤ min bits 32 := by omega
    have hmono : AgreeOn (min bits 32) x4 p4 → AgreeOn (bits - 96) x4 p4 := AgreeOn.mono hle
    rw [narrowed_iff hp hx, agreeOn_mapped hbits hx hp]
    simp only [Cidr.contains, hp, hx, ipv4In_iff (Nat.min_le_right bits 32)]
    tauto
  · have hnot : ¬Narrowed ⟨.v6 pre, bits⟩ (.v6 x) := by
      rintro ⟨_, _, p4, x4, hpre, hip, hp, hx, -⟩
      cases hpre
      cases hip
      exact hboth ⟨p4, x4, hp, hx⟩
    have hcontains : (Cidr.mk (.v6 pre) bits).contains (.v6 x) = ipv6In x pre bits := by
      simp only [Cidr.contains]
      split
      · exact absurd ⟨_, _, ‹_›, ‹_›⟩ hboth
      · rfl
    rw [hcontains, ipv6In_iff hbits]
    simp [hnot]

lemma cidrLaw_iff (h : Cidr.InRange cidr) : CidrLaw cidr ip ↔ ¬Narrowed cidr ip := by
  constructor
  · rintro hlaw ⟨pre, x, p4, x4, hpre, hip, hp, hx, hagree, hnarrow⟩
    obtain ⟨addr, bits⟩ := cidr
    cases hpre
    cases hip
    have hcontains := (hlaw.v6 pre x rfl rfl).mpr ((agreeOn_mapped h hx hp).mpr hagree)
    exact ((contains_v6_iff h).mp hcontains).2 ((narrowed_iff hp hx).mpr ⟨hagree, hnarrow⟩)
  · intro hnot
    obtain ⟨addr, bits⟩ := cidr
    refine ⟨containsChecked_eq h, ?_, ?_, ?_⟩
    · rintro pre x hpre rfl
      cases hpre
      exact ipv4In_iff h
    · rintro pre x hpre rfl
      cases hpre
      rw [contains_v6_iff h]
      simp [hnot]
    · rintro pre x v4 hpre rfl hx
      cases hpre
      simp only [Cidr.contains, hx]

end

/-- The prefix is IPv4-mapped and its length is neither 0 nor the whole address. -/
def MappedPrefix (cidr : Cidr) : Prop :=
  ∃ pre p4, cidr.addr = .v6 pre ∧ pre.toIpv4Mapped = some p4 ∧ 0 < cidr.bits ∧ cidr.bits < 128

lemma exists_narrowed {cidr : Cidr} (h : MappedPrefix cidr) : ∃ ip, Narrowed cidr ip := by
  obtain ⟨pre, p4, hpre, hp, hpos, hlt⟩ := h
  -- An address that first differs from the prefix right after the bits it fixes.
  obtain ⟨x4, hagree, hdiffer⟩ := exists_agreeOn_not_succ (show cidr.bits - 96 < 32 by omega) p4
  refine ⟨.v6 (mappedV6 x4), pre, mappedV6 x4, p4, x4, hpre, rfl, hp, mappedV6_toIpv4Mapped x4,
    hagree, ?_⟩
  intro hmin
  exact hdiffer (hmin.mono (by omega))

lemma mappedPrefix_of_narrowed {cidr : Cidr} {ip : IpAddr} (h : Narrowed cidr ip) :
    MappedPrefix cidr := by
  obtain ⟨pre, x, p4, x4, hpre, -, hp, -, hagree, hnarrow⟩ := h
  refine ⟨pre, p4, hpre, hp, ?_, ?_⟩
  · by_contra h0
    exact hnarrow (hagree.mono (by omega))
  · by_contra h128
    exact hnarrow (hagree.mono (by omega))

/-- Membership is right for all addresses exactly when the prefix is not a proper IPv4-mapped one;
for such a prefix it is wrong at the addresses that the clamped length drops. -/
theorem cidr_membership_iff (raw : Str) (cidr : Cidr) (hparse : Cidr.parse raw = some cidr) :
    ((∀ ip, CidrLaw cidr ip) ↔ ¬MappedPrefix cidr) ∧
    ∀ ip, CidrLaw cidr ip ↔ ¬Narrowed cidr ip := by
  have hrange := parse_inRange hparse
  refine ⟨?_, fun ip => cidrLaw_iff hrange⟩
  constructor
  · intro hlaw hmapped
    obtain ⟨ip, hip⟩ := exists_narrowed hmapped
    exact (cidrLaw_iff hrange).mp (hlaw ip) hip
  · intro hmapped ip
    exact (cidrLaw_iff hrange).mpr fun hip => hmapped (mappedPrefix_of_narrowed hip)

theorem cidr_membership_iff_ten :
    Cidr.parse "10.0.0.0/8".toList = some ⟨.v4 (.new 10 0 0 0), 8⟩ ∧
    ∀ ip, CidrLaw ⟨.v4 (.new 10 0 0 0), 8⟩ ip := by
  have hparse : Cidr.parse "10.0.0.0/8".toList = some ⟨.v4 (.new 10 0 0 0), 8⟩ := by decide
  refine ⟨hparse, (cidr_membership_iff _ _ hparse).1.mpr ?_⟩
  rintro ⟨pre, p4, hpre, -⟩
  cases hpre

/-- `::ffff:10.0.0.0/104` does not contain `::ffff:10.1.2.3`, which has its first 104 bits. -/
theorem mappedPrefix_narrowed :
    ¬∀ raw cidr ip, Cidr.parse raw = some cidr → CidrLaw cidr ip := by
  intro h
  have hlaw := h "::ffff:10.0.0.0/104".toList ⟨.v6 (.new 0 0 0 0 0 0xffff 0x0a00 0), 104⟩
    (.v6 (.new 0 0 0 0 0 0xffff 0x0a01 0x0203)) (by decide)
  have hcontains := (hlaw.v6 _ _ rfl rfl).mpr (by decide)
  exact absurd hcontains (by decide)

end WsTcpProxy.Proofs
