import WsTcpProxy.Proofs.AddressNumbers
import WsTcpProxy.Proofs.LeaseLedger

/-!
# Limit keys

`limitKey` picks one address for each class of addresses that share a prefix.
-/

namespace WsTcpProxy.Proofs
open Library

/-- After unmapping, the addresses are of one family and agree on its configured prefix. -/
def SamePrefix (v4Bits v6Bits : ℕ) (a b : IpAddr) : Prop :=
  match unmapped a, unmapped b with
  | .v4 x, .v4 y => AgreeOn (min v4Bits 32) x y
  | .v6 x, .v6 y => AgreeOn (min v6Bits 128) x y
  | _, _ => False

section
variable {v4Bits v6Bits : ℕ}

/-- The three cases of the mask are one mask of leading ones. -/
lemma mask_eq {w bits : ℕ} (x : BitVec w) :
    (if bits = w then x else x &&& (if bits = 0 then 0 else BitVec.allOnes w <<< (w - bits))) =
      x &&& leadingMask w bits := by
  by_cases hw : bits = w
  · rw [if_pos hw, hw, leadingMask_width, BitVec.and_allOnes]
  · by_cases h0 : bits = 0
    · rw [if_neg hw, if_pos h0, h0, leadingMask_zero]
    · rw [if_neg hw, if_neg h0, leadingMask]

lemma limitKey_eq (ip : IpAddr) :
    limitKey ip v4Bits v6Bits =
      match unmapped ip with
      | .v4 x => .v4 (x &&& leadingMask 32 (min v4Bits 32))
      | .v6 x => .v6 (x &&& leadingMask 128 (min v6Bits 128)) := by
  have hv4 (x : Ipv4Addr) :
      (if min v4Bits 32 = 32 then IpAddr.v4 x
        else .v4 (x &&& (if min v4Bits 32 = 0 then 0
          else BitVec.allOnes 32 <<< (32 - min v4Bits 32)))) =
        .v4 (x &&& leadingMask 32 (min v4Bits 32)) := by
    rw [← mask_eq x, apply_ite IpAddr.v4]
  have hv6 (x : Ipv6Addr) :
      (if min v6Bits 128 = 128 then IpAddr.v6 x
        else .v6 (x &&& (if min v6Bits 128 = 0 then 0
          else BitVec.allOnes 128 <<< (128 - min v6Bits 128)))) =
        .v6 (x &&& leadingMask 128 (min v6Bits 128)) := by
    rw [← mask_eq x, apply_ite IpAddr.v6]
  cases ip with
  | v4 x => exact hv4 x
  | v6 x =>
    cases h : x.toIpv4Mapped with
    | some v4 => simpa only [limitKey, unmapped, h] using hv4 v4
    | none => simpa only [limitKey, unmapped, h] using hv6 x

/-- A mask of leading ones turns no other address into an IPv4-mapped one: a mask that keeps the
first 96 bits keeps the mapped form too, and a shorter one clears the last bit of `ffff`. -/
lemma masked_not_mapped {x : Ipv6Addr} {n : ℕ} (hn : n ≤ 128) (hx : x.toIpv4Mapped = none) :
    (x &&& leadingMask 128 n).toIpv4Mapped = none := by
  rw [toIpv4Mapped_eq_none] at hx ⊢
  intro hmapped
  by_cases h96 : 96 ≤ n
  · have hagree := (and_leadingMask_agreeOn (x := x) hn).mono h96
    rw [agreeOn_iff_toNat_div (by decide)] at hagree
    exact hx (hagree.symm.trans hmapped)
  · have hbit : (x &&& leadingMask 128 n).getMsbD 95 = false := by
      simp [getMsbD_leadingMask hn, show ¬95 < n by omega]
    rw [getMsbD_eq_testBit (by decide), Nat.testBit_eq_decide_div_mod_eq, hmapped] at hbit
    exact absurd hbit (by decide)

lemma unmapped_limitKey (ip : IpAddr) :
    unmapped (limitKey ip v4Bits v6Bits) = limitKey ip v4Bits v6Bits := by
  rw [limitKey_eq]
  cases hip : unmapped ip with
  | v4 x => rfl
  | v6 x =>
    have hx : x.toIpv4Mapped = none := by
      cases ip with
      | v4 y => cases hip
      | v6 y =>
        cases hy : y.toIpv4Mapped with
        | some v4 => simp [unmapped, hy] at hip
        | none =>
          obtain rfl : y = x := by simpa [unmapped, hy] using hip
          exact hy
    simp only [unmapped, masked_not_mapped (Nat.min_le_right v6Bits 128) hx]

lemma limitKey_eq_iff (a b : IpAddr) :
    limitKey a v4Bits v6Bits = limitKey b v4Bits v6Bits ↔ SamePrefix v4Bits v6Bits a b := by
  rw [limitKey_eq, limitKey_eq, SamePrefix]
  cases unmapped a with
  | v4 x =>
    cases unmapped b with
    | v4 y =>
      rw [IpAddr.v4.injEq, and_leadingMask_eq_iff (Nat.min_le_right v4Bits 32)]
    | v6 y => simp
  | v6 x =>
    cases unmapped b with
    | v4 y => simp
    | v6 y =>
      rw [IpAddr.v6.injEq, and_leadingMask_eq_iff (Nat.min_le_right v6Bits 128)]

lemma limitKey_idem (a : IpAddr) :
    limitKey (limitKey a v4Bits v6Bits) v4Bits v6Bits = limitKey a v4Bits v6Bits := by
  rw [limitKey_eq (limitKey a v4Bits v6Bits), unmapped_limitKey, limitKey_eq]
  cases unmapped a with
  | v4 x => simp only [and_leadingMask_twice]
  | v6 x => simp only [and_leadingMask_twice]

lemma limitKeyChecked_eq (a : IpAddr) :
    limitKeyChecked a v4Bits v6Bits = some (limitKey a v4Bits v6Bits) := by
  have hv4 := checkedMask_eq (Nat.min_le_right v4Bits 32)
  have hv6 := checkedMask_eq (Nat.min_le_right v6Bits 128)
  cases a with
  | v4 x =>
    simp only [limitKeyChecked, limitKey, hv4]
    split <;> rfl
  | v6 x =>
    cases h : x.toIpv4Mapped with
    | some v4 =>
      simp only [limitKeyChecked, limitKey, h, hv4]
      split <;> rfl
    | none =>
      simp only [limitKeyChecked, limitKey, h, hv6]
      split <;> rfl

end

/-! ### Rows selected through a lease -/

/-- Every granted lease holds the key of the address it was acquired for, and every live lease
was granted. -/
structure LeaseKeys (cfg : LimitsConfig) (trace : List (Call × Reply)) (s : LimitSystem) : Prop where
  granted : ∀ holder a dest now lease,
    (Call.acquire holder a dest now, Reply.lease (.ok lease)) ∈ trace →
      lease.ip = limitKey a cfg.ipv4Prefix cfg.ipv6Prefix
  live : ∀ held ∈ s.live, ∃ a dest now,
    (Call.acquire held.holder a dest now, Reply.lease (.ok held.lease)) ∈ trace

lemma acquire_lease_ip {g : Inner} {ip : IpAddr} {dest : Str} {now : Instant}
    {lease : ConnectionLease} (h : (g.acquire ip dest now).1 = .ok lease) : lease.ip = g.key ip := by
  rcases acquire_cases g ip dest now with ⟨e, he, -⟩ | ⟨hok, -⟩
  · rw [he] at h
    cases h
  · rw [hok] at h
    cases h
    rfl

lemma LeaseKeys.step {cfg : LimitsConfig} {trace : List (Call × Reply)} {s s' : LimitSystem}
    {c : Call} {r : Reply} (hcfg : s.limits.cfg = cfg) (h : LeaseKeys cfg trace s)
    (hs : s.step c = some (r, s')) : LeaseKeys cfg (trace ++ [(c, r)]) s' where
  granted holder a dest now lease hmem := by
    rcases List.mem_append.mp hmem with hmem | hmem
    · exact h.granted holder a dest now lease hmem
    · obtain ⟨rfl, rfl⟩ : Call.acquire holder a dest now = c ∧ Reply.lease (.ok lease) = r := by
        simpa using hmem
      rcases limitSystem_step_cases hs with ⟨_, _, _, hc, -⟩ | ⟨_, _, _, _, hc, -, hr, -⟩ |
        ⟨_, _, _, _, hc, -⟩ | ⟨_, _, hc, -⟩ <;> cases hc
      rw [acquire_lease_ip (Reply.lease.inj hr).symm, Inner.key, hcfg]
  live held hmem := by
    have hearlier (hold : held ∈ s.live) : ∃ a dest now,
        (Call.acquire held.holder a dest now, Reply.lease (.ok held.lease)) ∈ trace ++ [(c, r)] := by
      obtain ⟨a, dest, now, hin⟩ := h.live held hold
      exact ⟨a, dest, now, List.mem_append_left _ hin⟩
    rcases limitSystem_step_cases hs with ⟨_, _, _, -, -, -, rfl⟩ |
      ⟨holder, a, dest, now, rfl, -, rfl, rfl⟩ | ⟨_, _, _, _, -, -, -, -, rfl⟩ |
      ⟨_, _, -, -, -, -, rfl⟩
    · exact hearlier hmem
    · rcases List.mem_append.mp hmem with hold | hnew
      · exact hearlier hold
      · cases hreply : (s.limits.acquire a dest now).1 with
        | error e => simp [hreply, heldBy] at hnew
        | ok lease =>
          obtain rfl : held = ⟨holder, lease⟩ := by simpa [hreply, heldBy] using hnew
          exact ⟨a, dest, now, by simp⟩
    · exact hearlier hmem
    · exact hearlier (List.mem_of_mem_erase hmem)

lemma LeaseKeys.start (cfg : LimitsConfig) (t₀ : Instant) :
    LeaseKeys cfg [] (LimitSystem.start cfg t₀) where
  granted _ _ _ _ _ hmem := absurd hmem List.not_mem_nil
  live _ hmem := absurd hmem List.not_mem_nil

lemma LeaseKeys.of_runs {cfg : LimitsConfig} {t₀ : Instant} {trace : List (Call × Reply)}
    {s : LimitSystem} (hrun : LimitRuns cfg t₀ trace s) : LeaseKeys cfg trace s := by
  apply hrun.reachable_invariant (LeaseKeys.start cfg t₀)
  intro trace s c r s' hr h hs
  exact h.step (LeaseLedger.of_runs hr).cfg_eq hs

theorem limit_key_projection :
    (∀ (v4Bits v6Bits : ℕ) (a b : IpAddr),
      limitKey a v4Bits v6Bits = limitKey b v4Bits v6Bits ↔ SamePrefix v4Bits v6Bits a b) ∧
    (∀ (v4Bits v6Bits : ℕ) (a : IpAddr),
      limitKey (limitKey a v4Bits v6Bits) v4Bits v6Bits = limitKey a v4Bits v6Bits) ∧
    (∀ (v4Bits v6Bits : ℕ) (a : IpAddr),
      limitKeyChecked a v4Bits v6Bits = some (limitKey a v4Bits v6Bits)) ∧
    (∀ (cfg : LimitsConfig) (t₀ : Instant) (trace : List (Call × Reply)) (s : LimitSystem),
      LimitRuns cfg t₀ trace s → ∀ held ∈ s.live, ∃ a dest now,
        (Call.acquire held.holder a dest now, Reply.lease (.ok held.lease)) ∈ trace ∧
        ∀ b, SamePrefix cfg.ipv4Prefix cfg.ipv6Prefix a b →
          s.limits.key b = held.lease.ip ∧
          s.limits.perIp.lookup (s.limits.key b) = s.limits.perIp.lookup held.lease.ip) := by
  refine ⟨fun v4Bits v6Bits => limitKey_eq_iff, fun v4Bits v6Bits => limitKey_idem,
    fun v4Bits v6Bits => limitKeyChecked_eq, ?_⟩
  intro cfg t₀ trace s hrun held hheld
  have hkeys := LeaseKeys.of_runs hrun
  obtain ⟨a, dest, now, hmem⟩ := hkeys.live held hheld
  refine ⟨a, dest, now, hmem, ?_⟩
  intro b hsame
  have hkey : s.limits.key b = held.lease.ip := by
    rw [hkeys.granted held.holder a dest now held.lease hmem, Inner.key,
      (LeaseLedger.of_runs hrun).cfg_eq]
    exact ((limitKey_eq_iff a b).mpr hsame).symm
  exact ⟨hkey, by rw [hkey]⟩

/-- A lease of `2001:db8::1` is on the row of `2001:db8::2`. -/
theorem limit_key_projection_slash64 :
    ∃ trace s held, LimitRuns {} 0 trace s ∧ held ∈ s.live ∧
      s.limits.key (.v6 (.new 0x2001 0xdb8 0 0 0 0 0 2)) = held.lease.ip := by
  let a : IpAddr := .v6 (.new 0x2001 0xdb8 0 0 0 0 0 1)
  obtain ⟨trace, s, held, hrun, hheld, hacquired⟩ : ∃ trace s held, LimitRuns {} 0 trace s ∧
      held ∈ s.live ∧ ∀ a' dest now,
        (Call.acquire held.holder a' dest now, Reply.lease (.ok held.lease)) ∈ trace → a' = a := by
    refine ⟨_, _, ⟨0, limitKey a 32 64, []⟩, Runs.of_inputs [.acquire 0 a [] 0] rfl,
      List.mem_singleton.mpr rfl, ?_⟩
    intro a' dest now hmem
    cases List.mem_singleton.mp hmem
    rfl
  obtain ⟨a', dest, now, hmem, hrows⟩ := limit_key_projection.2.2.2 {} 0 trace s hrun held hheld
  obtain rfl := hacquired a' dest now hmem
  exact ⟨trace, s, held, hrun, hheld, (hrows _ ((limitKey_eq_iff _ _).mp (by decide))).1⟩

end WsTcpProxy.Proofs
