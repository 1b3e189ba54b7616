import WsTcpProxy.Proofs.LooseIpv4
import Mathlib.Data.List.TakeWhile

/-!
# Texts of the standard address parser

An IPv4 text of the standard parser is an `inet_aton` text of the same address, and an IPv6
text contains a colon.
-/

namespace WsTcpProxy.Proofs

lemma utf8Len_digits {s : Str} (h : ∀ c ∈ s, (toDigit 10 c).isSome) : utf8Len s = s.length := by
  apply utf8Len_ascii
  intro c hc
  have := (toDigit_isSome_iff (by omega) c).1 (h c hc)
  omega

/-- What `readNumber` reads: a bounded run of digits, and its value. -/
lemma readNumber_spec {radix maxDigits max v : Nat} {allowZeroPrefix : Bool} {s rest : Str}
    (h : readNumber radix maxDigits max allowZeroPrefix s = some (v, rest)) :
    ∃ digits, s = digits ++ rest ∧ digits ≠ [] ∧ digits.length ≤ maxDigits ∧
      (∀ c ∈ digits, (toDigit radix c).isSome) ∧ digitsFrom radix 0 digits = some v ∧ v ≤ max ∧
      (allowZeroPrefix = false → digits.head? = some '0' → digits = ['0']) := by
  unfold readNumber at h
  dsimp only at h
  set digits := s.takeWhile fun c => (toDigit radix c).isSome with hdigits
  have hs : digits ++ s.drop digits.length = s :=
    List.prefix_iff_eq_append.1 ( List.takeWhile_prefix _)
  have hall : ∀ c ∈ digits, (toDigit radix c).isSome := by
    intro c hc
    exact List.mem_takeWhile_imp (p := fun c => (toDigit radix c).isSome) hc
  have hval : (digitsFrom radix 0 digits).isSome := by
    rw [digitsFrom_isSome, List.all_eq_true]
    exact hall
  obtain ⟨value, hvalue⟩ := Option.isSome_iff_exists.1 hval
  rw [hvalue, Option.getD_some] at h
  split at h
  · cases h
  rename_i hlen
  split at h
  · cases h
  rename_i hzero
  split at h
  · cases h
  rename_i hmax
  obtain ⟨rfl, rfl⟩ : value = v ∧ s.drop digits.length = rest := by simpa using h
  refine ⟨digits, hs.symm, fun h => hlen (.inl h), by omega, hall, hvalue, by omega, ?_⟩
  intro hallow hhead
  have hone : ¬ 1 < digits.length := by simpa [hallow, hhead] using hzero
  match hd : digits with
  | [] => simp at hhead
  | [c] => simpa using hhead
  | _ :: _ :: _ => simp at hone

lemma readGivenChar_spec {c : Char} {s rest : Str} (h : readGivenChar c s = some ((), rest)) :
    s = c :: rest := by
  cases s with
  | nil => cases h
  | cons d s =>
    rw [readGivenChar] at h
    split at h
    · rename_i hd
      cases h
      rw [hd]
    · cases h

lemma readSeparator_spec {α : Type} {sep : Char} {inner : Reader α} {a : α} {s rest : Str}
    (h : readSeparator sep false inner s = some (a, rest)) :
    ∃ t, s = sep :: t ∧ inner t = some (a, rest) := by
  unfold readSeparator at h
  rw [if_neg (by simp)] at h
  split at h
  · rename_i t ht
    exact ⟨t, readGivenChar_spec ht, h⟩
  · cases h

/-! ### IPv4 -/

/-- A run of digits that `read_ipv4_addr` takes for an octet. -/
structure OctetText (digits : Str) (v : Nat) : Prop where
  length : digits.length ≤ 3
  chars : ∀ c ∈ digits, (toDigit 10 c).isSome
  value : numeral digits = some v
  le : v ≤ 255

lemma readNumber_octet {s rest : Str} {v : Nat} (h : readNumber 10 3 255 false s = some (v, rest)) :
    ∃ digits, s = digits ++ rest ∧ OctetText digits v := by
  obtain ⟨digits, hs, hne, hlen, hchars, hvalue, hle, hzero⟩ := readNumber_spec h
  refine ⟨digits, hs, hlen, hchars, ?_, hle⟩
  cases digits with
  | nil => exact absurd rfl hne
  | cons c digits =>
    by_cases hc : c = '0'
    · have hone := hzero rfl (by rw [hc]; rfl)
      rw [hone] at hvalue ⊢
      exact hvalue
    · rw [numeral_decimal hc]
      exact hvalue

lemma OctetText.dot_notMem {digits : Str} {v : Nat} (h : OctetText digits v) : '.' ∉ digits := by
  intro hdot
  exact absurd (h.chars '.' hdot) (by decide)

lemma readIpv4Addr_spec {s rest : Str} {ip : Ipv4Addr} (h : readIpv4Addr s = some (ip, rest)) :
    ∃ A B C D a b c d, s = A ++ '.' :: (B ++ '.' :: (C ++ '.' :: (D ++ rest))) ∧
      OctetText A a ∧ OctetText B b ∧ OctetText C c ∧ OctetText D d ∧
      ip = Ipv4Addr.new (.ofNat 8 a) (.ofNat 8 b) (.ofNat 8 c) (.ofNat 8 d) := by
  unfold readIpv4Addr at h
  simp only [Option.bind_eq_bind, Option.bind_eq_some_iff, Prod.exists, Option.pure_def,
    Option.some.injEq, Prod.mk.injEq] at h
  obtain ⟨a, s1, h1, b, s2, h2, c, s3, h3, d, s4, h4, rfl, rfl⟩ := h
  obtain ⟨A, rfl, hA⟩ := readNumber_octet (h1 : readNumber 10 3 255 false s = _)
  obtain ⟨t2, rfl, h2⟩ := readSeparator_spec h2
  obtain ⟨B, rfl, hB⟩ := readNumber_octet h2
  obtain ⟨t3, rfl, h3⟩ := readSeparator_spec h3
  obtain ⟨C, rfl, hC⟩ := readNumber_octet h3
  obtain ⟨t4, rfl, h4⟩ := readSeparator_spec h4
  obtain ⟨D, rfl, hD⟩ := readNumber_octet h4
  exact ⟨A, B, C, D, a, b, c, d, rfl, hA, hB, hC, hD, rfl⟩

lemma append_ofNat {m n a b : Nat} (hb : b < 2 ^ n) :
    BitVec.ofNat m a ++ BitVec.ofNat n b = BitVec.ofNat (m + n) (a * 2 ^ n + b) := by
  apply BitVec.eq_of_toNat_eq
  rw [BitVec.toNat_append, BitVec.toNat_ofNat, BitVec.toNat_ofNat, BitVec.toNat_ofNat,
    Nat.mod_eq_of_lt hb, ← Nat.shiftLeft_add_eq_or_of_lt hb, Nat.shiftLeft_eq, Nat.pow_add,
    Nat.mul_comm (2 ^ m), Nat.mul_comm a, Nat.mod_mul, Nat.mul_add_mod, Nat.mod_eq_of_lt hb,
    Nat.mul_add_div (Nat.two_pow_pos n), Nat.div_eq_of_lt hb, Nat.add_zero, Nat.mul_comm, Nat.add_comm]

lemma new_ofNat {a b c d : Nat} (hb : b ≤ 255) (hc : c ≤ 255) (hd : d ≤ 255) :
    Ipv4Addr.new (.ofNat 8 a) (.ofNat 8 b) (.ofNat 8 c) (.ofNat 8 d) =
      BitVec.ofNat 32 (a * 2 ^ 24 + b * 2 ^ 16 + c * 2 ^ 8 + d) := by
  have hsum : ((a * 2 ^ 8 + b) * 2 ^ 8 + c) * 2 ^ 8 + d =
      a * 2 ^ 24 + b * 2 ^ 16 + c * 2 ^ 8 + d := by
    omega
  rw [Ipv4Addr.new, append_ofNat (by omega), append_ofNat (by omega), append_ofNat (by omega), hsum]

/-- A text of the standard IPv4 parser is an `inet_aton` text, of at most 15 bytes. -/
lemma inetAton_of_ipv4 {s : Str} {ip : Ipv4Addr} (h : readIpv4Addr s = some (ip, [])) :
    (inetAton s).map (BitVec.ofNat 32) = some ip ∧ utf8Len s ≤ 15 := by
  obtain ⟨A, B, C, D, a, b, c, d, rfl, hA, hB, hC, hD, rfl⟩ := readIpv4Addr_spec h
  rw [List.append_nil]
  constructor
  · have hparts : (A ++ '.' :: (B ++ '.' :: (C ++ '.' :: D))).splitOn '.' = [A, B, C, D] := by
      rw [List.splitOn_append_cons_self_of_not_mem hA.dot_notMem,
        List.splitOn_append_cons_self_of_not_mem hB.dot_notMem,
        List.splitOn_append_cons_self_of_not_mem hC.dot_notMem,
        List.splitOn_eq_singleton hD.dot_notMem]
    have hnums : [A, B, C, D].mapM numeral = some [a, b, c, d] := by
      simp [hA.value, hB.value, hC.value, hD.value]
    have hd : d < 256 := by
      have := hD.le
      omega
    have hrange : [a, b, c].length < 4 ∧ (∀ n ∈ [a, b, c], n ≤ 255) ∧
        d < 256 ^ (4 - [a, b, c].length) := by
      simp [hA.le, hB.le, hC.le, hd]
    rw [inetAton, hparts, hnums, Option.bind_some, show [a, b, c, d] = [a, b, c] ++ [d] from rfl,
      dottedAddr_concat, if_pos hrange, leadingBytes_three, new_ofNat hB.le hC.le hD.le,
      Option.map_some]
  · have hdot : Char.utf8Size '.' = 1 := rfl
    have h1 := hA.length
    have h2 := hB.length
    have h3 := hC.length
    have h4 := hD.length
    simp only [utf8Len_append, utf8Len_cons, utf8Len_digits hA.chars, utf8Len_digits hB.chars,
      utf8Len_digits hC.chars, utf8Len_digits hD.chars, hdot]
    omega

/-! ### IPv6 -/

lemma readSeparator_suffix {α : Type} {sep : Char} {first : Bool} {inner : Reader α} {a : α}
    {s rest : Str} (hinner : ∀ t rest, inner t = some (a, rest) → rest <:+ t)
    (h : readSeparator sep first inner s = some (a, rest)) :
    ∃ text, s = text ++ rest ∧ (first = false → sep ∈ text) := by
  cases first with
  | true =>
    obtain ⟨text, htext⟩ := hinner s rest h
    exact ⟨text, htext.symm, by simp⟩
  | false =>
    obtain ⟨t, rfl, ht⟩ := readSeparator_spec h
    obtain ⟨text, htext⟩ := hinner t rest ht
    exact ⟨sep :: text, by rw [← htext]; rfl, fun _ => List.mem_cons_self⟩

lemma readNumber_suffix {radix maxDigits max v : Nat} {allowZeroPrefix : Bool} (s rest : Str)
    (h : readNumber radix maxDigits max allowZeroPrefix s = some (v, rest)) : rest <:+ s := by
  obtain ⟨digits, hs, -⟩ := readNumber_spec h
  exact ⟨digits, hs.symm⟩

lemma readIpv4Addr_suffix {ip : Ipv4Addr} (s rest : Str) (h : readIpv4Addr s = some (ip, rest)) :
    rest <:+ s := by
  obtain ⟨A, B, C, D, a, b, c, d, rfl, -⟩ := readIpv4Addr_spec h
  exact ⟨A ++ '.' :: (B ++ '.' :: (C ++ '.' :: D)), by simp⟩

/-- Every group but the first comes with a colon; one group more than an embedded IPv4 address
fills is therefore read with one. -/
lemma readGroups_spec (left : Nat) (first : Bool) (s : Str) :
    ∃ text, s = text ++ (readGroups left first s).2.2 ∧
      (first = false → (readGroups left first s).1 ≠ [] → ':' ∈ text) ∧
      (3 ≤ (readGroups left first s).1.length → ':' ∈ text) := by
  induction left generalizing first s with
  | zero => exact ⟨[], by simp [readGroups], by simp [readGroups], by simp [readGroups]⟩
  | succ left ih =>
    rw [readGroups]
    split
    · rename_i v4 rest hv4
      split at hv4
      · cases hv4
      · obtain ⟨text, hs, hcolon⟩ := readSeparator_suffix readIpv4Addr_suffix hv4
        exact ⟨text, hs, fun hf _ => hcolon hf, by simp⟩
    · split
      · rename_i group rest hgroup
        obtain ⟨text, hs, hcolon⟩ := readSeparator_suffix readNumber_suffix hgroup
        obtain ⟨tail, hrest, hfirst, -⟩ := ih false rest
        refine ⟨text ++ tail, ?_, ?_, ?_⟩
        · rw [List.append_assoc, ← hrest]
          exact hs
        · intro hf _
          exact List.mem_append_left _ (hcolon hf)
        · intro hlen
          refine List.mem_append_right _ (hfirst rfl ?_)
          intro hnil
          simp only [hnil, List.length_cons, List.length_nil] at hlen
          omega
      · exact ⟨[], rfl, by simp, by simp⟩

lemma colon_mem_of_ipv6 {s : Str} {ip : Ipv6Addr} {rest : Str}
    (h : readIpv6Addr s = some (ip, rest)) : ':' ∈ s := by
  unfold readIpv6Addr at h
  obtain ⟨text, hs, -, hthree⟩ := readGroups_spec 8 true s
  split at h
  rename_i head headIpv4 s' hread
  rw [hread] at hs hthree
  rw [hs]
  split at h
  · rename_i hlen
    exact List.mem_append_left _ (hthree (by dsimp only; omega))
  · split at h
    · cases h
    · cases hcolon : readGivenChar ':' s' with
      | none => simp [hcolon] at h
      | some r =>
        rw [readGivenChar_spec hcolon]
        simp

/-- A text that the standard parser reads is an `inet_aton` text of at most 15 bytes, or it
contains a colon. -/
lemma parseIpAddr_cases {s : Str} (h : (parseIpAddr s).isSome) :
    ((inetAton s).isSome ∧ utf8Len s ≤ 15) ∨ ':' ∈ s := by
  unfold parseIpAddr readIpAddr at h
  cases hv4 : readIpv4Addr s with
  | some r =>
    obtain ⟨ip, rest⟩ := r
    cases rest with
    | cons c rest => simp [hv4] at h
    | nil =>
      obtain ⟨haddr, hlen⟩ := inetAton_of_ipv4 hv4
      refine .inl ⟨?_, hlen⟩
      rw [← Option.isSome_map, haddr]
      rfl
  | none =>
    cases hv6 : readIpv6Addr s with
    | none => simp [hv4, hv6] at h
    | some r => exact .inr (colon_mem_of_ipv6 hv6)

lemma readIpv4Addr_of_parse {s : Str} {ip : Ipv4Addr} (h : parseIpAddr s = some (.v4 ip)) :
    readIpv4Addr s = some (ip, []) := by
  unfold parseIpAddr readIpAddr at h
  cases hv4 : readIpv4Addr s with
  | some r =>
    obtain ⟨addr, rest⟩ := r
    cases rest with
    | cons c rest => simp [hv4] at h
    | nil =>
      have haddr : addr = ip := by simpa [hv4] using h
      rw [haddr]
  | none =>
    cases hv6 : readIpv6Addr s with
    | none => simp [hv4, hv6] at h
    | some r =>
      obtain ⟨addr, rest⟩ := r
      cases rest <;> simp [hv4, hv6] at h

end WsTcpProxy.Proofs
