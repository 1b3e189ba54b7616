import WsTcpProxy.Proofs.AddrGrammar
import Mathlib.Data.Nat.Digits.Defs

/-!
# The texts of the loose IPv4 parser

The grammar of `parse_loose_ipv4`: one to four numerals in three radices, with positional values.
-/

namespace WsTcpProxy.Proofs

/-- The value of `s` in base `radix` is `n`. -/
def Positional (radix : ℕ) (s : Str) (n : ℕ) : Prop :=
  ∃ digits, List.Forall₂ (fun c d => toDigit radix c = some d) s digits ∧
    n = Nat.ofDigits radix digits.reverse

/-- The numerals of `inet_aton`. -/
inductive Numeral : Str → ℕ → Prop
  | hex {mark : Char} {s : Str} {n : ℕ} (hmark : mark = 'x' ∨ mark = 'X') (hne : s ≠ [])
      (hvalue : Positional 16 s n) : Numeral ('0' :: mark :: s) n
  | octal {s : Str} {n : ℕ} (hne : s ≠ []) (hvalue : Positional 8 s n) : Numeral ('0' :: s) n
  | decimal {s : Str} {n : ℕ} (hne : s ≠ []) (hzero : s.head? = some '0' → s = ['0'])
      (hvalue : Positional 10 s n) : Numeral s n

lemma digitsFrom_eq_some {radix acc n : ℕ} {s : Str} :
    digitsFrom radix acc s = some n ↔
      ∃ digits, List.Forall₂ (fun c d => toDigit radix c = some d) s digits ∧
        n = Nat.ofDigits radix digits.reverse + radix ^ digits.length * acc := by
  induction s generalizing acc with
  | nil => simp [digitsFrom, eq_comm]
  | cons c s ih =>
    rw [digitsFrom]
    cases hc : toDigit radix c with
    | none =>
      constructor
      · rintro ⟨⟩
      · rintro ⟨_, _ | ⟨hd, -⟩, -⟩
        rw [hc] at hd
        cases hd
    | some d =>
      have hvalue (digits : List ℕ) :
          Nat.ofDigits radix (d :: digits).reverse + radix ^ (d :: digits).length * acc =
            Nat.ofDigits radix digits.reverse + radix ^ digits.length * (acc * radix + d) := by
        rw [List.reverse_cons, Nat.ofDigits_append, Nat.ofDigits_singleton, List.length_reverse,
          List.length_cons]
        ring
      dsimp only
      rw [ih]
      constructor
      · rintro ⟨digits, hdigits, rfl⟩
        exact ⟨d :: digits, .cons hc hdigits, (hvalue digits).symm⟩
      · rintro ⟨_, hdigits, rfl⟩
        obtain _ | ⟨hd, hdigits⟩ := hdigits
        rw [hc] at hd
        cases hd
        exact ⟨_, hdigits, hvalue _⟩

lemma digitsFrom_zero_eq_some {radix n : ℕ} {s : Str} :
    digitsFrom radix 0 s = some n ↔ Positional radix s n := by
  rw [digitsFrom_eq_some, Positional]
  simp only [Nat.mul_zero, Nat.add_zero]

lemma Positional.head_isSome {radix n : ℕ} {c : Char} {s : Str} (h : Positional radix (c :: s) n) :
    (toDigit radix c).isSome := by
  obtain ⟨_, _ | ⟨hd, -⟩, -⟩ := h
  exact Option.isSome_of_eq_some hd

lemma numeral_hex {mark : Char} {hex : Str} {n : ℕ} (hmark : mark = 'x' ∨ mark = 'X') :
    numeral ('0' :: mark :: hex) = some n ↔ Numeral ('0' :: mark :: hex) n := by
  have hnum : numeral ('0' :: mark :: hex) = if hex = [] then none else digitsFrom 16 0 hex := by
    obtain rfl | rfl := hmark <;> rfl
  rw [hnum]
  constructor
  · intro h
    split_ifs at h with hne
    exact .hex hmark hne (digitsFrom_zero_eq_some.1 h)
  · intro h
    cases h with
    | hex _ hne hvalue =>
      rw [if_neg hne]
      exact digitsFrom_zero_eq_some.2 hvalue
    | octal _ hvalue =>
      have hdigit := hvalue.head_isSome
      obtain rfl | rfl := hmark <;> cases hdigit
    | decimal _ hzero _ => cases hzero rfl

/-- `numeral` is a reader of the grammar. -/
lemma numeral_eq_some {s : Str} {n : ℕ} : numeral s = some n ↔ Numeral s n := by
  cases s with
  | nil =>
    constructor
    · rintro ⟨⟩
    · rintro (_ | _ | ⟨hne, _, _⟩)
      cases hne rfl
  | cons c s =>
    by_cases hc : c = '0'
    · subst hc
      by_cases hx : ∃ mark hex, (mark = 'x' ∨ mark = 'X') ∧ s = mark :: hex
      · obtain ⟨mark, hex, hmark, rfl⟩ := hx
        exact numeral_hex hmark
      · rw [numeral_octal (fun hex h => hx ⟨_, hex, .inl rfl, h⟩)
          (fun hex h => hx ⟨_, hex, .inr rfl, h⟩)]
        constructor
        · intro h
          by_cases hne : s = []
          · subst hne
            cases h
            exact .decimal (by simp) (fun _ => rfl) (digitsFrom_zero_eq_some.1 rfl)
          · exact .octal hne (digitsFrom_zero_eq_some.1 h)
        · intro h
          cases h with
          | hex hmark => exact absurd ⟨_, _, hmark, rfl⟩ hx
          | octal _ hvalue => exact digitsFrom_zero_eq_some.2 hvalue
          | decimal _ hzero hvalue =>
            cases hzero rfl
            have hdigits := digitsFrom_zero_eq_some.2 hvalue
            rwa [digitsFrom_zero_cons 10 (by omega)] at hdigits
    · rw [numeral_decimal hc, digitsFrom_zero_eq_some]
      have hhead : (c :: s).head? ≠ some '0' := by simpa using hc
      constructor
      · intro h
        exact .decimal (by simp) (fun h0 => absurd h0 hhead) h
      · intro h
        cases h with
        | hex => cases hc rfl
        | octal => cases hc rfl
        | decimal _ _ hvalue => exact hvalue

lemma mapM_numeral_eq_some {parts : List Str} {nums : List ℕ} :
    parts.mapM numeral = some nums ↔ List.Forall₂ Numeral parts nums := by
  induction parts generalizing nums with
  | nil => simp [eq_comm]
  | cons part parts ih =>
    rw [List.mapM_cons]
    constructor
    · intro h
      obtain ⟨n, hn, h⟩ := Option.bind_eq_some_iff.1 h
      obtain ⟨rest, hrest, h⟩ := Option.bind_eq_some_iff.1 h
      cases h
      exact .cons (numeral_eq_some.1 hn) (ih.1 hrest)
    · rintro (_ | ⟨hn, hrest⟩)
      rw [numeral_eq_some.2 hn, ih.2 hrest]
      rfl

lemma placed_two (a b p q r : ℕ) :
    (List.zipWith (· * ·) [a, b] [p, q, r]).sum = a * p + b * q := by
  simp

lemma placed_three (a b c p q r : ℕ) :
    (List.zipWith (· * ·) [a, b, c] [p, q, r]).sum = a * p + b * q + c * r := by
  simp [Nat.add_assoc]

lemma leadingBytes_eq_sum {bytes : List ℕ} (h : bytes.length < 4) :
    leadingBytes 4 bytes = (List.zipWith (· * ·) bytes [2 ^ 24, 2 ^ 16, 2 ^ 8]).sum := by
  match bytes, h with
  | [], _ => rfl
  | [a], _ => simp [leadingBytes]
  | [a, b], _ => rw [leadingBytes_two, placed_two]
  | [a, b, c], _ => rw [leadingBytes_three, placed_three]

lemma inetAton_eq_some {s : Str} {addr : ℕ} :
    inetAton s = some addr ↔ ∃ bytes last, List.Forall₂ Numeral (s.splitOn '.') (bytes ++ [last]) ∧
      bytes.length < 4 ∧ (∀ b ∈ bytes, b ≤ 255) ∧ last < 256 ^ (4 - bytes.length) ∧
      addr = leadingBytes 4 bytes + last := by
  rw [inetAton, Option.bind_eq_some_iff]
  simp only [mapM_numeral_eq_some]
  constructor
  · rintro ⟨nums, hnums, haddr⟩
    cases nums using List.reverseRecOn with
    | nil => cases haddr
    | append_singleton bytes last =>
      rw [dottedAddr_concat] at haddr
      split_ifs at haddr with hrange
      cases haddr
      exact ⟨bytes, last, hnums, hrange.1, hrange.2.1, hrange.2.2, rfl⟩
  · rintro ⟨bytes, last, hnums, hlen, hbytes, hlast, rfl⟩
    refine ⟨bytes ++ [last], hnums, ?_⟩
    rw [dottedAddr_concat, if_pos ⟨hlen, hbytes, hlast⟩]

/-- The bytes and what may still be added below them fit in `n` bytes. -/
lemma leadingBytes_add_le {n : ℕ} {bytes : List ℕ} (hlen : bytes.length ≤ n)
    (hbytes : ∀ b ∈ bytes, b ≤ 255) : leadingBytes n bytes + 256 ^ (n - bytes.length) ≤ 256 ^ n := by
  induction bytes generalizing n with
  | nil => simp [leadingBytes_nil]
  | cons a bytes ih =>
    rw [List.length_cons] at hlen
    rw [List.forall_mem_cons] at hbytes
    obtain ⟨ha, hrest⟩ := hbytes
    have hn : n = n - 1 + 1 := by omega
    have hsub : n - (a :: bytes).length = n - 1 - bytes.length := by
      rw [List.length_cons]
      omega
    rw [leadingBytes_cons, hsub, Nat.add_assoc]
    calc a * 256 ^ (n - 1) + (leadingBytes (n - 1) bytes + 256 ^ (n - 1 - bytes.length))
        ≤ a * 256 ^ (n - 1) + 256 ^ (n - 1) := Nat.add_le_add_left (ih (by omega) hrest) _
      _ = (a + 1) * 256 ^ (n - 1) := by ring
      _ ≤ 256 * 256 ^ (n - 1) := Nat.mul_le_mul_right _ (by omega)
      _ = 256 ^ (n - 1 + 1) := by ring
      _ = 256 ^ n := by rw [← hn]

lemma inetAton_lt {s : Str} {addr : ℕ} (h : inetAton s = some addr) : addr < 2 ^ 32 := by
  obtain ⟨bytes, last, -, hlen, hbytes, hlast, rfl⟩ := inetAton_eq_some.1 h
  calc leadingBytes 4 bytes + last
      < leadingBytes 4 bytes + 256 ^ (4 - bytes.length) := Nat.add_lt_add_left hlast _
    _ ≤ 256 ^ 4 := leadingBytes_add_le hlen.le hbytes
    _ = 2 ^ 32 := by norm_num

/-- The texts that `parse_loose_ipv4` is meant to read, with the number of the address. -/
def LooseText (s : Str) (addr : ℕ) : Prop :=
  (1 ≤ utf8Len s ∧ utf8Len s ≤ 32) ∧ (s.splitOn '.').length ≤ 4 ∧
  ∃ bytes last, List.Forall₂ Numeral (s.splitOn '.') (bytes ++ [last]) ∧ (∀ b ∈ bytes, b ≤ 255) ∧
    last < 256 ^ (5 - (s.splitOn '.').length) ∧
    addr = (List.zipWith (· * ·) bytes [2 ^ 24, 2 ^ 16, 2 ^ 8]).sum + last

lemma looseText_iff {s : Str} {addr : ℕ} :
    LooseText s addr ↔ utf8Len s ≤ 32 ∧ inetAton s = some addr := by
  rw [LooseText, inetAton_eq_some]
  constructor
  · rintro ⟨⟨-, hlen⟩, hcount, bytes, last, hnums, hbytes, hlast, rfl⟩
    have hparts := hnums.length_eq
    rw [List.length_append, List.length_singleton] at hparts
    rw [hparts] at hcount hlast
    refine ⟨hlen, bytes, last, hnums, by omega, hbytes, ?_, ?_⟩
    · rwa [show 5 - (bytes.length + 1) = 4 - bytes.length by omega] at hlast
    · rw [leadingBytes_eq_sum (by omega)]
  · rintro ⟨hlen, bytes, last, hnums, hcount, hbytes, hlast, rfl⟩
    have hparts := hnums.length_eq
    rw [List.length_append, List.length_singleton] at hparts
    have hne : s ≠ [] := by
      rintro rfl
      have haddr := inetAton_eq_some.2 ⟨bytes, last, hnums, hcount, hbytes, hlast, rfl⟩
      exact numeral_isSome_ne_nil ((inetAton_parts haddr).2 [] (by simp)) rfl
    have hpos : 1 ≤ s.length := List.length_pos_iff.2 hne
    have := length_le_utf8Len s
    refine ⟨⟨by omega, hlen⟩, by omega, bytes, last, hnums, hbytes, ?_, ?_⟩
    · rwa [hparts, show 5 - (bytes.length + 1) = 4 - bytes.length by omega]
    · rw [leadingBytes_eq_sum hcount]

lemma inetAton_map_eq_some {s : Str} {a : Ipv4Addr} :
    (inetAton s).map (BitVec.ofNat 32) = some a ↔ inetAton s = some a.toNat := by
  rw [Option.map_eq_some_iff]
  constructor
  · rintro ⟨addr, haddr, rfl⟩
    rw [haddr, BitVec.toNat_ofNat, Nat.mod_eq_of_lt (inetAton_lt haddr)]
  · intro h
    exact ⟨_, h, BitVec.eq_of_toNat_eq (by simp)⟩

/-- `parse_loose_ipv4` is `inet_aton`, with no bits of the address lost, and extends the
standard IPv4 parser. -/
theorem parseLooseIpv4_inetAton (s : Str) :
    (∀ a, parseLooseIpv4 s = some a ↔ LooseText s a.toNat) ∧
    (parseLooseIpv4 s = none ↔ ∀ addr, ¬ LooseText s addr) ∧
    ∀ ip, readIpv4Addr s = some (ip, []) → parseLooseIpv4 s = some ip := by
  simp only [looseText_iff, parseLooseIpv4_eq]
  refine ⟨?_, ?_, ?_⟩
  · intro a
    split_ifs with hlen
    · rw [inetAton_map_eq_some, and_iff_right hlen]
    · simp [hlen]
  · split_ifs with hlen
    · simp [hlen, Option.eq_none_iff_forall_ne_some]
    · simp [hlen]
  · intro ip hip
    obtain ⟨haddr, hlen⟩ := inetAton_of_ipv4 hip
    rw [if_pos (by omega), haddr]

theorem parseLooseIpv4_inetAton_loopback :
    LooseText "0x7f.1".toList 0x7f000001 ∧
    readIpv4Addr "127.0.0.1".toList = some (0x7f000001, []) ∧
    parseLooseIpv4 "127.0.0.1".toList = some 0x7f000001 := by
  have hstd : readIpv4Addr "127.0.0.1".toList = some (0x7f000001, []) := by decide +kernel
  have hloose : parseLooseIpv4 "0x7f.1".toList = some 0x7f000001 := by decide +kernel
  exact ⟨((parseLooseIpv4_inetAton _).1 _).1 hloose, hstd, (parseLooseIpv4_inetAton _).2.2 _ hstd⟩

end WsTcpProxy.Proofs
