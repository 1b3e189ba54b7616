import WsTcpProxy.InetAton
import WsTcpProxy.Proofs.TextLemmas

/-!
# The loose IPv4 parser reads `inet_aton` texts

Within 32 bytes `parseLooseIpv4` is `inetAton`: its components are the numerals that fit in
32 bits, and a numeral that does not fit is out of range in every position.
-/

namespace WsTcpProxy.Proofs

lemma digitsFrom_eq_none {radix acc : Nat} {s : Str}
    (h : s.all (fun c => (toDigit radix c).isSome) = false) : digitsFrom radix acc s = none := by
  rw [← digitsFrom_isSome radix acc] at h
  simpa using h

/-- A guard on the digits followed by `from_str_radix` reads the value of the digits. -/
lemma guarded_parseU32 (radix : Nat) (hradix : radix ≤ 16) {s : Str} (hs : s ≠ []) :
    (if !s.all (fun c => (toDigit radix c).isSome) then none else parseU32 radix s) =
      (digitsFrom radix 0 s).filter (· ≤ 2 ^ 32 - 1) := by
  cases hall : s.all fun c => (toDigit radix c).isSome with
  | false =>
    rw [digitsFrom_eq_none hall]
    rfl
  | true =>
    rw [parseU32, fromStrRadix_digits hradix hs (List.all_eq_true.1 hall)]
    rfl

lemma numeral_decimal {c : Char} (hc : c ≠ '0') (s : Str) :
    numeral (c :: s) = digitsFrom 10 0 (c :: s) := by
  unfold numeral
  split <;> simp_all

lemma numeral_octal {s : Str} (hx : ∀ hex, s ≠ 'x' :: hex) (hX : ∀ hex, s ≠ 'X' :: hex) :
    numeral ('0' :: s) = digitsFrom 8 0 s := by
  unfold numeral
  split <;> simp_all

lemma digitsFrom_zero_cons (radix : Nat) (hradix : 0 < radix) (s : Str) :
    digitsFrom radix 0 ('0' :: s) = digitsFrom radix 0 s := by
  have hzero : toDigit radix '0' = some 0 := by
    rw [toDigit_eq]
    simp [hradix]
  rw [digitsFrom, hzero]
  simp

lemma all_isAsciiDigit (s : Str) : s.all isAsciiDigit = s.all fun c => (toDigit 10 c).isSome := by
  congr 1
  funext c
  exact (toDigit_decimal c).symm

lemma all_octal (s : Str) :
    (s.all fun c => '0' ≤ c && c ≤ '7') = s.all fun c => (toDigit 8 c).isSome := by
  congr 1
  funext c
  exact (toDigit_octal c).symm

/-- The branches of `parseIpv4Component` after the test for a hexadecimal numeral. -/
lemma component_of_not_hex {s : Str} (hs : s ≠ [])
    (hhex : (stripPrefix "0x".toList s <|> stripPrefix "0X".toList s) = none) :
    parseIpv4Component s =
      if 1 < utf8Len s && s.head? == some '0' then
        (digitsFrom 8 0 s).filter (· ≤ 2 ^ 32 - 1)
      else (digitsFrom 10 0 s).filter (· ≤ 2 ^ 32 - 1) := by
  have hempty : s.isEmpty = false := by simpa using hs
  have hoct := guarded_parseU32 8 (by omega) hs
  have hdec := guarded_parseU32 10 (by omega) hs
  unfold parseIpv4Component
  rw [hempty, hhex]
  simp only [Bool.false_eq_true, if_false, all_isAsciiDigit, all_octal, hoct, hdec]

lemma component_of_hex {s hex : Str} (hs : s ≠ [])
    (hhex : (stripPrefix "0x".toList s <|> stripPrefix "0X".toList s) = some hex) :
    parseIpv4Component s =
      if hex = [] then none else (digitsFrom 16 0 hex).filter (· ≤ 2 ^ 32 - 1) := by
  have hempty : s.isEmpty = false := by simpa using hs
  unfold parseIpv4Component
  rw [hempty, hhex]
  by_cases hnil : hex = []
  · simp [hnil]
  · have hguard := guarded_parseU32 16 (by omega) hnil
    have hne : hex.isEmpty = false := by simpa using hnil
    simp only [Bool.false_eq_true, if_false, hne, Bool.false_or, hguard, if_neg hnil]

lemma parseIpv4Component_eq (s : Str) :
    parseIpv4Component s = (numeral s).filter (· ≤ 2 ^ 32 - 1) := by
  cases s with
  | nil => rfl
  | cons c s =>
    by_cases hc : c = '0'
    · subst hc
      by_cases hx : ∃ hex, s = 'x' :: hex ∨ s = 'X' :: hex
      · obtain ⟨hex, hx⟩ := hx
        have hnum : numeral ('0' :: s) = if hex = [] then none else digitsFrom 16 0 hex := by
          obtain rfl | rfl := hx <;> rfl
        have hhex : (stripPrefix "0x".toList ('0' :: s) <|> stripPrefix "0X".toList ('0' :: s)) =
            some hex := by
          obtain rfl | rfl := hx <;> simp [stripPrefix]
        rw [component_of_hex (by simp) hhex, hnum]
        split <;> rfl
      · have hhex : (stripPrefix "0x".toList ('0' :: s) <|> stripPrefix "0X".toList ('0' :: s)) =
            none := by
          cases s with
          | nil => rfl
          | cons d s =>
            have hd : 'x' ≠ d ∧ 'X' ≠ d := by
              constructor <;> rintro rfl <;> simp at hx
            simp [stripPrefix, hd]
        rw [component_of_not_hex (by simp) hhex,
          numeral_octal (fun hex h => hx ⟨hex, .inl h⟩) (fun hex h => hx ⟨hex, .inr h⟩)]
        cases s with
        | nil => rfl
        | cons d s =>
          have hlen : 1 < utf8Len ('0' :: d :: s) := by
            have h := length_le_utf8Len ('0' :: d :: s)
            simp only [List.length_cons] at h
            omega
          rw [if_pos (by simp [hlen]), digitsFrom_zero_cons 8 (by omega)]
    · have hhex : (stripPrefix "0x".toList (c :: s) <|> stripPrefix "0X".toList (c :: s)) =
          none := by
        simp [stripPrefix, Ne.symm hc]
      rw [component_of_not_hex (by simp) hhex, if_neg (by simp [hc]), numeral_decimal hc]

/-! ### From numerals to the address -/

lemma mapM_filter {f : Str → Option Nat} {p : Nat → Bool} (parts : List Str) :
    (parts.mapM fun s => (f s).filter p) = (parts.mapM f).filter fun nums => nums.all p := by
  induction parts with
  | nil => rfl
  | cons part parts ih =>
    rw [List.mapM_cons, List.mapM_cons, ih]
    cases f part with
    | none => rfl
    | some n =>
      cases parts.mapM f with
      | none => cases hp : p n <;> simp
      | some nums =>
        cases hp : p n <;> cases hall : nums.all p <;>
          simp [Option.filter, hp, hall, -List.all_eq_true]

lemma ofNat_shift_or {a b k : Nat} (hb : b < 2 ^ k) :
    BitVec.ofNat 32 a <<< k ||| BitVec.ofNat 32 b = BitVec.ofNat 32 (a * 2 ^ k + b) := by
  apply BitVec.eq_of_toNat_eq
  rw [← Nat.shiftLeft_eq, Nat.shiftLeft_add_eq_or_of_lt hb]
  simp [Nat.shiftLeft_eq]

lemma ofNat_shifts_three {a b c : Nat} (hb : b ≤ 255) (hc : c < 2 ^ 16) :
    BitVec.ofNat 32 a <<< 24 ||| BitVec.ofNat 32 b <<< 16 ||| BitVec.ofNat 32 c =
      BitVec.ofNat 32 (a * 2 ^ 24 + b * 2 ^ 16 + c) := by
  rw [BitVec.or_assoc, ofNat_shift_or hc, ofNat_shift_or (by omega), Nat.add_assoc]

lemma ofNat_shifts_four {a b c d : Nat} (hb : b ≤ 255) (hc : c ≤ 255) (hd : d < 2 ^ 8) :
    BitVec.ofNat 32 a <<< 24 ||| BitVec.ofNat 32 b <<< 16 ||| BitVec.ofNat 32 c <<< 8 |||
      BitVec.ofNat 32 d = BitVec.ofNat 32 (a * 2 ^ 24 + b * 2 ^ 16 + c * 2 ^ 8 + d) := by
  rw [BitVec.or_assoc, ofNat_shift_or hd, ofNat_shifts_three hb (by omega)]
  simp only [Nat.add_assoc]

lemma dottedAddr_concat (bytes : List Nat) (last : Nat) :
    dottedAddr (bytes ++ [last]) =
      if bytes.length < 4 ∧ (∀ b ∈ bytes, b ≤ 255) ∧ last < 256 ^ (4 - bytes.length) then
        some (leadingBytes 4 bytes + last)
      else none := by
  simp [dottedAddr]

lemma leadingBytes_nil (n : Nat) : leadingBytes n [] = 0 := rfl

lemma leadingBytes_cons (n a : Nat) (bytes : List Nat) :
    leadingBytes n (a :: bytes) = a * 256 ^ (n - 1) + leadingBytes (n - 1) bytes := by
  have hplace : ∀ i, n - 1 - (i + 1) = n - 1 - 1 - i := by omega
  rw [leadingBytes, leadingBytes, List.zipIdx_cons', List.map_cons, List.sum_cons, List.map_map]
  congr 2
  apply List.map_congr_left
  rintro ⟨b, i⟩ -
  exact congrArg (fun e => b * 256 ^ e) (hplace i)

lemma leadingBytes_two (a b : Nat) : leadingBytes 4 [a, b] = a * 2 ^ 24 + b * 2 ^ 16 := by
  rw [leadingBytes_cons, leadingBytes_cons, leadingBytes_nil, Nat.add_zero]
  norm_num

lemma leadingBytes_three (a b c : Nat) :
    leadingBytes 4 [a, b, c] = a * 2 ^ 24 + b * 2 ^ 16 + c * 2 ^ 8 := by
  rw [leadingBytes_cons, leadingBytes_cons, leadingBytes_cons, leadingBytes_nil, Nat.add_zero,
    ← Nat.add_assoc]
  norm_num

/-- The shifts and ors of `parse_loose_ipv4` add the components at their places. -/
lemma looseAddr_eq {nums : List Nat} (hfit : ∀ n ∈ nums, n ≤ 2 ^ 32 - 1) :
    looseAddr nums = (dottedAddr nums).map (BitVec.ofNat 32) := by
  match nums with
  | [] => rfl
  | [a] =>
    have ha : a < 4294967296 := by
      have := hfit a (by simp)
      omega
    simp [looseAddr, dottedAddr, leadingBytes, ha]
  | [a, b] =>
    rw [show [a, b] = [a] ++ [b] from rfl, dottedAddr_concat]
    by_cases h : 0xff < a ∨ 0xffffff < b
    · have hout : ¬ (a ≤ 255 ∧ b < 16777216) := by omega
      simp [looseAddr, h, hout]
    · have hin : a ≤ 255 ∧ b < 16777216 := by omega
      simp [looseAddr, h, hin, leadingBytes, ofNat_shift_or]
  | [a, b, c] =>
    have hdotted : dottedAddr [a, b, c] = if _ then some _ else none := dottedAddr_concat [a, b] c
    by_cases h : 0xff < a ∨ 0xff < b ∨ 0xffff < c
    · have hout : ¬ ((a ≤ 255 ∧ b ≤ 255) ∧ c < 65536) := by omega
      have hloose : looseAddr [a, b, c] = none := if_pos h
      rw [hloose, hdotted, if_neg (by simpa using hout), Option.map_none]
    · have hin : (a ≤ 255 ∧ b ≤ 255) ∧ c < 65536 := by omega
      have hloose : looseAddr [a, b, c] = some _ := if_neg h
      rw [hloose, hdotted, if_pos (by simpa using hin), leadingBytes_two,
        ofNat_shifts_three hin.1.2 hin.2, Option.map_some]
  | [a, b, c, d] =>
    have hdotted : dottedAddr [a, b, c, d] = if _ then some _ else none :=
      dottedAddr_concat [a, b, c] d
    by_cases h : 0xff < a ∨ 0xff < b ∨ 0xff < c ∨ 0xff < d
    · have hout : ¬ ((a ≤ 255 ∧ b ≤ 255 ∧ c ≤ 255) ∧ d < 256) := by omega
      have hloose : looseAddr [a, b, c, d] = none := if_pos h
      rw [hloose, hdotted, if_neg (by simpa using hout), Option.map_none]
    · have hin : (a ≤ 255 ∧ b ≤ 255 ∧ c ≤ 255) ∧ d < 256 := by omega
      have hloose : looseAddr [a, b, c, d] = some _ := if_neg h
      rw [hloose, hdotted, if_pos (by simpa using hin), leadingBytes_three,
        ofNat_shifts_four hin.1.2.1 hin.1.2.2 hin.2, Option.map_some]
  | a :: b :: c :: d :: e :: nums =>
    have hlong : ¬ (a :: b :: c :: d :: e :: nums).length ≤ 4 := by
      simp only [List.length_cons]
      omega
    rw [looseAddr, dottedAddr]
    · split
      · rfl
      · rw [if_neg (fun h => hlong h.1)]
        rfl
    all_goals simp

lemma dottedAddr_fits {nums : List Nat} {addr : Nat} (h : dottedAddr nums = some addr) :
    ∀ n ∈ nums, n ≤ 2 ^ 32 - 1 := by
  cases nums using List.reverseRecOn with
  | nil => simp
  | append_singleton bytes last =>
    rw [dottedAddr_concat] at h
    split at h
    · rename_i hrange
      obtain ⟨hlen, hbytes, hlast⟩ := hrange
      have hpow : 256 ^ (4 - bytes.length) ≤ 256 ^ 4 := Nat.pow_le_pow_right (by omega) (by omega)
      intro n hn
      rw [List.mem_append, List.mem_singleton] at hn
      obtain hn | rfl := hn
      · have := hbytes n hn
        omega
      · omega
    · cases h

lemma mapM_numeral_spec {parts : List Str} {nums : List Nat} (h : parts.mapM numeral = some nums) :
    nums.length = parts.length ∧ ∀ part ∈ parts, (numeral part).isSome := by
  induction parts generalizing nums with
  | nil =>
    cases h
    simp
  | cons part parts ih =>
    rw [List.mapM_cons] at h
    cases hpart : numeral part with
    | none => simp [hpart] at h
    | some n =>
      cases hparts : parts.mapM numeral with
      | none => simp [hpart, hparts] at h
      | some rest =>
        have hnums : nums = n :: rest := by simpa [hpart, hparts] using h.symm
        obtain ⟨hlen, hall⟩ := ih hparts
        subst hnums
        refine ⟨by simp [hlen], ?_⟩
        simpa [hpart] using hall

lemma components_eq (parts : List Str) :
    (parts.mapM parseIpv4Component).bind looseAddr =
      ((parts.mapM numeral).bind dottedAddr).map (BitVec.ofNat 32) := by
  have hcomp : parseIpv4Component = fun s => (numeral s).filter (· ≤ 2 ^ 32 - 1) :=
    funext parseIpv4Component_eq
  rw [hcomp, mapM_filter]
  cases hnums : parts.mapM numeral with
  | none => rfl
  | some nums =>
    by_cases hfit : ∀ n ∈ nums, n ≤ 2 ^ 32 - 1
    · have hall : nums.all (· ≤ 2 ^ 32 - 1) = true := by simpa using hfit
      simp only [Option.filter, hall]
      exact looseAddr_eq hfit
    · have hall : nums.all (· ≤ 2 ^ 32 - 1) = false := by simpa using hfit
      have hnone : dottedAddr nums = none := by
        cases hd : dottedAddr nums with
        | none => rfl
        | some addr => exact absurd (dottedAddr_fits hd) hfit
      simp only [Option.filter, hall]
      simp [hnone]

lemma dottedAddr_length {nums : List Nat} {addr : Nat} (h : dottedAddr nums = some addr) :
    nums.length ≤ 4 := by
  cases nums using List.reverseRecOn with
  | nil => simp
  | append_singleton bytes last =>
    rw [dottedAddr_concat] at h
    split at h
    · rename_i hrange
      rw [List.length_append, List.length_singleton]
      omega
    · cases h

/-- What `inet_aton` accepts passes the guards on the number of parts and on empty parts. -/
lemma inetAton_parts {s : Str} {addr : Nat} (h : inetAton s = some addr) :
    (s.splitOn '.').length ≤ 4 ∧ ∀ part ∈ s.splitOn '.', (numeral part).isSome := by
  rw [inetAton] at h
  cases hnums : (s.splitOn '.').mapM numeral with
  | none => simp [hnums] at h
  | some nums =>
    obtain ⟨hlen, hall⟩ := mapM_numeral_spec hnums
    rw [hnums, Option.bind_some] at h
    have := dottedAddr_length h
    exact ⟨by omega, hall⟩

lemma numeral_isSome_ne_nil {part : Str} (h : (numeral part).isSome) : part ≠ [] := by
  rintro rfl
  cases h

/-- Within 32 bytes the loose parser is `inet_aton`. -/
lemma parseLooseIpv4_eq (s : Str) :
    parseLooseIpv4 s =
      if utf8Len s ≤ 32 then (inetAton s).map (BitVec.ofNat 32) else none := by
  unfold parseLooseIpv4
  by_cases hlen : utf8Len s ≤ 32
  · have hlen' : ¬ 32 < utf8Len s := by omega
    rw [if_pos hlen]
    dsimp only
    rw [components_eq, ← inetAton]
    cases haddr : inetAton s with
    | none => split_ifs <;> rfl
    | some addr =>
      obtain ⟨hcount, hparts⟩ := inetAton_parts haddr
      have hpos := List.length_pos_iff.2 (List.splitOn_ne_nil '.' s)
      have hs : s ≠ [] := by
        rintro rfl
        exact numeral_isSome_ne_nil (hparts [] (by simp)) rfl
      have hne : (s.splitOn '.').any List.isEmpty = false := by
        rw [List.any_eq_false]
        intro part hpart
        simpa using numeral_isSome_ne_nil (hparts part hpart)
      have hs' : s.isEmpty = false := by simpa using hs
      have hcount' : (1 ≤ (s.splitOn '.').length && (s.splitOn '.').length ≤ 4) = true := by
        simp only [Bool.and_eq_true, decide_eq_true_eq]
        omega
      simp [hs', hlen', hne, hcount']
  · have hlen' : 32 < utf8Len s := by omega
    simp [hlen, hlen']

/-! ### Case and characters of numeric texts -/

lemma hexMark_of_toLower {c : Char} (h : c.toLower = 'x' ∨ c.toLower = 'X') :
    c = 'x' ∨ c = 'X' := by
  have hlow := toLower_toNat c
  have hx : c.toLower.toNat = 120 ∨ c.toLower.toNat = 88 := by
    obtain h | h := h <;> rw [h] <;> simp
  have hc : c.toNat = 120 ∨ c.toNat = 88 := by
    split at hlow <;> omega
  obtain hc | hc := hc
  · exact .inl (Char.toNat_inj.1 hc)
  · exact .inr (Char.toNat_inj.1 hc)

lemma numeral_toLower (s : Str) : numeral (s.map Char.toLower) = numeral s := by
  cases s with
  | nil => rfl
  | cons c s =>
    rw [List.map_cons]
    have hzero : c.toLower = '0' ↔ c = '0' := toLower_eq_iff (by decide) (by decide)
    by_cases hc : c = '0'
    · subst hc
      by_cases hx : ∃ hex, s = 'x' :: hex ∨ s = 'X' :: hex
      · obtain ⟨hex, rfl | rfl⟩ := hx
        all_goals
          change (if hex.map Char.toLower = [] then none
            else digitsFrom 16 0 (hex.map Char.toLower)) = if hex = [] then none else _
          simp [digitsFrom_map_toLower]
      · have hmark : ∀ d rest, s.map Char.toLower = d :: rest → d ≠ 'x' ∧ d ≠ 'X' := by
          intro d rest hs
          obtain ⟨c, s, rfl, rfl, -⟩ := List.map_eq_cons_iff.1 hs
          rw [← not_or]
          intro hd
          obtain rfl | rfl := hexMark_of_toLower hd
          · exact hx ⟨s, .inl rfl⟩
          · exact hx ⟨s, .inr rfl⟩
        rw [hzero.2 rfl, numeral_octal (fun hex h => (hmark _ _ h).1 rfl)
            (fun hex h => (hmark _ _ h).2 rfl),
          numeral_octal (fun hex h => hx ⟨hex, .inl h⟩) (fun hex h => hx ⟨hex, .inr h⟩),
          digitsFrom_map_toLower]
    · rw [numeral_decimal hc, numeral_decimal (fun h => hc (hzero.1 h)), ← List.map_cons,
        digitsFrom_map_toLower]

/-- `inet_aton` does not see the case of a text. -/
lemma inetAton_toLower (s : Str) : inetAton (toAsciiLowercase s) = inetAton s := by
  have hdot : ∀ c : Char, c.toLower = '.' ↔ c = '.' := fun c =>
    toLower_eq_iff (by decide) (by decide)
  have hnum : numeral ∘ List.map Char.toLower = numeral := funext numeral_toLower
  rw [inetAton, toAsciiLowercase, splitOn_map hdot, List.mapM_map, hnum, inetAton]

lemma digitsFrom_chars {radix acc : Nat} (hradix : radix ≤ 16) {s : Str}
    (h : (digitsFrom radix acc s).isSome) {c : Char} (hc : c ∈ s) : (toDigit 16 c).isSome := by
  rw [digitsFrom_isSome, List.all_eq_true] at h
  have hdigit := (toDigit_isSome_iff hradix c).1 (h c hc)
  rw [toDigit_isSome_iff (by omega)]
  omega

lemma numeral_chars {s : Str} (h : (numeral s).isSome) {c : Char} (hc : c ∈ s) :
    (toDigit 16 c).isSome ∨ c = 'x' ∨ c = 'X' := by
  unfold numeral at h
  split at h
  · cases h
  · split at h
    · cases h
    · obtain _ | ⟨_, _ | ⟨_, hc⟩⟩ := hc
      · exact .inl rfl
      · exact .inr (.inl rfl)
      · exact .inl (digitsFrom_chars (by omega) h hc)
  · split at h
    · cases h
    · obtain _ | ⟨_, _ | ⟨_, hc⟩⟩ := hc
      · exact .inl rfl
      · exact .inr (.inr rfl)
      · exact .inl (digitsFrom_chars (by omega) h hc)
  · obtain _ | ⟨_, hc⟩ := hc
    · exact .inl rfl
    · exact .inl (digitsFrom_chars (by omega) h hc)
  · exact .inl (digitsFrom_chars (by omega) h hc)

lemma numeral_alphanumeric {part : Str} (h : (numeral part).isSome) {c : Char} (hc : c ∈ part) :
    isAsciiAlphanumeric c := by
  obtain hdigit | rfl | rfl := numeral_chars h hc
  · rw [toDigit_isSome_iff (by omega)] at hdigit
    rw [isAsciiAlphanumeric_iff]
    omega
  · rfl
  · rfl

lemma inetAton_chars {s : Str} (h : (inetAton s).isSome) {c : Char} (hc : c ∈ s) :
    isAsciiAlphanumeric c ∨ c = '.' := by
  obtain ⟨addr, haddr⟩ := Option.isSome_iff_exists.1 h
  obtain ⟨-, hparts⟩ := inetAton_parts haddr
  by_cases hdot : c = '.'
  · exact .inr hdot
  · obtain ⟨part, hpart, hcpart⟩ := mem_splitOn hc hdot
    exact .inl (numeral_alphanumeric (hparts part hpart) hcpart)

lemma inetAton_getLast {s : Str} (h : (inetAton s).isSome) : s.getLast? ≠ some '.' := by
  obtain ⟨addr, haddr⟩ := Option.isSome_iff_exists.1 h
  obtain ⟨-, hparts⟩ := inetAton_parts haddr
  intro hlast
  obtain ⟨front, rfl⟩ := List.getLast?_eq_some_iff.1 hlast
  exact numeral_isSome_ne_nil (hparts [] (nil_mem_splitOn_concat '.' front)) rfl

/-- A numeric text has no white space and no dot at its end, so trimming keeps it. -/
lemma inetAton_trims {s : Str} (h : (inetAton s).isSome) : trimEndMatches '.' (trim s) = s := by
  apply trims_eq_self _ (inetAton_getLast h)
  intro c hc
  obtain halnum | rfl := inetAton_chars h hc
  · exact isWhitespace_of_alphanumeric halnum
  · rfl

end WsTcpProxy.Proofs
