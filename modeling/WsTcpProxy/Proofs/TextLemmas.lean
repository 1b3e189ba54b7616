import WsTcpProxy.Text

/-!
# Facts about strings

Splitting at a character, trimming, ASCII case and digits, and what a reader that succeeds has read.
-/

namespace WsTcpProxy.Proofs

lemma utf8Len_cons (c : Char) (s : Str) : utf8Len (c :: s) = c.utf8Size + utf8Len s := by
  simp [utf8Len]

lemma length_le_utf8Len (s : Str) : s.length ≤ utf8Len s := by
  induction s with
  | nil => simp
  | cons c s ih =>
    have hc := c.utf8Size_pos
    rw [utf8Len_cons, List.length_cons]
    omega

lemma utf8Len_append (s t : Str) : utf8Len (s ++ t) = utf8Len s + utf8Len t := by
  simp [utf8Len]

lemma utf8Len_ascii {s : Str} (h : ∀ c ∈ s, c.toNat ≤ 127) : utf8Len s = s.length := by
  induction s with
  | nil => rfl
  | cons c s ih =>
    have hs := ih fun d hd => h d (List.mem_cons_of_mem _ hd)
    have hc : c.utf8Size = 1 := by
      rw [Char.utf8Size_eq_one_iff, UInt32.le_iff_toNat_le]
      exact h c List.mem_cons_self
    rw [utf8Len_cons, hs, hc, List.length_cons]
    omega

lemma isAsciiAlphanumeric_iff (c : Char) :
    isAsciiAlphanumeric c ↔ ((48 ≤ c.toNat ∧ c.toNat ≤ 57) ∨ (97 ≤ c.toNat ∧ c.toNat ≤ 122)) ∨
      (65 ≤ c.toNat ∧ c.toNat ≤ 90) := by
  simp only [isAsciiAlphanumeric, isAsciiDigit, Bool.or_eq_true, Bool.and_eq_true,
    decide_eq_true_eq]
  rfl

lemma isAsciiDigit_iff (c : Char) : isAsciiDigit c ↔ 48 ≤ c.toNat ∧ c.toNat ≤ 57 := by
  simp only [isAsciiDigit, Bool.and_eq_true, decide_eq_true_eq]
  rfl

lemma isWhitespace_of_alphanumeric {c : Char} (h : isAsciiAlphanumeric c) :
    isWhitespace c = false := by
  have hrange := (isAsciiAlphanumeric_iff c).mp h
  rw [Bool.eq_false_iff]
  intro hw
  simp only [isWhitespace, Bool.or_eq_true, Bool.and_eq_true, decide_eq_true_eq, beq_iff_eq] at hw
  omega

/-! ### Splitting -/

lemma splitOn_cons (sep c : Char) (s : Str) :
    (c :: s).splitOn sep =
      if c = sep then [] :: s.splitOn sep else (s.splitOn sep).modifyHead (c :: ·) := by
  simp [List.splitOn_cons_eq_if_modifyHead]

lemma mem_splitOn {sep c : Char} {s : Str} (hc : c ∈ s) (hsep : c ≠ sep) :
    ∃ part ∈ s.splitOn sep, c ∈ part := by
  induction s with
  | nil => simp at hc
  | cons d s ih =>
    rw [splitOn_cons]
    obtain ⟨part, parts, hparts⟩ := List.exists_cons_of_ne_nil (List.splitOn_ne_nil sep s)
    rw [hparts] at ih ⊢
    by_cases hd : d = sep
    · rw [if_pos hd]
      have hcs : c ∈ s := by
        cases hc with
        | head => exact absurd hd hsep
        | tail _ hcs => exact hcs
      obtain ⟨q, hq, hcq⟩ := ih hcs
      exact ⟨q, List.mem_cons_of_mem _ hq, hcq⟩
    · rw [if_neg hd, List.modifyHead_cons]
      cases hc with
      | head => exact ⟨c :: part, List.mem_cons_self, List.mem_cons_self⟩
      | tail _ hcs =>
        obtain ⟨q, hq, hcq⟩ := ih hcs
        cases hq with
        | head => exact ⟨d :: part, List.mem_cons_self, List.mem_cons_of_mem _ hcq⟩
        | tail _ hq => exact ⟨q, List.mem_cons_of_mem _ hq, hcq⟩

lemma splitOn_map {sep : Char} {f : Char → Char} (hf : ∀ c, f c = sep ↔ c = sep) (s : Str) :
    (s.map f).splitOn sep = (s.splitOn sep).map (List.map f) := by
  induction s with
  | nil => rfl
  | cons c s ih =>
    rw [List.map_cons, splitOn_cons, splitOn_cons, ih]
    by_cases hc : c = sep
    · rw [if_pos ((hf c).2 hc), if_pos hc]
      rfl
    · rw [if_neg (fun h => hc ((hf c).1 h)), if_neg hc]
      obtain ⟨part, parts, hparts⟩ := List.exists_cons_of_ne_nil (List.splitOn_ne_nil sep s)
      rw [hparts]
      rfl

lemma nil_mem_splitOn_concat (sep : Char) (s : Str) : [] ∈ (s ++ [sep]).splitOn sep := by
  rw [List.splitOn_append_cons_self]
  simp

lemma nil_mem_splitOn_of_head {sep : Char} {s : Str} (h : s.head? = some sep) :
    [] ∈ s.splitOn sep := by
  obtain ⟨rest, rfl⟩ := List.head?_eq_some_iff.1 h
  rw [splitOn_cons, if_pos rfl]
  exact List.mem_cons_self

lemma nil_mem_splitOn_of_contains {sep : Char} {s : Str} (h : contains [sep, sep] s) :
    [] ∈ s.splitOn sep := by
  simp only [contains, List.any_eq_true, List.mem_tails, List.isPrefixOf_iff_prefix] at h
  obtain ⟨_, ⟨front, rfl⟩, rest, rfl⟩ := h
  rw [List.cons_append, List.splitOn_append_cons_self, List.cons_append]
  exact List.mem_append_right _ (nil_mem_splitOn_of_head rfl)

/-! ### Trimming -/

lemma mem_dropWhile {p : Char → Bool} {c : Char} {s : Str} (hc : c ∈ s) (hp : p c = false) :
    c ∈ s.dropWhile p := by
  induction s with
  | nil => simp at hc
  | cons d s ih =>
    rw [List.dropWhile_cons]
    split
    · rename_i hd
      cases hc with
      | head => rw [hp] at hd; cases hd
      | tail _ hcs => exact ih hcs
    · exact hc

lemma mem_trimEndWhile {p : Char → Bool} {c : Char} {s : Str} (hc : c ∈ s) (hp : p c = false) :
    c ∈ trimEndWhile p s := by
  rw [trimEndWhile, List.mem_reverse]
  exact mem_dropWhile (List.mem_reverse.2 hc) hp

lemma mem_trim {c : Char} {s : Str} (hc : c ∈ s) (hw : isWhitespace c = false) : c ∈ trim s :=
  mem_trimEndWhile (mem_dropWhile hc hw) hw

lemma trimEndWhile_concat {p : Char → Bool} {c : Char} (s : Str) (hp : p c = false) :
    trimEndWhile p (s ++ [c]) = s ++ [c] := by
  simp [trimEndWhile, hp]

lemma dropWhile_dropWhile {p q : Char → Bool} (h : ∀ c, p c = true → q c = true) (s : Str) :
    (s.dropWhile p).dropWhile q = s.dropWhile q := by
  induction s with
  | nil => rfl
  | cons c s ih =>
    rw [List.dropWhile_cons]
    split
    · rename_i hp
      rw [ih, List.dropWhile_cons, if_pos (h c hp)]
    · rfl

/-- Trimming may be done in steps. -/
lemma trimEndWhile_trimEndWhile {p q : Char → Bool} (h : ∀ c, p c = true → q c = true) (s : Str) :
    trimEndWhile q (trimEndWhile p s) = trimEndWhile q s := by
  simp only [trimEndWhile, List.reverse_reverse, dropWhile_dropWhile h]

lemma trimEndWhile_concat_of_pos {p : Char → Bool} {c : Char} (s : Str) (hp : p c = true) :
    trimEndWhile p (s ++ [c]) = trimEndWhile p s := by
  simp [trimEndWhile, hp]

lemma trimEndWhile_eq_self {p : Char → Bool} {s : Str} (h : ∀ c, s.getLast? = some c → p c = false) :
    trimEndWhile p s = s := by
  cases s using List.reverseRecOn with
  | nil => rfl
  | append_singleton s c => exact trimEndWhile_concat s (h c (by simp))

lemma trimEndWhile_getLast {p : Char → Bool} {s : Str} {c : Char}
    (h : (trimEndWhile p s).getLast? = some c) : p c = false := by
  have hnot := List.head?_dropWhile_not p s.reverse
  rw [trimEndWhile, List.getLast?_reverse] at h
  rw [h] at hnot
  exact hnot

lemma trimEndMatches_eq_self {c : Char} {s : Str} (h : s.getLast? ≠ some c) :
    trimEndMatches c s = s := by
  apply trimEndWhile_eq_self
  intro d hd
  rw [beq_eq_false_iff_ne]
  rintro rfl
  exact h hd

/-- Trimming looks at the ends of a string only. -/
lemma trim_eq_self {s : Str} (hhead : ∀ c, s.head? = some c → isWhitespace c = false)
    (hlast : ∀ c, s.getLast? = some c → isWhitespace c = false) : trim s = s := by
  have hdrop : s.dropWhile isWhitespace = s := by
    cases s with
    | nil => rfl
    | cons c s => simp [hhead c rfl]
  rw [trim, hdrop]
  exact trimEndWhile_eq_self hlast

lemma trim_trim (s : Str) : trim (trim s) = trim s := by
  apply trim_eq_self
  · intro c hc
    have hfront : trim s <+: s.dropWhile isWhitespace := by
      rw [← List.reverse_suffix, trim, trimEndWhile, List.reverse_reverse]
      exact List.dropWhile_suffix _
    have hhead : (s.dropWhile isWhitespace).head? = some c := by
      obtain ⟨rest, hrest⟩ := hfront
      rw [← hrest, List.head?_append, hc, Option.some_or]
    have hnot := List.head?_dropWhile_not isWhitespace s
    rw [hhead] at hnot
    exact hnot
  · intro c hc
    exact trimEndWhile_getLast hc

/-- A string without white space and without a dot at its end is kept by both trims. -/
lemma trims_eq_self {s : Str} (hw : ∀ c ∈ s, isWhitespace c = false) (hdot : s.getLast? ≠ some '.') :
    trimEndMatches '.' (trim s) = s := by
  have htrim : trim s = s := trim_eq_self (fun c hc => hw c (List.mem_of_mem_head? hc))
    (fun c hc => hw c (List.mem_of_getLast? hc))
  rw [htrim, trimEndMatches_eq_self hdot]

/-! ### Case -/

lemma toLower_toNat (c : Char) :
    c.toLower.toNat = if 65 ≤ c.toNat ∧ c.toNat ≤ 90 then c.toNat + 32 else c.toNat := by
  by_cases h : c.val ≥ 'A'.val ∧ c.val ≤ 'Z'.val
  · have hn : 65 ≤ c.toNat ∧ c.toNat ≤ 90 := h
    have hlow : c.toLower = ⟨c.val + 32, _⟩ := dif_pos h
    have hlt : c.toNat + 32 < 2 ^ 32 := by omega
    rw [if_pos hn, hlow]
    exact Nat.mod_eq_of_lt hlt
  · have hn : ¬ (65 ≤ c.toNat ∧ c.toNat ≤ 90) := h
    have hlow : c.toLower = c := dif_neg h
    rw [if_neg hn, hlow]

lemma toLower_eq_iff {c d : Char} (hd : ¬ (97 ≤ d.toNat ∧ d.toNat ≤ 122))
    (hu : ¬ (65 ≤ d.toNat ∧ d.toNat ≤ 90)) : c.toLower = d ↔ c = d := by
  have hlow := toLower_toNat c
  constructor
  · intro h
    rw [h] at hlow
    apply Char.toNat_inj.1
    split at hlow <;> omega
  · intro h
    subst h
    apply Char.toNat_inj.1
    rw [hlow, if_neg hu]

/-! ### Digits -/

lemma toDigit_eq (radix : Nat) (c : Char) :
    toDigit radix c =
      let d := if 48 ≤ c.toNat ∧ c.toNat ≤ 57 then c.toNat - 48
        else if 97 ≤ c.toNat ∧ c.toNat ≤ 122 then c.toNat - 97 + 10
        else if 65 ≤ c.toNat ∧ c.toNat ≤ 90 then c.toNat - 65 + 10 else radix
      if d < radix then some d else none := by
  rfl

lemma toDigit_toLower (radix : Nat) (c : Char) : toDigit radix c.toLower = toDigit radix c := by
  rw [toDigit_eq, toDigit_eq, toLower_toNat]
  by_cases h : 65 ≤ c.toNat ∧ c.toNat ≤ 90
  · have h1 : ¬ (48 ≤ c.toNat + 32 ∧ c.toNat + 32 ≤ 57) := by omega
    have h2 : 97 ≤ c.toNat + 32 ∧ c.toNat + 32 ≤ 122 := by omega
    have h3 : ¬ (48 ≤ c.toNat ∧ c.toNat ≤ 57) := by omega
    have h4 : ¬ (97 ≤ c.toNat ∧ c.toNat ≤ 122) := by omega
    have h5 : c.toNat + 32 - 97 = c.toNat - 65 := by omega
    simp only [if_pos h, if_neg h1, if_pos h2, if_neg h3, if_neg h4, h5]
  · simp only [if_neg h]

lemma toDigit_isSome_iff {radix : Nat} (hradix : radix ≤ 16) (c : Char) :
    (toDigit radix c).isSome ↔
      (48 ≤ c.toNat ∧ c.toNat ≤ 57 ∧ c.toNat < 48 + radix) ∨
      (97 ≤ c.toNat ∧ c.toNat < 87 + radix) ∨ (65 ≤ c.toNat ∧ c.toNat < 55 + radix) := by
  rw [toDigit_eq]
  dsimp only
  split_ifs <;> simp only [Option.isSome_some, Option.isSome_none, true_iff, Bool.false_eq_true,
    false_iff] <;> omega

lemma toDigit_decimal (c : Char) : (toDigit 10 c).isSome = isAsciiDigit c := by
  rw [Bool.eq_iff_iff, toDigit_isSome_iff (by omega), isAsciiDigit_iff]
  omega

lemma toDigit_octal (c : Char) : (toDigit 8 c).isSome = ('0' ≤ c && c ≤ '7') := by
  rw [Bool.eq_iff_iff, toDigit_isSome_iff (by omega)]
  have hdigit : ('0' ≤ c && c ≤ '7') = true ↔ 48 ≤ c.toNat ∧ c.toNat ≤ 55 := by
    simp only [Bool.and_eq_true, decide_eq_true_eq]
    rfl
  rw [hdigit]
  omega

lemma digitsFrom_isSome (radix acc : Nat) (s : Str) :
    (digitsFrom radix acc s).isSome = s.all fun c => (toDigit radix c).isSome := by
  induction s generalizing acc with
  | nil => rfl
  | cons c s ih =>
    rw [digitsFrom, List.all_cons]
    cases toDigit radix c with
    | none => rfl
    | some d => simp [ih]

lemma digitsFrom_map_toLower (radix acc : Nat) (s : Str) :
    digitsFrom radix acc (s.map Char.toLower) = digitsFrom radix acc s := by
  induction s generalizing acc with
  | nil => rfl
  | cons c s ih =>
    rw [List.map_cons, digitsFrom, digitsFrom, toDigit_toLower]
    cases toDigit radix c with
    | none => rfl
    | some d => exact ih _

/-- On digits alone `from_str_radix` is the value of the digits, unless it is too large. -/
lemma fromStrRadix_digits {radix max : Nat} (hradix : radix ≤ 16) {s : Str} (hs : s ≠ [])
    (hdigits : ∀ c ∈ s, (toDigit radix c).isSome) :
    fromStrRadix radix max s = (digitsFrom radix 0 s).filter (· ≤ max) := by
  have hplus : stripPrefix ['+'] s = none := by
    cases s with
    | nil => rfl
    | cons c s =>
      have hc : '+' ≠ c := by
        rintro rfl
        have h := (toDigit_isSome_iff hradix '+').1 (hdigits '+' List.mem_cons_self)
        simp at h
      rw [stripPrefix, if_neg hc]
  simp only [fromStrRadix, hplus, Option.getD_none, if_neg hs]

/-! ### Results -/

lemma except_bind_eq_ok {ε α β : Type} {x : Except ε α} {f : α → Except ε β} {b : β} :
    (x >>= f) = .ok b ↔ ∃ a, x = .ok a ∧ f a = .ok b := by
  cases x with
  | error e =>
    constructor
    · intro h
      cases h
    · rintro ⟨_, h, -⟩
      cases h
  | ok a =>
    constructor
    · intro h
      exact ⟨a, rfl, h⟩
    · rintro ⟨_, h, hb⟩
      cases h
      exact hb

lemma except_bind_eq_error {ε α β : Type} {x : Except ε α} {f : α → Except ε β} {e : ε} :
    (x >>= f) = .error e ↔ x = .error e ∨ ∃ a, x = .ok a ∧ f a = .error e := by
  cases x with
  | error e' =>
    constructor
    · intro h
      cases h
      exact .inl rfl
    · rintro (h | ⟨_, h, -⟩) <;> cases h
      rfl
  | ok a =>
    constructor
    · exact fun h => .inr ⟨a, rfl, h⟩
    · rintro (h | ⟨_, h, hf⟩) <;> cases h
      exact hf

end WsTcpProxy.Proofs
