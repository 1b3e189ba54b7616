import WsTcpProxy.Proofs.DestKeys

/-!
# Addresses read back

The parser of `std::net` reads back what its `Display` instances write. Each reader is run on the
text of what it is to read with arbitrary input behind it that does not go on with the text.
-/

namespace WsTcpProxy.Proofs
open Library

/-! ### Numbers -/

section Numbers

variable {radix : Nat}

lemma toDigit_digitChar (hradix : radix ≤ 16) {d : Nat} (hd : d < radix) :
    toDigit radix d.digitChar = some d := by
  have hcode : ∀ d < 16, ∀ radix ≤ 16, d < radix → toDigit radix d.digitChar = some d := by decide
  exact hcode d (by omega) radix hradix hd

lemma digitsFrom_append (acc : Nat) (s t : Str) :
    digitsFrom radix acc (s ++ t) = (digitsFrom radix acc s).bind fun a => digitsFrom radix a t := by
  induction s generalizing acc with
  | nil => rfl
  | cons c s ih =>
    rw [List.cons_append, digitsFrom, digitsFrom]
    cases toDigit radix c with
    | none => rfl
    | some d => exact ih _

lemma digitsFrom_toDigits (hone : 1 < radix) (hradix : radix ≤ 16) (n : Nat) :
    digitsFrom radix 0 (Nat.toDigits radix n) = some n := by
  induction n using Nat.strong_induction_on with
  | _ n ih =>
    by_cases hn : n < radix
    · rw [Nat.toDigits_of_lt_base hn, digitsFrom, toDigit_digitChar hradix hn]
      simp [digitsFrom]
    · have hlt := Nat.mod_lt n (by omega : radix > 0)
      rw [Nat.toDigits_of_base_le hone (by omega), digitsFrom_append,
        ih _ (Nat.div_lt_self (by omega) hone), Option.bind_some, digitsFrom,
        toDigit_digitChar hradix hlt]
      change some (n / radix * radix + n % radix) = some n
      rw [Nat.div_add_mod']

lemma toDigits_digits (hone : 1 < radix) (hradix : radix ≤ 16) (n : Nat) {c : Char}
    (hc : c ∈ Nat.toDigits radix n) : (toDigit radix c).isSome := by
  have hall := digitsFrom_isSome radix 0 (Nat.toDigits radix n)
  rw [digitsFrom_toDigits hone hradix, Option.isSome_some, eq_comm, List.all_eq_true] at hall
  exact hall c hc

/-- A number is written without leading zeros. -/
lemma toDigits_head (hone : 1 < radix) (hradix : radix ≤ 16) {n : Nat}
    (hhead : (Nat.toDigits radix n).head? = some '0') : Nat.toDigits radix n = ['0'] := by
  induction n using Nat.strong_induction_on with
  | _ n ih =>
    by_cases hn : n < radix
    · rw [Nat.toDigits_of_lt_base hn] at hhead ⊢
      rw [Option.some.inj hhead]
    · exfalso
      have hpos : 0 < n / radix := Nat.div_pos (by omega) (by omega)
      rw [Nat.toDigits_of_base_le hone (by omega),
        List.head?_append_of_ne_nil _ Nat.toDigits_ne_nil] at hhead
      have hzero := ih _ (Nat.div_lt_self (by omega) hone) hhead
      have hvalue := digitsFrom_toDigits hone hradix (n / radix)
      have hdigit : toDigit radix '0' = some 0 := toDigit_digitChar hradix (by omega : 0 < radix)
      rw [hzero, digitsFrom, hdigit] at hvalue
      have hquot : 0 = n / radix := by simpa [digitsFrom] using hvalue
      omega

/-- The reader takes the whole run of digits, and what follows it is left over. -/
lemma readNumber_append {maxDigits max v : Nat} {allowZeroPrefix : Bool} {digits rest : Str}
    (hne : digits ≠ []) (hlen : digits.length ≤ maxDigits)
    (hdigits : ∀ c ∈ digits, (toDigit radix c).isSome) (hvalue : digitsFrom radix 0 digits = some v)
    (hmax : v ≤ max) (hzero : digits.head? = some '0' → digits = ['0'])
    (hrest : ∀ c ∈ rest.head?, toDigit radix c = none) :
    readNumber radix maxDigits max allowZeroPrefix (digits ++ rest) = some (v, rest) := by
  have htake : (digits ++ rest).takeWhile (fun c => (toDigit radix c).isSome) = digits := by
    rw [List.takeWhile_append_of_pos hdigits]
    cases rest with
    | nil => simp
    | cons c rest =>
      have hc := hrest c rfl
      rw [List.takeWhile_cons, hc]
      simp
  have hleading : (!allowZeroPrefix && digits.head? == some '0' && decide (1 < digits.length)) =
      false := by
    by_cases hhead : digits.head? = some '0'
    · rw [hzero hhead]
      simp
    · simp [hhead]
  unfold readNumber
  dsimp only
  rw [htake, hvalue, Option.getD_some, if_neg (by simp [hne, hlen]), if_neg (by simp [hleading]),
    if_neg (by omega), List.drop_left]

lemma readNumber_toDigits (hone : 1 < radix) (hradix : radix ≤ 16) {maxDigits max n : Nat}
    {allowZeroPrefix : Bool} {rest : Str} (hdigits : 0 < maxDigits) (hlen : n < radix ^ maxDigits)
    (hmax : n ≤ max) (hrest : ∀ c ∈ rest.head?, toDigit radix c = none) :
    readNumber radix maxDigits max allowZeroPrefix (Nat.toDigits radix n ++ rest) =
      some (n, rest) :=
  readNumber_append Nat.toDigits_ne_nil ((Nat.length_toDigits_le_iff hone hdigits).2 hlen)
    (fun _ => toDigits_digits hone hradix n) (digitsFrom_toDigits hone hradix n) hmax
    (toDigits_head hone hradix) hrest

end Numbers

/-! ### IPv4 -/

section Ipv4

lemma readSeparator_first {α : Type} (sep : Char) (inner : Reader α) (s : Str) :
    readSeparator sep true inner s = inner s := rfl

lemma readSeparator_cons {α : Type} (sep : Char) (inner : Reader α) (s : Str) :
    readSeparator sep false inner (sep :: s) = inner s := by
  simp [readSeparator, readGivenChar]

/-- A reader behind a separator does not read what begins otherwise. -/
lemma readSeparator_none {α : Type} {sep : Char} {inner : Reader α} {s : Str}
    (h : s.head? ≠ some sep) : readSeparator sep false inner s = none := by
  cases s with
  | nil => rfl
  | cons c s =>
    have hc : c ≠ sep := fun hc => h (by rw [hc]; rfl)
    simp [readSeparator, readGivenChar, hc]

lemma readNumber_octetText (b : BitVec 8) {rest : Str}
    (hrest : ∀ c ∈ rest.head?, toDigit 10 c = none) :
    readNumber 10 3 255 false (Nat.toDigits 10 b.toNat ++ rest) = some (b.toNat, rest) := by
  have hb := b.isLt
  exact readNumber_toDigits (by decide) (by decide) (by decide) (by omega) (by omega) hrest

lemma ipv4_octets (ip : Ipv4Addr) :
    Ipv4Addr.new (ip.octet 0) (ip.octet 1) (ip.octet 2) (ip.octet 3) = ip := by
  have hip := ip.isLt
  apply BitVec.eq_of_toNat_eq
  rw [ipv4_new_toNat, octet_toNat, octet_toNat, octet_toNat, octet_toNat]
  norm_num
  omega

lemma readIpv4Addr_toText (ip : Ipv4Addr) {rest : Str}
    (hrest : ∀ c ∈ rest.head?, toDigit 10 c = none) :
    readIpv4Addr (ip.toText ++ rest) = some (ip, rest) := by
  have hdot (s : Str) : ∀ c ∈ ('.' :: s).head?, toDigit 10 c = none := by
    rintro c ⟨⟩
    rfl
  unfold readIpv4Addr readOctet Ipv4Addr.toText
  simp only [List.append_assoc, List.cons_append, readSeparator_first, readSeparator_cons,
    readNumber_octetText _ (hdot _), readNumber_octetText _ hrest, Option.bind_eq_bind,
    Option.bind_some, BitVec.ofNat_toNat, BitVec.setWidth_eq]
  rw [ipv4_octets]
  rfl

/-- Where there is no dot there is no IPv4 address. -/
lemma readIpv4Addr_no_dot {s : Str} (h : '.' ∉ s) : readIpv4Addr s = none := by
  rw [Option.eq_none_iff_forall_ne_some]
  rintro ⟨ip, rest⟩ hread
  obtain ⟨A, B, C, D, a, b, c, d, rfl, -⟩ := readIpv4Addr_spec hread
  exact h (by simp)

lemma readIpv4Addr_no_digit {s : Str} (h : ∀ c ∈ s.head?, toDigit 10 c = none) :
    readIpv4Addr s = none := by
  have htake : s.takeWhile (fun c => (toDigit 10 c).isSome) = [] := by
    cases s with
    | nil => rfl
    | cons c s => simp [h c rfl]
  simp [readIpv4Addr, readOctet, readSeparator_first, readNumber, htake]

end Ipv4

/-! ### Groups of an IPv6 address -/

section Groups

def groupText (segment : BitVec 16) : Str := Nat.toDigits 16 segment.toNat

/-- Groups behind others. -/
def laterText (segments : List (BitVec 16)) : Str :=
  segments.flatMap fun segment => ':' :: groupText segment

lemma segmentsText_cons (segment : BitVec 16) (segments : List (BitVec 16)) :
    segmentsText (segment :: segments) = groupText segment ++ laterText segments := by
  induction segments generalizing segment with
  | nil => simp [segmentsText, laterText, groupText]
  | cons next segments ih =>
    have hcons : segmentsText (segment :: next :: segments) =
        groupText segment ++ ':' :: segmentsText (next :: segments) := by
      simp [segmentsText, groupText]
    rw [hcons, ih, laterText, laterText, List.flatMap_cons]
    rfl

lemma groupText_no_dot (segment : BitVec 16) : '.' ∉ groupText segment := by
  intro hdot
  exact absurd (toDigits_digits (by decide) (by decide) _ hdot) (by decide)

lemma laterText_no_dot (segments : List (BitVec 16)) : '.' ∉ laterText segments := by
  intro hdot
  obtain ⟨segment, -, hmem⟩ := List.mem_flatMap.1 hdot
  exact groupText_no_dot segment ((List.mem_cons.1 hmem).resolve_left (by decide))

lemma segmentsText_no_dot (segments : List (BitVec 16)) : '.' ∉ segmentsText segments := by
  cases segments with
  | nil => simp [segmentsText]
  | cons segment segments =>
    rw [segmentsText_cons, List.mem_append]
    exact not_or.2 ⟨groupText_no_dot segment, laterText_no_dot segments⟩

lemma readNumber_groupText (segment : BitVec 16) {rest : Str}
    (hrest : ∀ c ∈ rest.head?, toDigit 16 c = none) :
    readNumber 16 4 0xffff true (groupText segment ++ rest) = some (segment.toNat, rest) := by
  have hlt := segment.isLt
  exact readNumber_toDigits (by decide) (by decide) (by decide) (by omega) (by omega) hrest

lemma readNumber_no_digit {radix maxDigits max : Nat} {allowZeroPrefix : Bool} {s : Str}
    (h : ∀ c ∈ s.head?, toDigit radix c = none) :
    readNumber radix maxDigits max allowZeroPrefix s = none := by
  have htake : s.takeWhile (fun c => (toDigit radix c).isSome) = [] := by
    cases s with
    | nil => rfl
    | cons c s => simp [h c rfl]
  simp [readNumber, htake]

/-- What follows the groups does not go on with one: it is empty, or a double colon. -/
def Stops (rest : Str) : Prop := rest = [] ∨ ∃ t, rest = ':' :: ':' :: t

lemma Stops.no_digit {rest : Str} (h : Stops rest) : ∀ c ∈ rest.head?, toDigit 16 c = none := by
  obtain rfl | ⟨t, rfl⟩ := h
  · rintro c ⟨⟩
  · rintro c ⟨⟩
    rfl

lemma Stops.no_group {rest : Str} (h : Stops rest) :
    readSeparator ':' false (readNumber 16 4 0xffff true) rest = none := by
  obtain rfl | ⟨t, rfl⟩ := h
  · rfl
  · rw [readSeparator_cons]
    apply readNumber_no_digit
    rintro c ⟨⟩
    rfl

lemma readSeparator_no_dot {first : Bool} {s : Str} (h : '.' ∉ s) :
    readSeparator ':' first readIpv4Addr s = none := by
  cases first with
  | true => exact readIpv4Addr_no_dot h
  | false =>
    cases s with
    | nil => rfl
    | cons c s =>
      by_cases hc : c = ':'
      · rw [hc, readSeparator_cons]
        exact readIpv4Addr_no_dot fun hdot => h (List.mem_cons_of_mem c hdot)
      · apply readSeparator_none
        simpa using hc

lemma readGroups_stop {left : Nat} {first : Bool} {rest : Str}
    (hv4 : readSeparator ':' first readIpv4Addr rest = none)
    (hgroup : readSeparator ':' first (readNumber 16 4 0xffff true) rest = none) :
    readGroups left first rest = ([], false, rest) := by
  cases left with
  | zero => rfl
  | succ left =>
    rw [readGroups, hv4, hgroup]
    simp

/-- One group is read, and then those behind it. -/
lemma readGroups_group {left : Nat} {first : Bool} {s rest : Str} {segment : BitVec 16}
    (hv4 : readSeparator ':' first readIpv4Addr s = none)
    (hgroup : readSeparator ':' first (readNumber 16 4 0xffff true) s =
      some (segment.toNat, rest)) :
    readGroups (left + 1) first s =
      (segment :: (readGroups left false rest).1, (readGroups left false rest).2) := by
  rw [readGroups, hv4, hgroup]
  simp

lemma laterText_head {segments : List (BitVec 16)} {rest : Str} (hstop : Stops rest) :
    ∀ c ∈ (laterText segments ++ rest).head?, toDigit 16 c = none := by
  cases segments with
  | nil => exact hstop.no_digit
  | cons next segments =>
    rintro c ⟨⟩
    rfl

lemma readGroups_laterText (segments : List (BitVec 16)) {left : Nat} {rest : Str}
    (hlen : segments.length ≤ left) (hdot : '.' ∉ rest) (hstop : Stops rest) :
    readGroups left false (laterText segments ++ rest) = (segments, false, rest) := by
  induction segments generalizing left with
  | nil => exact readGroups_stop (readSeparator_no_dot hdot) hstop.no_group
  | cons segment segments ih =>
    rw [List.length_cons] at hlen
    obtain ⟨left, rfl⟩ : ∃ n, left = n + 1 := ⟨left - 1, by omega⟩
    have hnodot : '.' ∉ laterText (segment :: segments) ++ rest := by
      rw [List.mem_append]
      exact not_or.2 ⟨laterText_no_dot _, hdot⟩
    have hgroup : readSeparator ':' false (readNumber 16 4 0xffff true)
        (laterText (segment :: segments) ++ rest) =
          some (segment.toNat, laterText segments ++ rest) := by
      rw [laterText, List.flatMap_cons, List.cons_append, List.cons_append, readSeparator_cons,
        List.append_assoc]
      exact readNumber_groupText segment (laterText_head hstop)
    rw [readGroups_group (readSeparator_no_dot hnodot) hgroup, ih (by omega)]

/-- The groups of a text are read, up to what stops them. -/
lemma readGroups_segmentsText (segments : List (BitVec 16)) {left : Nat} {rest : Str}
    (hlen : segments.length ≤ left) (hdot : '.' ∉ rest) (hstop : Stops rest) :
    readGroups left true (segmentsText segments ++ rest) = (segments, false, rest) := by
  cases segments with
  | nil => exact readGroups_stop (readSeparator_no_dot hdot) (readNumber_no_digit hstop.no_digit)
  | cons segment segments =>
    rw [List.length_cons] at hlen
    obtain ⟨left, rfl⟩ : ∃ n, left = n + 1 := ⟨left - 1, by omega⟩
    have hnodot : '.' ∉ segmentsText (segment :: segments) ++ rest := by
      rw [List.mem_append]
      exact not_or.2 ⟨segmentsText_no_dot _, hdot⟩
    have hgroup : readSeparator ':' true (readNumber 16 4 0xffff true)
        (segmentsText (segment :: segments) ++ rest) =
          some (segment.toNat, laterText segments ++ rest) := by
      rw [segmentsText_cons, List.append_assoc]
      exact readNumber_groupText segment (laterText_head hstop)
    rw [readGroups_group (readSeparator_no_dot hnodot) hgroup, readGroups_laterText segments (by omega) hdot hstop]

end Groups

/-! ### The longest run of zeros -/

section Spans

/-- The segments with a run of zeros set apart. -/
def ZeroRun (segments : List (BitVec 16)) (span : Span) : Prop :=
  ∃ before after, segments = before ++ (List.replicate span.len 0 ++ after) ∧
    before.length = span.start

/-- The run that the segments end with, if there is one. -/
def LastRun (segments : List (BitVec 16)) (span : Span) : Prop :=
  span.len = 0 ∨ ∃ before, segments = before ++ List.replicate span.len 0 ∧
    before.length = span.start

lemma zeroSpanStep_runs {segments : List (BitVec 16)} {longest current : Span}
    (segment : BitVec 16) (hlongest : ZeroRun segments longest) (hcurrent : LastRun segments current) :
    ZeroRun (segments ++ [segment])
        (zeroSpanStep (longest, current) (segment, segments.length)).1 ∧
      LastRun (segments ++ [segment])
        (zeroSpanStep (longest, current) (segment, segments.length)).2 := by
  have hkept : ZeroRun (segments ++ [segment]) longest := by
    obtain ⟨before, after, rfl, hstart⟩ := hlongest
    exact ⟨before, after ++ [segment], by simp, hstart⟩
  by_cases hzero : segment = 0
  · have hgrown : LastRun (segments ++ [segment])
        ⟨if current.len = 0 then segments.length else current.start, current.len + 1⟩ := by
      subst hzero
      right
      obtain hnone | ⟨before, hsegments, hstart⟩ := hcurrent
      · exact ⟨segments, by simp [hnone], by simp [hnone]⟩
      · by_cases hnone : current.len = 0
        · exact ⟨segments, by simp [hnone], by simp [hnone]⟩
        · exact ⟨before, by simp [hsegments, List.replicate_succ'], by simp [hnone, hstart]⟩
    simp only [zeroSpanStep, hzero, if_true] at hgrown hkept ⊢
    refine ⟨?_, hgrown⟩
    split
    · obtain hnone | ⟨before, hsegments, hstart⟩ := hgrown
      · exact absurd hnone (Nat.succ_ne_zero _)
      · exact ⟨before, [], by rw [List.append_nil]; exact hsegments, hstart⟩
    · exact hkept
  · simp only [zeroSpanStep, hzero, if_false]
    exact ⟨hkept, .inl rfl⟩

lemma longestZeroSpan_run (segments : List (BitVec 16)) :
    ZeroRun segments (longestZeroSpan segments) := by
  have hruns : ZeroRun segments (segments.zipIdx.foldl zeroSpanStep (⟨0, 0⟩, ⟨0, 0⟩)).1 ∧
      LastRun segments (segments.zipIdx.foldl zeroSpanStep (⟨0, 0⟩, ⟨0, 0⟩)).2 := by
    induction segments using List.reverseRecOn with
    | nil => exact ⟨⟨[], [], rfl, rfl⟩, .inl rfl⟩
    | append_singleton segments segment ih =>
      rw [List.zipIdx_append, List.foldl_append]
      simpa using zeroSpanStep_runs segment ih.1 ih.2
  exact hruns.1

end Spans

/-! ### IPv6 -/

section Ipv6

/-- A step of `Ipv6Addr.fromSegments`. -/
def pushSegment (addr : Ipv6Addr) (segment : BitVec 16) : Ipv6Addr :=
  addr <<< 16 ||| segment.setWidth 128

lemma pushSegment_toNat {addr : Ipv6Addr} (segment : BitVec 16) (h : addr.toNat < 2 ^ 112) :
    (pushSegment addr segment).toNat = addr.toNat * 65536 + segment.toNat := by
  have hsegment := segment.isLt
  rw [pushSegment, BitVec.toNat_or, BitVec.toNat_shiftLeft, BitVec.toNat_setWidth,
    Nat.shiftLeft_eq, Nat.mod_eq_of_lt (by omega : addr.toNat * 2 ^ 16 < 2 ^ 128),
    Nat.mod_eq_of_lt (by omega), ← Nat.shiftLeft_eq, ← Nat.shiftLeft_add_eq_or_of_lt hsegment,
    Nat.shiftLeft_eq]

/-- The number of an address whose segments follow those of another one. -/
lemma foldl_pushSegment (segments : List (BitVec 16)) {addr : Ipv6Addr} {n : Nat}
    (haddr : addr.toNat < 65536 ^ n) (hlen : n + segments.length ≤ 8) :
    (segments.foldl pushSegment addr).toNat =
      segments.foldl (fun value segment => value * 65536 + segment.toNat) addr.toNat := by
  induction segments generalizing addr n with
  | nil => rfl
  | cons segment segments ih =>
    rw [List.length_cons] at hlen
    have hsegment := segment.isLt
    have hbound : 65536 ^ n ≤ 65536 ^ 7 := Nat.pow_le_pow_right (by decide) (by omega)
    have hstep := pushSegment_toNat segment (by omega : addr.toNat < 2 ^ 112)
    have hnext : (pushSegment addr segment).toNat < 65536 ^ (n + 1) := by
      rw [hstep, Nat.pow_succ]
      omega
    rw [List.foldl_cons, List.foldl_cons, ih hnext (by omega), hstep]

lemma fromSegments_toNat {segments : List (BitVec 16)} (hlen : segments.length ≤ 8) :
    (Ipv6Addr.fromSegments segments).toNat =
      segments.foldl (fun value segment => value * 65536 + segment.toNat) 0 := by
  apply foldl_pushSegment
  · exact (by decide : (0 : Ipv6Addr).toNat < 65536 ^ 0)
  · omega

lemma segments_length (ip : Ipv6Addr) : ip.segments.length = 8 := by
  rw [Ipv6Addr.segments, List.length_map, List.length_range]

/-- The first segments of an address make up its bits at the top. -/
lemma foldl_segments (ip : Ipv6Addr) {n : ℕ} (hn : n ≤ 8) :
    ((List.range n).map ip.segment).foldl (fun value segment => value * 65536 + segment.toNat) 0 =
      ip.toNat / 2 ^ (128 - 16 * n) := by
  induction n with
  | zero => exact (Nat.div_eq_of_lt ip.isLt).symm
  | succ n ih =>
    have hpow : 2 ^ (128 - 16 * n) = 2 ^ (112 - 16 * n) * 65536 := by
      rw [show 128 - 16 * n = 112 - 16 * n + 16 by omega, Nat.pow_add]
    have hnext : 128 - 16 * (n + 1) = 112 - 16 * n := by omega
    rw [List.range_succ, List.map_append, List.foldl_append, ih (by omega), hpow,
      ← Nat.div_div_eq_div_mul, hnext, List.map_singleton, List.foldl_cons, List.foldl_nil,
      segment_toNat]
    exact Nat.div_add_mod' _ _

lemma fromSegments_segments (ip : Ipv6Addr) : Ipv6Addr.fromSegments ip.segments = ip := by
  apply BitVec.eq_of_toNat_eq
  rw [fromSegments_toNat (segments_length ip).le, Ipv6Addr.segments, foldl_segments ip le_rfl]
  exact Nat.div_one _

lemma readGivenChar_cons (c : Char) (s : Str) : readGivenChar c (c :: s) = some ((), s) := by
  simp [readGivenChar]

/-- All eight groups are written. -/
lemma readIpv6Addr_full {segments : List (BitVec 16)} (hlen : segments.length = 8) :
    readIpv6Addr (segmentsText segments) = some (.fromSegments segments, []) := by
  have hread := readGroups_segmentsText segments hlen.le List.not_mem_nil (.inl rfl)
  rw [List.append_nil] at hread
  unfold readIpv6Addr
  rw [hread]
  dsimp only
  rw [if_pos hlen]

/-- A run of zeros is written as a double colon. -/
lemma readIpv6Addr_compressed (before after : List (BitVec 16)) {n : Nat} (hzeros : 1 < n)
    (hlen : before.length + n + after.length = 8) :
    readIpv6Addr (segmentsText before ++ "::".toList ++ segmentsText after) =
      some (.fromSegments (before ++ List.replicate n 0 ++ after), []) := by
  have hdot : '.' ∉ "::".toList ++ segmentsText after := by
    rw [List.mem_append]
    exact not_or.2 ⟨by decide, segmentsText_no_dot after⟩
  have hbefore : readGroups 8 true (segmentsText before ++ ("::".toList ++ segmentsText after)) =
      (before, false, "::".toList ++ segmentsText after) :=
    readGroups_segmentsText before (by omega) hdot (.inr ⟨_, rfl⟩)
  have hafter := readGroups_segmentsText after (by omega : after.length ≤ 8 - (before.length + 1))
    List.not_mem_nil (.inl rfl)
  rw [List.append_nil] at hafter
  have hcolons : "::".toList ++ segmentsText after = ':' :: ':' :: segmentsText after := rfl
  unfold readIpv6Addr
  rw [List.append_assoc, hbefore, hcolons]
  dsimp only
  rw [if_neg (by omega), if_neg (by decide), readGivenChar_cons]
  dsimp only [Option.bind_eq_bind, Option.bind_some]
  rw [readGivenChar_cons]
  dsimp only [Option.bind_some]
  rw [hafter, show 8 - before.length - after.length = n by omega]
  rfl

/-- An IPv4 address where two groups may stand. -/
lemma readGroups_embedded (v4 : Ipv4Addr) {left : Nat} :
    readGroups (left + 2) false (':' :: v4.toText) =
      ([v4.octet 0 ++ v4.octet 1, v4.octet 2 ++ v4.octet 3], true, []) := by
  have hread : readIpv4Addr (v4.toText ++ []) = some (v4, []) := by
    apply readIpv4Addr_toText
    rintro c ⟨⟩
  rw [List.append_nil] at hread
  rw [readGroups, readSeparator_cons, hread]
  simp

lemma fromSegments_mapped (v4 : Ipv4Addr) :
    Ipv6Addr.fromSegments (List.replicate 5 0 ++
      [0xffff, v4.octet 0 ++ v4.octet 1, v4.octet 2 ++ v4.octet 3]) = mappedV6 v4 := by
  have hv4 := v4.isLt
  have hzero : (0 : BitVec 16).toNat = 0 := rfl
  have hones : (0xffff : BitVec 16).toNat = 0xffff := rfl
  apply BitVec.eq_of_toNat_eq
  rw [fromSegments_toNat (by simp), mappedV6_toNat]
  simp only [List.replicate, List.cons_append, List.nil_append, List.foldl_cons, List.foldl_nil,
    toNat_append_add, octet_toNat, hzero, hones]
  norm_num
  omega

/-- A mapped address is written with its IPv4 address at the end. -/
lemma readIpv6Addr_mapped (v4 : Ipv4Addr) :
    readIpv6Addr ("::ffff:".toList ++ v4.toText) = some (mappedV6 v4, []) := by
  have hnone (c : Char) (s : Str) (hc : toDigit 10 c = none) :
      readSeparator ':' true readIpv4Addr (c :: s) = none := by
    apply readIpv4Addr_no_digit
    rintro c ⟨⟩
    exact hc
  have hhead (s : Str) : readGroups 8 true (':' :: s) = ([], false, ':' :: s) := by
    apply readGroups_stop (hnone _ _ rfl)
    rw [readSeparator_first]
    apply readNumber_no_digit
    rintro c ⟨⟩
    rfl
  have hgroup : readSeparator ':' true (readNumber 16 4 0xffff true)
      ('f' :: 'f' :: 'f' :: 'f' :: ':' :: v4.toText) =
        some ((0xffff : BitVec 16).toNat, ':' :: v4.toText) := by
    have hcolon : ∀ c ∈ (':' :: v4.toText).head?, toDigit 16 c = none := by
      rintro c ⟨⟩
      rfl
    exact readNumber_groupText 0xffff hcolon
  have htail : readGroups (8 - (([] : List (BitVec 16)).length + 1)) true
      ('f' :: 'f' :: 'f' :: 'f' :: ':' :: v4.toText) =
        ([0xffff, v4.octet 0 ++ v4.octet 1, v4.octet 2 ++ v4.octet 3], true, []) := by
    change readGroups 7 true _ = _
    rw [readGroups_group (hnone _ _ rfl) hgroup, readGroups_embedded]
  have htext : "::ffff:".toList ++ v4.toText =
      ':' :: ':' :: 'f' :: 'f' :: 'f' :: 'f' :: ':' :: v4.toText := rfl
  unfold readIpv6Addr
  rw [htext, hhead]
  dsimp only
  rw [if_neg (by decide), if_neg (by decide), readGivenChar_cons]
  dsimp only [Option.bind_eq_bind, Option.bind_some]
  rw [readGivenChar_cons]
  dsimp only [Option.bind_some]
  rw [htail, ← fromSegments_mapped]
  rfl

lemma readIpv6Addr_toText (ip : Ipv6Addr) : readIpv6Addr ip.toText = some (ip, []) := by
  unfold Ipv6Addr.toText
  split
  · rename_i v4 hv4
    rw [readIpv6Addr_mapped]
    have hip : mappedV6 v4 = ip := by
      apply BitVec.eq_of_toNat_eq
      rw [mappedV6_toNat, toIpv4Mapped_eq_some.1 hv4]
    rw [hip]
  · have hlen := segments_length ip
    dsimp only
    split
    · rename_i hzeros
      obtain ⟨before, after, hsegments, hstart⟩ := longestZeroSpan_run ip.segments
      generalize longestZeroSpan ip.segments = zeroes at *
      have hsplit : ip.segments = before ++ List.replicate zeroes.len 0 ++ after := by
        rw [hsegments, List.append_assoc]
      have htake : ip.segments.take zeroes.start = before := by
        rw [hsegments, ← hstart, List.take_left]
      have hdrop : ip.segments.drop (zeroes.start + zeroes.len) = after := by
        rw [hsplit, ← hstart]
        apply List.drop_left'
        simp
      have htotal : before.length + zeroes.len + after.length = 8 := by
        rw [← hlen, hsplit]
        simp [Nat.add_assoc]
      rw [htake, hdrop, readIpv6Addr_compressed before after hzeros htotal, ← hsplit,
        fromSegments_segments]
    · rw [readIpv6Addr_full hlen, fromSegments_segments]

/-- An IPv6 text is not read as an IPv4 address. -/
lemma readIpv4Addr_ipv6Text (ip : Ipv6Addr) : readIpv4Addr ip.toText = none := by
  unfold Ipv6Addr.toText
  split
  · apply readIpv4Addr_no_digit
    rintro c ⟨⟩
    rfl
  · apply readIpv4Addr_no_dot
    dsimp only
    split
    · simp only [List.mem_append, not_or]
      exact ⟨⟨segmentsText_no_dot _, by decide⟩, segmentsText_no_dot _⟩
    · exact segmentsText_no_dot _

end Ipv6

/-- What `Display` writes, `FromStr` reads back. -/
lemma parseIpAddr_addrText (ip : IpAddr) : parseIpAddr (addrText ip) = some ip := by
  unfold parseIpAddr readIpAddr
  cases ip with
  | v4 v4 =>
    have hread : readIpv4Addr (v4.toText ++ []) = some (v4, []) := by
      apply readIpv4Addr_toText
      rintro c ⟨⟩
    rw [List.append_nil] at hread
    rw [addrText, hread]
  | v6 v6 => rw [addrText, readIpv4Addr_ipv6Text, readIpv6Addr_toText]; rfl

end WsTcpProxy.Proofs
