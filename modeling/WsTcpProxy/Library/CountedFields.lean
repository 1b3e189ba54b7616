import Mathlib.Tactic

/-!
# Fields that carry their length

A counted field is a header of fixed length, which says how long the field is, followed by the
field. `CountedFormat.read` takes one off the front of the input, `CountedFormat.Splits` cuts an
input wholly into such fields, and `CountedFormat.first` searches for the first one whose header
satisfies a test. Its three outcomes are described by the inputs that have them.
-/

namespace WsTcpProxy.Library

variable {α : Type}

structure CountedFormat (α : Type) where
  headerLen : ℕ
  headerLen_pos : 0 < headerLen
  len : List α → ℕ

namespace CountedFormat

variable (fmt : CountedFormat α) {header field rest input : List α}

/-- `header` is complete and announces `field`. -/
structure Entry (header field : List α) : Prop where
  header_length : header.length = fmt.headerLen
  field_length : field.length = fmt.len header

def read (input : List α) : Option ((List α × List α) × List α) :=
  let header := input.take fmt.headerLen
  let rest := input.drop fmt.headerLen
  if fmt.headerLen ≤ input.length ∧ fmt.len header ≤ rest.length then
    some ((header, rest.take (fmt.len header)), rest.drop (fmt.len header))
  else none

lemma read_append (h : fmt.Entry header field) :
    fmt.read (header ++ field ++ rest) = some ((header, field), rest) := by
  have htake : (header ++ field ++ rest).take fmt.headerLen = header := by
    rw [List.append_assoc, List.take_left' h.header_length]
  have hdrop : (header ++ field ++ rest).drop fmt.headerLen = field ++ rest := by
    rw [List.append_assoc, List.drop_left' h.header_length]
  have hlen : fmt.headerLen ≤ (header ++ field ++ rest).length := by
    simp only [List.length_append, h.header_length]
    omega
  have hfield : fmt.len header ≤ (field ++ rest).length := by
    simp only [List.length_append, h.field_length]
    omega
  simp only [read, htake, hdrop]
  rw [if_pos ⟨hlen, hfield⟩, List.take_left' h.field_length, List.drop_left' h.field_length]

lemma read_eq_some :
    fmt.read input = some ((header, field), rest) ↔
      fmt.Entry header field ∧ input = header ++ field ++ rest := by
  constructor
  · intro h
    simp only [read] at h
    split at h
    · rename_i hlen
      cases h
      refine ⟨⟨?_, ?_⟩, ?_⟩
      · rw [List.length_take]
        exact min_eq_left hlen.1
      · rw [List.length_take]
        exact min_eq_left hlen.2
      · rw [List.append_assoc, List.take_append_drop, List.take_append_drop]
    · cases h
  · rintro ⟨hentry, rfl⟩
    exact fmt.read_append hentry

lemma read_length (h : fmt.read input = some ((header, field), rest)) :
    rest.length < input.length := by
  obtain ⟨hentry, rfl⟩ := fmt.read_eq_some.mp h
  have := fmt.headerLen_pos
  simp only [List.length_append, hentry.header_length]
  omega

lemma read_drop (input : List α) (i : ℕ) :
    fmt.read (input.drop i) =
      let header := (input.drop i).take fmt.headerLen
      let start := i + fmt.headerLen
      if start + fmt.len header ≤ input.length then
        some ((header, (input.drop start).take (fmt.len header)),
          input.drop (start + fmt.len header))
      else none := by
  have hpos := fmt.headerLen_pos
  simp only [read, List.drop_drop, List.length_drop]
  congr 1
  rw [eq_iff_iff]
  omega

/-- `input` is cut wholly into the listed headers and fields. -/
inductive Splits : List α → List (List α × List α) → Prop
  | nil : Splits [] []
  | cons {header field rest : List α} {entries : List (List α × List α)} :
      fmt.Entry header field → Splits rest entries →
        Splits (header ++ field ++ rest) ((header, field) :: entries)

lemma Splits.single (h : fmt.Entry header field) : fmt.Splits (header ++ field) [(header, field)] := by
  simpa using Splits.cons h Splits.nil

inductive Search (α : Type) where
  | found (field : List α)
  | exhausted
  | truncated

/-- The field of the first header with `p`. The input is exhausted when it ends within a header, and
truncated when it ends within a field. -/
def first (p : List α → Bool) (input : List α) : Search α :=
  match _h : fmt.read input with
  | none => if input.length < fmt.headerLen then .exhausted else .truncated
  | some ((header, field), rest) => if p header then .found field else first p rest
termination_by input.length
decreasing_by exact fmt.read_length _h

variable {fmt} {p : List α → Bool} {entries : List (List α × List α)}

lemma first_cons (hentry : fmt.Entry header field) :
    fmt.first p (header ++ field ++ rest) = if p header then .found field else fmt.first p rest := by
  rw [first]
  split
  · rename_i h
    rw [fmt.read_append hentry] at h
    cases h
  · rename_i h
    rw [fmt.read_append hentry] at h
    cases h
    rfl

lemma first_skip (hsplits : fmt.Splits input entries) (hp : ∀ e ∈ entries, p e.1 = false) :
    fmt.first p (input ++ rest) = fmt.first p rest := by
  induction hsplits with
  | nil => rfl
  | cons hentry _ ih =>
    rw [List.append_assoc (_ ++ _), first_cons hentry, hp _ List.mem_cons_self]
    exact ih fun e he => hp e (List.mem_cons_of_mem _ he)

lemma first_short (h : input.length < fmt.headerLen) : fmt.first p input = .exhausted := by
  rw [first]
  split
  · rw [if_pos h]
  · rename_i hread
    obtain ⟨hentry, rfl⟩ := fmt.read_eq_some.mp hread
    simp only [List.length_append, hentry.header_length] at h
    omega

lemma first_drop (p : List α → Bool) (input : List α) (i : ℕ) :
    fmt.first p (input.drop i) =
      let header := (input.drop i).take fmt.headerLen
      let start := i + fmt.headerLen
      if start ≤ input.length then
        if start + fmt.len header ≤ input.length then
          if p header then .found ((input.drop start).take (fmt.len header))
          else fmt.first p (input.drop (start + fmt.len header))
        else .truncated
      else .exhausted := by
  have hpos := fmt.headerLen_pos
  dsimp only
  by_cases hstart : i + fmt.headerLen ≤ input.length
  · rw [if_pos hstart, first, read_drop]
    split
    · rename_i hread
      dsimp only at hread
      split_ifs at hread with hlen
      rw [if_neg hlen, if_neg (by rw [List.length_drop]; omega)]
    · rename_i hread
      dsimp only at hread
      split_ifs at hread with hlen
      cases hread
      rw [if_pos hlen]
  · rw [if_neg hstart]
    exact first_short (by rw [List.length_drop]; omega)

/-- What a search went through, for each of its outcomes. -/
lemma first_cases (p : List α → Bool) (input : List α) :
    ∃ front entries rest, input = front ++ rest ∧ fmt.Splits front entries ∧
      (∀ e ∈ entries, p e.1 = false) ∧
      ((∃ header field tail, fmt.Entry header field ∧ p header = true ∧
          rest = header ++ field ++ tail ∧ fmt.first p input = .found field) ∨
        (rest.length < fmt.headerLen ∧ fmt.first p input = .exhausted) ∨
        (fmt.headerLen ≤ rest.length ∧ fmt.read rest = none ∧ fmt.first p input = .truncated)) := by
  induction hn : input.length using Nat.strong_induction_on generalizing input with
  | h n ih =>
  cases hread : fmt.read input with
  | none =>
    refine ⟨[], [], input, rfl, .nil, by simp, ?_⟩
    by_cases hlen : input.length < fmt.headerLen
    · exact .inr (.inl ⟨hlen, first_short hlen⟩)
    · refine .inr (.inr ⟨by omega, hread, ?_⟩)
      rw [first]
      split
      · rw [if_neg hlen]
      · rename_i h
        rw [hread] at h
        cases h
  | some r =>
    obtain ⟨⟨header, field⟩, tail⟩ := r
    have hshorter := fmt.read_length hread
    obtain ⟨hentry, rfl⟩ := fmt.read_eq_some.mp hread
    by_cases hp : p header = true
    · refine ⟨[], [], _, rfl, .nil, by simp, .inl ⟨header, field, tail, hentry, hp, rfl, ?_⟩⟩
      rw [first_cons hentry, if_pos hp]
    · obtain ⟨front, entries, rest, rfl, hsplits, hskip, houtcome⟩ :=
        ih tail.length (hn ▸ hshorter) tail rfl
      refine ⟨header ++ field ++ front, (header, field) :: entries, rest, by simp,
        .cons hentry hsplits, ?_, ?_⟩
      · intro e he
        rcases List.mem_cons.mp he with rfl | he
        · simpa using hp
        · exact hskip e he
      · rw [first_cons hentry, if_neg hp]
        exact houtcome

/-- On an input that is cut wholly into entries, the search goes through their list. -/
lemma first_of_splits (hsplits : fmt.Splits input entries) :
    fmt.first p input =
      match entries.find? fun e => p e.1 with
      | some e => .found e.2
      | none => .exhausted := by
  induction hsplits with
  | nil => exact first_short fmt.headerLen_pos
  | cons hentry _ ih =>
    rw [first_cons hentry, List.find?_cons]
    split
    · rename_i hp
      rw [hp]
    · rename_i hp
      rw [Bool.eq_false_iff.mpr hp]
      exact ih

section Items

variable {β : Type} {items : List β} {headerOf fieldOf : β → List α}

/-- Items that are written as entries, one after another. -/
lemma Splits.of_items (h : ∀ x ∈ items, fmt.Entry (headerOf x) (fieldOf x)) :
    fmt.Splits (items.flatMap fun x => headerOf x ++ fieldOf x)
      (items.map fun x => (headerOf x, fieldOf x)) := by
  induction items with
  | nil => exact .nil
  | cons x items ih =>
    rw [List.flatMap_cons, List.map_cons]
    exact .cons (h x List.mem_cons_self) (ih fun y hy => h y (List.mem_cons_of_mem _ hy))

lemma first_of_items (h : ∀ x ∈ items, fmt.Entry (headerOf x) (fieldOf x)) :
    fmt.first p (items.flatMap fun x => headerOf x ++ fieldOf x) =
      match items.find? fun x => p (headerOf x) with
      | some x => .found (fieldOf x)
      | none => .exhausted := by
  have hfind : (items.map fun x => (headerOf x, fieldOf x)).find? (fun e => p e.1) =
      (items.find? fun x => p (headerOf x)).map fun x => (headerOf x, fieldOf x) := List.find?_map
  rw [first_of_splits (Splits.of_items h), hfind]
  cases items.find? fun x => p (headerOf x) <;> rfl

end Items

/-- The complete entries before the first one with `p` fail the test; anything may follow it. -/
def FirstEntry (fmt : CountedFormat α) (p : List α → Bool) (input field : List α) : Prop :=
  ∃ skipped entries header rest, input = skipped ++ (header ++ field ++ rest) ∧
    fmt.Splits skipped entries ∧ (∀ e ∈ entries, p e.1 = false) ∧ fmt.Entry header field ∧
    p header = true

/-- Complete entries that all fail the test, and less than a header after them. -/
def NoEntry (fmt : CountedFormat α) (p : List α → Bool) (input : List α) : Prop :=
  ∃ skipped entries tail, input = skipped ++ tail ∧ fmt.Splits skipped entries ∧
    (∀ e ∈ entries, p e.1 = false) ∧ tail.length < fmt.headerLen

theorem first_eq_found : fmt.first p input = .found field ↔ fmt.FirstEntry p input field := by
  constructor
  · intro h
    obtain ⟨front, entries, rest, rfl, hsplits, hskip, houtcome⟩ := @first_cases α fmt p input
    obtain ⟨header, field', tail, hentry, hp, rfl, hfound⟩ | ⟨-, hfirst⟩ | ⟨-, -, hfirst⟩ := houtcome
    · cases hfound.symm.trans h
      exact ⟨front, entries, header, tail, rfl, hsplits, hskip, hentry, hp⟩
    · cases hfirst.symm.trans h
    · cases hfirst.symm.trans h
  · rintro ⟨skipped, entries, header, rest, rfl, hsplits, hskip, hentry, hp⟩
    rw [first_skip hsplits hskip, first_cons hentry, if_pos hp]

theorem first_eq_exhausted : fmt.first p input = .exhausted ↔ fmt.NoEntry p input := by
  constructor
  · intro h
    obtain ⟨front, entries, rest, rfl, hsplits, hskip, houtcome⟩ := @first_cases α fmt p input
    obtain ⟨_, _, _, -, -, -, hfound⟩ | ⟨hlen, -⟩ | ⟨-, -, hfirst⟩ := houtcome
    · cases hfound.symm.trans h
    · exact ⟨front, entries, rest, rfl, hsplits, hskip, hlen⟩
    · cases hfirst.symm.trans h
  · rintro ⟨skipped, entries, tail, rfl, hsplits, hskip, hlen⟩
    rw [first_skip hsplits hskip, first_short hlen]

end CountedFormat

end WsTcpProxy.Library
