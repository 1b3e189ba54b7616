import Mathlib.Tactic

/-!
# Strings

The operations of `str`, `char` and the integer parsers of the Rust standard library that
the proxy uses. A string is the sequence of its Unicode scalar values; `len` counts the
bytes of its UTF-8 encoding.
-/

namespace WsTcpProxy

/-- A Rust `str`, as its sequence of Unicode scalar values. -/
abbrev Str := List Char

instance : LawfulBEq Str := inferInstance

/-- `str::len`. -/
def utf8Len (s : Str) : Nat := (s.map Char.utf8Size).sum

/-- `char::is_whitespace`: the Unicode property `White_Space`. -/
def isWhitespace (c : Char) : Bool :=
  (0x9 ≤ c.toNat && c.toNat ≤ 0xd) || c.toNat == 0x20 || c.toNat == 0x85 || c.toNat == 0xa0 ||
  c.toNat == 0x1680 || (0x2000 ≤ c.toNat && c.toNat ≤ 0x200a) || c.toNat == 0x2028 ||
  c.toNat == 0x2029 || c.toNat == 0x202f || c.toNat == 0x205f || c.toNat == 0x3000

/-- Removes the characters with `p` from the end. -/
def trimEndWhile (p : Char → Bool) (s : Str) : Str := (s.reverse.dropWhile p).reverse

def trim (s : Str) : Str := trimEndWhile isWhitespace (s.dropWhile isWhitespace)

/-- `str::trim_end_matches` with a character. -/
def trimEndMatches (c : Char) (s : Str) : Str := trimEndWhile (· == c) s

def toAsciiLowercase (s : Str) : Str := s.map Char.toLower

def stripPrefix : Str → Str → Option Str
  | [], s => some s
  | c :: p, d :: s => if c = d then stripPrefix p s else none
  | _ :: _, [] => none

/-- `str::contains` with a string. -/
def contains (pat s : Str) : Bool := s.tails.any fun t => pat.isPrefixOf t

/-- `str::split_once` with a character: the parts around its first occurrence. -/
def splitOnce (c : Char) : Str → Option (Str × Str)
  | [] => none
  | d :: s => if d = c then some ([], s) else (splitOnce c s).map fun (a, b) => (d :: a, b)

/-- `str::rsplit_once` with a character: the parts around its last occurrence. -/
def rsplitOnce (c : Char) (s : Str) : Option (Str × Str) :=
  (splitOnce c s.reverse).map fun (a, b) => (b.reverse, a.reverse)

/-- `str::split_once` with a string. -/
def splitOnceStr (pat : Str) : Str → Option (Str × Str)
  | [] => (stripPrefix pat []).map fun rest => ([], rest)
  | c :: s =>
    match stripPrefix pat (c :: s) with
    | some rest => some ([], rest)
    | none => (splitOnceStr pat s).map fun (a, b) => (c :: a, b)

def isAsciiDigit (c : Char) : Bool := '0' ≤ c && c ≤ '9'

def isAsciiAlphanumeric (c : Char) : Bool :=
  isAsciiDigit c || ('a' ≤ c && c ≤ 'z') || ('A' ≤ c && c ≤ 'Z')

/-- `char::to_digit`, for a radix of at most 36. -/
def toDigit (radix : Nat) (c : Char) : Option Nat :=
  let d :=
    if '0' ≤ c ∧ c ≤ '9' then c.toNat - '0'.toNat
    else if 'a' ≤ c ∧ c ≤ 'z' then c.toNat - 'a'.toNat + 10
    else if 'A' ≤ c ∧ c ≤ 'Z' then c.toNat - 'A'.toNat + 10
    else radix
  if d < radix then some d else none

/-- The value of a sequence of digits, or `none` at a character that is not one. -/
def digitsFrom (radix : Nat) : Nat → Str → Option Nat
  | acc, [] => some acc
  | acc, c :: s =>
    match toDigit radix c with
    | some d => digitsFrom radix (acc * radix + d) s
    | none => none

/-- `from_str_radix` of an unsigned type with greatest value `max`: an optional plus sign and
at least one digit. The value only grows from digit to digit, so the check for overflow at
each digit is one check at the end. -/
def fromStrRadix (radix max : Nat) (s : Str) : Option Nat :=
  let digits := (stripPrefix ['+'] s).getD s
  if digits = [] then none
  else (digitsFrom radix 0 digits).filter (· ≤ max)

def parseU8 (s : Str) : Option Nat := fromStrRadix 10 (2 ^ 8 - 1) s

def parseU16 (s : Str) : Option Nat := fromStrRadix 10 (2 ^ 16 - 1) s

/-- `u32::from_str_radix`. -/
def parseU32 (radix : Nat) (s : Str) : Option Nat := fromStrRadix radix (2 ^ 32 - 1) s

end WsTcpProxy
