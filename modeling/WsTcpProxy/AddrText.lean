import WsTcpProxy.Addr
import WsTcpProxy.Text

/-!
# Text of network addresses

The parser behind `IpAddr::from_str` and the `Display` instances of `std::net`. A reader
takes the unread input and returns what it read with the input left over; a reader that
fails reads nothing.
-/

namespace WsTcpProxy

abbrev Reader (α : Type) := Str → Option (α × Str)

def readGivenChar (c : Char) : Reader Unit
  | d :: s => if d = c then some ((), s) else none
  | [] => none

/-- `Parser::read_separator`: every element but the first follows a separator. -/
def readSeparator {α : Type} (sep : Char) (first : Bool) (inner : Reader α) : Reader α := fun s =>
  if first then inner s
  else match readGivenChar sep s with
    | some ((), s) => inner s
    | none => none

/-- `Parser::read_number` of an unsigned type with greatest value `max`. -/
def readNumber (radix maxDigits max : Nat) (allowZeroPrefix : Bool) : Reader Nat := fun s =>
  let digits := s.takeWhile fun c => (toDigit radix c).isSome
  let value := (digitsFrom radix 0 digits).getD 0
  if digits = [] ∨ maxDigits < digits.length then none
  else if !allowZeroPrefix && digits.head? == some '0' && 1 < digits.length then none
  else if max < value then none
  else some (value, s.drop digits.length)

/-- The decimal number of an IPv4 octet: at most three digits, no leading zero. -/
def readOctet (first : Bool) : Reader Nat := readSeparator '.' first (readNumber 10 3 255 false)

def readIpv4Addr : Reader Ipv4Addr := fun s => do
  let (a, s) ← readOctet true s
  let (b, s) ← readOctet false s
  let (c, s) ← readOctet false s
  let (d, s) ← readOctet false s
  return (Ipv4Addr.new (.ofNat 8 a) (.ofNat 8 b) (.ofNat 8 c) (.ofNat 8 d), s)

/-- `read_groups` with `left` groups to fill: the groups read, whether they end with an
embedded IPv4 address, and the input left over. -/
def readGroups : (left : Nat) → (first : Bool) → Str → List (BitVec 16) × Bool × Str
  | 0, _, s => ([], false, s)
  | left + 1, first, s =>
    match if left = 0 then none else readSeparator ':' first readIpv4Addr s with
    | some (v4, s) =>
      ([v4.octet 0 ++ v4.octet 1, v4.octet 2 ++ v4.octet 3], true, s)
    | none =>
      match readSeparator ':' first (readNumber 16 4 0xffff true) s with
      | some (group, s) =>
        let (groups, ipv4, s) := readGroups left false s
        (.ofNat 16 group :: groups, ipv4, s)
      | none => ([], false, s)

/-- `Ipv6Addr::from` for the list of the eight segments. -/
def Ipv6Addr.fromSegments (segments : List (BitVec 16)) : Ipv6Addr :=
  segments.foldl (fun addr segment => addr <<< 16 ||| segment.setWidth 128) 0

def readIpv6Addr : Reader Ipv6Addr := fun s =>
  let (head, headIpv4, s) := readGroups 8 true s
  if head.length = 8 then some (.fromSegments head, s)
  else if headIpv4 then none
  else do
    let ((), s) ← readGivenChar ':' s
    let ((), s) ← readGivenChar ':' s
    let (tail, _, s) := readGroups (8 - (head.length + 1)) true s
    return (.fromSegments
      (head ++ List.replicate (8 - head.length - tail.length) 0 ++ tail), s)

def readIpAddr : Reader IpAddr := fun s =>
  match readIpv4Addr s with
  | some (v4, s) => some (.v4 v4, s)
  | none => (readIpv6Addr s).map fun (v6, s) => (.v6 v6, s)

def parseIpAddr (s : Str) : Option IpAddr :=
  match readIpAddr s with
  | some (ip, []) => some ip
  | _ => none

/-! ### `Display` -/

def Ipv4Addr.toText (ip : Ipv4Addr) : Str :=
  Nat.toDigits 10 (ip.octet 0).toNat ++ '.' :: Nat.toDigits 10 (ip.octet 1).toNat ++
  '.' :: Nat.toDigits 10 (ip.octet 2).toNat ++ '.' :: Nat.toDigits 10 (ip.octet 3).toNat

/-- A run of zero segments: its first index and its length. -/
structure Span where
  start : Nat
  len : Nat
  deriving DecidableEq, Repr

/-- One segment of the search for the longest run of zero segments. -/
def zeroSpanStep (spans : Span × Span) (segment : BitVec 16 × Nat) : Span × Span :=
  let (longest, current) := spans
  if segment.1 = 0 then
    let current : Span :=
      ⟨if current.len = 0 then segment.2 else current.start, current.len + 1⟩
    (if longest.len < current.len then current else longest, current)
  else (longest, ⟨0, 0⟩)

def longestZeroSpan (segments : List (BitVec 16)) : Span :=
  (segments.zipIdx.foldl zeroSpanStep (⟨0, 0⟩, ⟨0, 0⟩)).1

/-- `fmt_subslice`. -/
def segmentsText (segments : List (BitVec 16)) : Str :=
  [':'].intercalate (segments.map fun segment => Nat.toDigits 16 segment.toNat)

def Ipv6Addr.segments (ip : Ipv6Addr) : List (BitVec 16) := (List.range 8).map ip.segment

def Ipv6Addr.toText (ip : Ipv6Addr) : Str :=
  match ip.toIpv4Mapped with
  | some v4 => "::ffff:".toList ++ v4.toText
  | none =>
    let zeroes := longestZeroSpan ip.segments
    if 1 < zeroes.len then
      segmentsText (ip.segments.take zeroes.start) ++ "::".toList ++
        segmentsText (ip.segments.drop (zeroes.start + zeroes.len))
    else segmentsText ip.segments

end WsTcpProxy
