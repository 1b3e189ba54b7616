import WsTcpProxy.Dest

/-!
# Numeric hosts

Which host texts denote an address without a name lookup: the texts of the standard address
parser and the numeric forms of `inet_aton`. The numerals of the latter are unbounded here,
with any number of leading zeros.
-/

namespace WsTcpProxy

def numeral : Str → Option Nat
  | [] => none
  | '0' :: 'x' :: hex => if hex = [] then none else digitsFrom 16 0 hex
  | '0' :: 'X' :: hex => if hex = [] then none else digitsFrom 16 0 hex
  | '0' :: octal => digitsFrom 8 0 octal
  | decimal => digitsFrom 10 0 decimal

/-- The number with leading bytes `bytes`, `n` bytes in all, before `last` is added. -/
def leadingBytes (n : Nat) (bytes : List Nat) : Nat :=
  (bytes.zipIdx.map fun (b, i) => b * 256 ^ (n - 1 - i)).sum

/-- The address of dotted numerals: all but the last are bytes, and the last one fills what
is left of the four bytes. -/
def dottedAddr (numerals : List Nat) : Option Nat :=
  match numerals.getLast? with
  | none => none
  | some last =>
    if numerals.length ≤ 4 ∧ (∀ b ∈ numerals.dropLast, b ≤ 255) ∧
        last < 256 ^ (5 - numerals.length) then
      some (leadingBytes 4 numerals.dropLast + last)
    else none

def inetAton (s : Str) : Option Nat := ((s.splitOn '.').mapM numeral).bind dottedAddr

def NumericHost (s : Str) : Prop := (parseIpAddr s).isSome ∨ (inetAton s).isSome

instance (s : Str) : Decidable (NumericHost s) := inferInstanceAs (Decidable (_ ∨ _))

/-- The text within a host that the trims of `normalize_hostname` keep. -/
def hostCore (host : Str) : Str := trimEndMatches '.' (trim host)

/-- A host text that hides an `inet_aton` address from the literal tests of `parse_remote`: the
address stands among white space or before dots, or is longer than the 32 bytes that
`parse_loose_ipv4` reads. Its labels must be short enough for a hostname. -/
def DisguisedAddress (host : Str) : Prop :=
  let core := hostCore host
  (inetAton core).isSome ∧ (core ≠ host ∨ 32 < core.length) ∧
    core.length ≤ maxHostnameLen ∧ ∀ label ∈ core.splitOn '.', label.length ≤ maxDnsLabelLen

instance (host : Str) : Decidable (DisguisedAddress host) :=
  inferInstanceAs (Decidable (_ ∧ _ ∧ _ ∧ _))

/-- No numeric address passes for a hostname in `raw`: neither in what is handed to the
resolver nor past a policy without literals. -/
def NoHiddenAddress (raw : Str) : Prop :=
  ∀ r, parseRemote raw = .ok r →
    (r.ipLiteral = none → ¬ NumericHost r.host) ∧
    ∀ policy : DestPolicy, policy.allowIpLiterals = false → checkPolicy r policy = .ok () →
      ¬ NumericHost r.host

end WsTcpProxy
