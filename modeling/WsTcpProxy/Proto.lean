import WsTcpProxy.Remote

/-!
# Protocol probes

Checks on the first bytes of a session (`proto.rs`). Direct indexing and slicing that is out
of range is a panic; a checked `get` is not.
-/

namespace WsTcpProxy

abbrev Bytes := List UInt8

def maxTlsRecord : Nat := 16 * 1024

def maxGreeting : Nat := 512

inductive ProbeKind where
  | tlsSni
  | imapGreeting
  | smtpGreeting
  deriving DecidableEq, Repr

inductive ProtoError where
  | notTls
  | malformed
  | sniMismatch
  | missingSni
  | badGreeting
  deriving DecidableEq, Repr

inductive Fault where
  | proto (e : ProtoError)
  | panic
  deriving DecidableEq, Repr

abbrev Checked := Except Fault

/-- `b[i]`. -/
def index (b : Bytes) (i : Nat) : Checked UInt8 := okOr .panic b[i]?

/-- `b.get(i..j)`. -/
def getRange (b : Bytes) (i j : Nat) : Option Bytes :=
  if i ≤ j ∧ j ≤ b.length then some ((b.drop i).take (j - i)) else none

/-- `b[i..j]`. -/
def indexRange (b : Bytes) (i j : Nat) : Checked Bytes := okOr .panic (getRange b i j)

/-- `ok_or(ProtoError::Malformed)`. -/
def orMalformed {α : Type} (o : Option α) : Checked α := okOr (.proto .malformed) o

def u16FromBeBytes (hi lo : UInt8) : Nat := hi.toNat * 256 + lo.toNat

def u24 (b : Bytes) : Checked Nat :=
  if b.length < 3 then throw (.proto .malformed)
  else do
    return (← index b 0).toNat <<< 16 ||| (← index b 1).toNat <<< 8 ||| (← index b 2).toNat

def u16At (buf : Bytes) (i : Nat) : Checked Nat := do
  let s ← orMalformed (getRange buf i (i + 2))
  return u16FromBeBytes (← index s 0) (← index s 1)

def probeForPort : Nat → Option ProbeKind
  | 993 | 465 => some .tlsSni
  | 143 => some .imapGreeting
  | 587 => some .smtpGreeting
  | _ => none

/-- How many more bytes are needed before the TLS record is complete. -/
def tlsRecordNeeded (buf : Bytes) : Checked Nat :=
  if buf.isEmpty then return 5
  else do
    if (← index buf 0) ≠ 0x16 then throw (.proto .notTls)
    else if buf.length < 5 then return 5 - buf.length
    else if (← index buf 1) ≠ 0x03 then throw (.proto .notTls)
    else
      let recordLen := u16FromBeBytes (← index buf 3) (← index buf 4)
      if recordLen = 0 ∨ maxTlsRecord < recordLen then throw (.proto .malformed)
      else
        let total := 5 + recordLen
        if total ≤ buf.length then return 0 else return total - buf.length

def fromUtf8 (b : Bytes) : Option Str := (ByteArray.mk b.toArray).utf8Decode?.map Array.toList

/-- The names of a `server_name` list from cursor `i` on. -/
def sniNameLoop (list : Bytes) (i : Nat) : Checked (Option Str) :=
  if i + 3 ≤ list.length then do
    let nameType ← index list i
    let nameLen := u16FromBeBytes (← index list (i + 1)) (← index list (i + 2))
    let name ← orMalformed (getRange list (i + 3) (i + 3 + nameLen))
    if nameType = 0 then
      let s ← orMalformed (fromUtf8 name)
      if s.isEmpty then throw (.proto .malformed) else return some s
    else sniNameLoop list (i + 3 + nameLen)
  else return none
termination_by list.length - i

def parseSniExtension (data : Bytes) : Checked (Option Str) :=
  if data.length < 2 then throw (.proto .malformed)
  else do
    let listLen := u16FromBeBytes (← index data 0) (← index data 1)
    let list ← orMalformed (getRange data 2 (2 + listLen))
    sniNameLoop list 0

/-- The extensions of a ClientHello from cursor `j` on. -/
def extensionLoop (exts : Bytes) (j : Nat) : Checked (Option Str) :=
  if j + 4 ≤ exts.length then do
    let typ := u16FromBeBytes (← index exts j) (← index exts (j + 1))
    let len := u16FromBeBytes (← index exts (j + 2)) (← index exts (j + 3))
    let data ← orMalformed (getRange exts (j + 4) (j + 4 + len))
    if typ = 0 then parseSniExtension data else extensionLoop exts (j + 4 + len)
  else return none
termination_by exts.length - j

/-- The part of `parse_sni` after the handshake framing. -/
def parseHello (hello : Bytes) : Checked (Option Str) := do
  let i := 2 + 32
  let sidLen := (← orMalformed hello[i]?).toNat
  let i := i + (1 + sidLen)
  let csLen ← u16At hello i
  let i := i + (2 + csLen)
  let compLen := (← orMalformed hello[i]?).toNat
  let i := i + (1 + compLen)
  if i = hello.length then return none
  else
    let extLen ← u16At hello i
    let i := i + 2
    let exts ← orMalformed (getRange hello i (i + extLen))
    extensionLoop exts 0

/-- The SNI hostname of a TLS handshake record with a ClientHello. -/
def parseSni (record : Bytes) : Checked (Option Str) :=
  if record.length < 5 then throw (.proto .notTls)
  else do
    if (← index record 0) ≠ 0x16 then throw (.proto .notTls)
    else
      let recordLen := u16FromBeBytes (← index record 3) (← index record 4)
      let body ← orMalformed (getRange record 5 (5 + recordLen))
      if body.length < 4 then throw (.proto .notTls)
      else if (← index body 0) ≠ 0x01 then throw (.proto .notTls)
      else
        let hsLen ← u24 (← indexRange body 1 4)
        let hello ← orMalformed (getRange body 4 (4 + hsLen))
        parseHello hello

def validateTlsClientHello (buf : Bytes) (expectedHost : Str) (destIsIpLiteral : Bool) :
    Checked Unit := do
  if (← tlsRecordNeeded buf) ≠ 0 then throw (.proto .malformed)
  else
    let sni ← parseSni buf
    if destIsIpLiteral then return ()
    else match sni with
      | none => throw (.proto .missingSni)
      | some name =>
        if normalizeHostname name = normalizeHostname expectedHost then return ()
        else throw (.proto .sniMismatch)

/-- The bytes that `validate_greeting` skips at the start. -/
def isGreetingBlank (b : UInt8) : Bool := b == 13 || b == 10 || b == 32 || b == 9

def asciiBytes (s : String) : Bytes := s.toList.map fun c => UInt8.ofNat c.toNat

def validateGreeting (buf : Bytes) (kind : ProbeKind) : Except ProtoError Unit :=
  let line := buf.dropWhile isGreetingBlank
  if line.isEmpty then .error .badGreeting
  else match kind with
    | .imapGreeting =>
      if (asciiBytes "* ").isPrefixOf line then .ok () else .error .badGreeting
    | .smtpGreeting =>
      if (asciiBytes "220 ").isPrefixOf line || (asciiBytes "220-").isPrefixOf line then .ok ()
      else .error .badGreeting
    | .tlsSni => .error .badGreeting

def greetingComplete (buf : Bytes) : Bool := buf.contains 10 || maxGreeting ≤ buf.length

def maxGreetingBytes : Nat := maxGreeting

end WsTcpProxy
