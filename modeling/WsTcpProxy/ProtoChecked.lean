import WsTcpProxy.Proto
import WsTcpProxy.Library.CursorLoop

/-!
# The TLS parser with checked arithmetic

The functions of `proto.rs` on a machine whose `usize` has 32 bits and panics on overflow: every
sum and difference of lengths and cursors is checked. The `while` loops run turn by turn, and one
that has not ended after a turn for every byte and one more counts as a panic too.
-/

namespace WsTcpProxy
open Library

def checkedAdd (a b : Nat) : Checked Nat := if a + b < 2 ^ 32 then .ok (a + b) else .error .panic

def checkedSub (a b : Nat) : Checked Nat := if b ≤ a then .ok (a - b) else .error .panic

def whileLoop {α : Type} (turn : Nat → Checked (Turn α)) (bytes : Bytes) : Checked α :=
  (Turn.loop turn (bytes.length + 1) 0).getD (.error .panic)

def u16AtChecked (buf : Bytes) (i : Nat) : Checked Nat := do
  let s ← orMalformed (getRange buf i (← checkedAdd i 2))
  return u16FromBeBytes (← index s 0) (← index s 1)

def tlsRecordNeededChecked (buf : Bytes) : Checked Nat :=
  if buf.isEmpty then return 5
  else do
    if (← index buf 0) ≠ 0x16 then throw (.proto .notTls)
    else if buf.length < 5 then checkedSub 5 buf.length
    else if (← index buf 1) ≠ 0x03 then throw (.proto .notTls)
    else
      let recordLen := u16FromBeBytes (← index buf 3) (← index buf 4)
      if recordLen = 0 ∨ maxTlsRecord < recordLen then throw (.proto .malformed)
      else
        let total ← checkedAdd 5 recordLen
        if total ≤ buf.length then return 0 else checkedSub total buf.length

/-- One turn of the loop over a `server_name` list. -/
def sniNameTurn (list : Bytes) (i : Nat) : Checked (Turn (Option Str)) := do
  if (← checkedAdd i 3) ≤ list.length then
    let nameType ← index list i
    let nameLen := u16FromBeBytes (← index list (← checkedAdd i 1))
      (← index list (← checkedAdd i 2))
    let i ← checkedAdd i 3
    let name ← orMalformed (getRange list i (← checkedAdd i nameLen))
    let i ← checkedAdd i nameLen
    if nameType = 0 then
      let s ← orMalformed (fromUtf8 name)
      if s.isEmpty then throw (.proto .malformed) else return .done (some s)
    else return .next i
  else return .done none

def parseSniExtensionChecked (data : Bytes) : Checked (Option Str) :=
  if data.length < 2 then throw (.proto .malformed)
  else do
    let listLen := u16FromBeBytes (← index data 0) (← index data 1)
    let list ← orMalformed (getRange data 2 (← checkedAdd 2 listLen))
    whileLoop (sniNameTurn list) list

/-- One turn of the loop over the extensions. -/
def extensionTurn (exts : Bytes) (j : Nat) : Checked (Turn (Option Str)) := do
  if (← checkedAdd j 4) ≤ exts.length then
    let typ := u16FromBeBytes (← index exts j) (← index exts (← checkedAdd j 1))
    let len := u16FromBeBytes (← index exts (← checkedAdd j 2)) (← index exts (← checkedAdd j 3))
    let j ← checkedAdd j 4
    let data ← orMalformed (getRange exts j (← checkedAdd j len))
    let j ← checkedAdd j len
    if typ = 0 then return .done (← parseSniExtensionChecked data) else return .next j
  else return .done none

def parseHelloChecked (hello : Bytes) : Checked (Option Str) := do
  let i ← checkedAdd 2 32
  let sidLen := (← orMalformed hello[i]?).toNat
  let i ← checkedAdd i (← checkedAdd 1 sidLen)
  let csLen ← u16AtChecked hello i
  let i ← checkedAdd i (← checkedAdd 2 csLen)
  let compLen := (← orMalformed hello[i]?).toNat
  let i ← checkedAdd i (← checkedAdd 1 compLen)
  if i = hello.length then return none
  else
    let extLen ← u16AtChecked hello i
    let i ← checkedAdd i 2
    let exts ← orMalformed (getRange hello i (← checkedAdd i extLen))
    whileLoop (extensionTurn exts) exts

def parseSniChecked (record : Bytes) : Checked (Option Str) :=
  if record.length < 5 then throw (.proto .notTls)
  else do
    if (← index record 0) ≠ 0x16 then throw (.proto .notTls)
    else
      let recordLen := u16FromBeBytes (← index record 3) (← index record 4)
      let body ← orMalformed (getRange record 5 (← checkedAdd 5 recordLen))
      if body.length < 4 then throw (.proto .notTls)
      else if (← index body 0) ≠ 0x01 then throw (.proto .notTls)
      else
        let hsLen ← u24 (← indexRange body 1 4)
        let hello ← orMalformed (getRange body 4 (← checkedAdd 4 hsLen))
        parseHelloChecked hello

end WsTcpProxy
