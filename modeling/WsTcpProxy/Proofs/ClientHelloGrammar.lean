import WsTcpProxy.Proofs.TlsRecords
import WsTcpProxy.Library.CountedFields

/-!
# The grammar of a ClientHello

The byte strings from which `parse_sni` takes a name, and those in which it finds none.
-/

namespace WsTcpProxy.Proofs
open Library

/-! ### Formats -/

/-- A field after its length in one byte. -/
def vec8 : CountedFormat UInt8 := ⟨1, by decide, fun h => (h.getD 0 0).toNat⟩

def vec16 : CountedFormat UInt8 := ⟨2, by decide, fun h => u16FromBeBytes (h.getD 0 0) (h.getD 1 0)⟩

def vec24 : CountedFormat UInt8 :=
  ⟨3, by decide, fun h =>
    (h.getD 0 0).toNat * 65536 + (h.getD 1 0).toNat * 256 + (h.getD 2 0).toNat⟩

/-- The data of an extension after its type and its length, in two bytes each. -/
def extension : CountedFormat UInt8 :=
  ⟨4, by decide, fun h => u16FromBeBytes (h.getD 2 0) (h.getD 3 0)⟩

def isServerName (h : Bytes) : Bool := u16FromBeBytes (h.getD 0 0) (h.getD 1 0) == 0

/-- A name after its type in one byte and its length in two. -/
def listedName : CountedFormat UInt8 :=
  ⟨3, by decide, fun h => u16FromBeBytes (h.getD 1 0) (h.getD 2 0)⟩

def isHostName (h : Bytes) : Bool := h.getD 0 0 == 0

/-! ### Grammar -/

/-- A handshake record whose first message is a ClientHello with the bytes `hello`. -/
def RecordWith (hello record : Bytes) : Prop :=
  ∃ v v' header body rest header' slack,
    record = 0x16 :: v :: v' :: (header ++ body ++ rest) ∧ vec16.Entry header body ∧
    body = 0x01 :: (header' ++ hello ++ slack) ∧ vec24.Entry header' hello

/-- The fields of a ClientHello up to the compression methods. -/
def HelloFront (front : Bytes) : Prop :=
  ∃ version random h₁ sid h₂ ciphers h₃ compression,
    front = version ++ random ++ (h₁ ++ sid) ++ (h₂ ++ ciphers) ++ (h₃ ++ compression) ∧
    version.length = 2 ∧ random.length = 32 ∧ vec8.Entry h₁ sid ∧ vec16.Entry h₂ ciphers ∧
    vec8.Entry h₃ compression

/-- A ClientHello with the extension block `exts`. -/
def HelloWith (exts hello : Bytes) : Prop :=
  ∃ front header tail, hello = front ++ (header ++ exts ++ tail) ∧ HelloFront front ∧
    vec16.Entry header exts

/-- The data of a `server_name` extension with the list of names `list`. -/
def NamesWith (list data : Bytes) : Prop :=
  ∃ header tail, data = header ++ list ++ tail ∧ vec16.Entry header list

/-! ### Reading at a cursor -/

lemma header_getD {b : Bytes} {i n k : ℕ} (hk : k < n) :
    ((b.drop i).take n).getD k 0 = b.getD (i + k) 0 := by
  simp [List.getD, hk, List.getElem?_drop]

lemma orMalformed_getRange (b : Bytes) (i n : ℕ) :
    orMalformed (getRange b i (i + n)) =
      if i + n ≤ b.length then .ok ((b.drop i).take n) else .error (.proto .malformed) := by
  unfold getRange
  by_cases h : i + n ≤ b.length
  · rw [if_pos ⟨by omega, h⟩, if_pos h, Nat.add_sub_cancel_left]
    rfl
  · rw [if_neg (fun hc => h hc.2), if_neg h]
    rfl

lemma vec8_read_drop (b : Bytes) (i : ℕ) :
    vec8.read (b.drop i) =
      let n := (b.getD i 0).toNat
      if i + 1 + n ≤ b.length then
        some (((b.drop i).take 1, (b.drop (i + 1)).take n), b.drop (i + 1 + n))
      else none := by
  rw [CountedFormat.read_drop]
  simp only [vec8, header_getD (show 0 < 1 by decide), Nat.add_zero]

lemma vec16_read_drop (b : Bytes) (i : ℕ) :
    vec16.read (b.drop i) =
      let n := u16FromBeBytes (b.getD i 0) (b.getD (i + 1) 0)
      if i + 2 + n ≤ b.length then
        some (((b.drop i).take 2, (b.drop (i + 2)).take n), b.drop (i + 2 + n))
      else none := by
  rw [CountedFormat.read_drop]
  simp only [vec16, header_getD (show 0 < 2 by decide), header_getD (show 1 < 2 by decide),
    Nat.add_zero]

lemma vec24_read_drop (b : Bytes) (i : ℕ) :
    vec24.read (b.drop i) =
      let n := vec24.len ((b.drop i).take 3)
      if i + 3 + n ≤ b.length then
        some (((b.drop i).take 3, (b.drop (i + 3)).take n), b.drop (i + 3 + n))
      else none :=
  vec24.read_drop b i

lemma u16At_eq (b : Bytes) (i : ℕ) :
    u16At b i =
      if i + 2 ≤ b.length then .ok (u16FromBeBytes (b.getD i 0) (b.getD (i + 1) 0))
      else .error (.proto .malformed) := by
  rw [u16At, orMalformed_getRange]
  by_cases h : i + 2 ≤ b.length
  · have hlen : ((b.drop i).take 2).length = 2 := by
      rw [List.length_take, List.length_drop]
      omega
    rw [if_pos h, if_pos h, ok_bind, index_eq (by omega), index_eq (by omega), ok_bind, ok_bind,
      header_getD (by decide), header_getD (by decide)]
    rfl
  · rw [if_neg h, if_neg h]
    rfl

lemma orMalformed_get (b : Bytes) (i : ℕ) :
    orMalformed b[i]? = if i < b.length then .ok (b.getD i 0) else .error (.proto .malformed) := by
  by_cases h : i < b.length
  · simp [h, orMalformed, okOr, List.getD]
  · simp [h, orMalformed, okOr]

/-! ### The name list -/

def nameVerdict (name : Bytes) : Checked (Option Str) := do
  let s ← orMalformed (fromUtf8 name)
  if s.isEmpty then throw (.proto .malformed) else return some s

/-- The name loop is a search of the list. -/
lemma sniNameLoop_eq (list : Bytes) (i : ℕ) :
    sniNameLoop list i =
      match listedName.first isHostName (list.drop i) with
      | .found name => nameVerdict name
      | .exhausted => .ok none
      | .truncated => .error (.proto .malformed) := by
  induction hn : list.length - i using Nat.strong_induction_on generalizing i with
  | h n ih =>
  rw [sniNameLoop, CountedFormat.first_drop]
  by_cases hstart : i + 3 ≤ list.length
  · have hheader (k : ℕ) (hk : k < 3) : ((list.drop i).take 3).getD k 0 = list.getD (i + k) 0 :=
      header_getD hk
    rw [if_pos hstart, index_eq (by omega), index_eq (by omega), index_eq (by omega)]
    simp only [ok_bind, orMalformed_getRange, listedName, isHostName, hheader 0 (by decide),
      hheader 1 (by decide), hheader 2 (by decide), hstart, if_true, Nat.add_zero, beq_iff_eq]
    by_cases hlen : i + 3 + u16FromBeBytes (list.getD (i + 1) 0) (list.getD (i + 2) 0) ≤ list.length
    · simp only [if_pos hlen, ok_bind]
      by_cases htype : list.getD i 0 = 0
      · simp only [if_pos htype]
        rfl
      · simp only [if_neg htype]
        exact ih _ (by omega) _ rfl
    · simp only [if_neg hlen, error_bind]
  · rw [if_neg hstart]
    simp only [listedName, hstart, if_false]
    rfl

lemma parseSniExtension_eq (data : Bytes) :
    parseSniExtension data =
      match vec16.read data with
      | none => .error (.proto .malformed)
      | some ((_, list), _) => sniNameLoop list 0 := by
  have hread := vec16_read_drop data 0
  rw [List.drop_zero] at hread
  rw [hread, parseSniExtension]
  by_cases hshort : data.length < 2
  · rw [if_pos hshort, if_neg (by omega)]
    rfl
  · rw [if_neg hshort, index_eq (by omega), index_eq (by omega)]
    simp only [ok_bind, orMalformed_getRange, Nat.zero_add]
    by_cases hlen : 2 + u16FromBeBytes (data.getD 0 0) (data.getD 1 0) ≤ data.length
    · simp only [if_pos hlen, ok_bind]
    · simp only [if_neg hlen, error_bind]

/-! ### The extension block -/

/-- The extension loop is a search of the block. -/
lemma extensionLoop_eq (exts : Bytes) (j : ℕ) :
    extensionLoop exts j =
      match extension.first isServerName (exts.drop j) with
      | .found data => parseSniExtension data
      | .exhausted => .ok none
      | .truncated => .error (.proto .malformed) := by
  induction hn : exts.length - j using Nat.strong_induction_on generalizing j with
  | h n ih =>
  rw [extensionLoop, CountedFormat.first_drop]
  by_cases hstart : j + 4 ≤ exts.length
  · have hheader (k : ℕ) (hk : k < 4) : ((exts.drop j).take 4).getD k 0 = exts.getD (j + k) 0 :=
      header_getD hk
    rw [if_pos hstart, index_eq (by omega), index_eq (by omega), index_eq (by omega),
      index_eq (by omega)]
    simp only [ok_bind, orMalformed_getRange, extension, isServerName, hheader 0 (by decide),
      hheader 1 (by decide), hheader 2 (by decide), hheader 3 (by decide), hstart, if_true,
      Nat.add_zero, beq_iff_eq]
    by_cases hlen : j + 4 + u16FromBeBytes (exts.getD (j + 2) 0) (exts.getD (j + 3) 0) ≤ exts.length
    · simp only [if_pos hlen, ok_bind]
      by_cases htype : u16FromBeBytes (exts.getD j 0) (exts.getD (j + 1) 0) = 0
      · simp only [if_pos htype]
      · simp only [if_neg htype]
        exact ih _ (by omega) _ rfl
    · simp only [if_neg hlen, error_bind]
  · rw [if_neg hstart]
    simp only [extension, hstart, if_false]
    rfl

/-! ### The fields of a ClientHello -/

/-- The extensions of a ClientHello, from what follows the compression methods. -/
def tailVerdict (tail : Bytes) : Checked (Option Str) :=
  if tail = [] then .ok none
  else match vec16.read tail with
    | none => .error (.proto .malformed)
    | some ((_, exts), _) => extensionLoop exts 0

/-- `parse_hello` with its cursor at the extensions. -/
def extensionsAt (hello : Bytes) (i : ℕ) : Checked (Option Str) :=
  if i = hello.length then return none
  else do
    let extLen ← u16At hello i
    let exts ← orMalformed (getRange hello (i + 2) (i + 2 + extLen))
    extensionLoop exts 0

def compressionAt (hello : Bytes) (i : ℕ) : Checked (Option Str) := do
  let compLen := (← orMalformed hello[i]?).toNat
  extensionsAt hello (i + (1 + compLen))

def ciphersAt (hello : Bytes) (i : ℕ) : Checked (Option Str) := do
  let csLen ← u16At hello i
  compressionAt hello (i + (2 + csLen))

lemma extensionsAt_eq {hello : Bytes} {i : ℕ} (hi : i ≤ hello.length) :
    extensionsAt hello i = tailVerdict (hello.drop i) := by
  have hnil : hello.drop i = [] ↔ i = hello.length := by
    rw [List.drop_eq_nil_iff]
    omega
  rw [extensionsAt, tailVerdict, vec16_read_drop, u16At_eq]
  by_cases hend : i = hello.length
  · rw [if_pos hend, if_pos (hnil.mpr hend)]
    rfl
  · rw [if_neg hend, if_neg (fun h => hend (hnil.mp h))]
    by_cases hlen : i + 2 ≤ hello.length
    · simp only [if_pos hlen, ok_bind, orMalformed_getRange]
      split
      · rfl
      · rfl
    · simp only [if_neg hlen, error_bind]
      rw [if_neg (by omega)]

/-- Past the end of the ClientHello, the extensions cannot be read. -/
lemma extensionsAt_past {hello : Bytes} {i : ℕ} (hi : hello.length < i) :
    extensionsAt hello i = .error (.proto .malformed) := by
  rw [extensionsAt, if_neg hi.ne', u16At_eq, if_neg (by omega)]
  rfl

lemma compressionAt_eq (hello : Bytes) (i : ℕ) :
    compressionAt hello i =
      match vec8.read (hello.drop i) with
      | none => .error (.proto .malformed)
      | some (_, rest) => tailVerdict rest := by
  rw [compressionAt, vec8_read_drop, orMalformed_get]
  by_cases hlen : i < hello.length
  · rw [if_pos hlen, ok_bind]
    dsimp only
    by_cases hfield : i + 1 + (hello.getD i 0).toNat ≤ hello.length
    · rw [← Nat.add_assoc, extensionsAt_eq hfield]
      simp only [if_pos hfield]
    · rw [extensionsAt_past (by omega)]
      simp only [if_neg hfield]
  · rw [if_neg hlen]
    simp only [show ¬i + 1 + (hello.getD i 0).toNat ≤ hello.length by omega, if_false]
    rfl

lemma ciphersAt_eq (hello : Bytes) (i : ℕ) :
    ciphersAt hello i =
      match vec16.read (hello.drop i) with
      | none => .error (.proto .malformed)
      | some (_, rest) =>
        match vec8.read rest with
        | none => .error (.proto .malformed)
        | some (_, rest) => tailVerdict rest := by
  rw [ciphersAt, vec16_read_drop, u16At_eq]
  by_cases hlen : i + 2 ≤ hello.length
  · rw [if_pos hlen, ok_bind, compressionAt_eq, ← Nat.add_assoc]
    generalize u16FromBeBytes (hello.getD i 0) (hello.getD (i + 1) 0) = csLen
    by_cases hfield : i + 2 + csLen ≤ hello.length
    · simp only [if_pos hfield]
    · rw [vec8_read_drop]
      simp only [if_neg hfield]
      rw [if_neg (by omega)]
  · rw [if_neg hlen]
    simp only [show ∀ n, ¬i + 2 + n ≤ hello.length by omega, if_false]
    rfl

/-- What follows the compression methods of a ClientHello. -/
def readFront (hello : Bytes) : Option Bytes :=
  (vec8.read (hello.drop 34)).bind fun r =>
    (vec16.read r.2).bind fun r => (vec8.read r.2).map Prod.snd

lemma parseHello_eq (hello : Bytes) :
    parseHello hello =
      match readFront hello with
      | none => .error (.proto .malformed)
      | some tail => tailVerdict tail := by
  have hcode : parseHello hello = (orMalformed hello[34]?) >>= fun sid =>
      ciphersAt hello (34 + (1 + sid.toNat)) := rfl
  rw [hcode, readFront, vec8_read_drop, orMalformed_get]
  by_cases hlen : 34 < hello.length
  · rw [if_pos hlen, ok_bind, ciphersAt_eq, ← Nat.add_assoc]
    generalize (hello.getD 34 0).toNat = sidLen
    by_cases hfield : 34 + 1 + sidLen ≤ hello.length
    · simp only [if_pos hfield, Option.bind_some]
      cases vec16.read (hello.drop (34 + 1 + sidLen)) with
      | none => rfl
      | some r =>
        dsimp only [Option.bind_some]
        cases vec8.read r.2 <;> rfl
    · rw [vec16_read_drop]
      simp only [if_neg hfield]
      rw [if_neg (by omega)]
      rfl
  · rw [if_neg hlen]
    simp only [show ∀ n, ¬34 + 1 + n ≤ hello.length by omega, if_false]
    rfl

lemma readFront_eq_some {hello tail : Bytes} :
    readFront hello = some tail ↔ ∃ front, hello = front ++ tail ∧ HelloFront front := by
  constructor
  · intro h
    obtain ⟨⟨⟨h₁, sid⟩, rest₁⟩, hread₁, h⟩ := Option.bind_eq_some_iff.mp h
    obtain ⟨⟨⟨h₂, ciphers⟩, rest₂⟩, hread₂, h⟩ := Option.bind_eq_some_iff.mp h
    obtain ⟨⟨⟨h₃, compression⟩, rest₃⟩, hread₃, rfl⟩ := Option.map_eq_some_iff.mp h
    obtain ⟨hsid, hrest⟩ := vec8.read_eq_some.mp hread₁
    obtain ⟨hciphers, rfl⟩ := vec16.read_eq_some.mp hread₂
    obtain ⟨hcompression, rfl⟩ := vec8.read_eq_some.mp hread₃
    have hlen : 34 < hello.length := by
      have hdrop := congrArg List.length hrest
      have hheader : h₁.length = 1 := hsid.header_length
      simp only [List.length_drop, List.length_append] at hdrop
      omega
    refine ⟨hello.take 2 ++ (hello.drop 2).take 32 ++ (h₁ ++ sid) ++ (h₂ ++ ciphers) ++
      (h₃ ++ compression), ?_, hello.take 2, (hello.drop 2).take 32, h₁, sid, h₂, ciphers, h₃,
      compression, rfl, ?_, ?_, hsid, hciphers, hcompression⟩
    · have hfixed : hello.take 2 ++ (hello.drop 2).take 32 = hello.take 34 := by
        rw [← List.take_add]
      rw [hfixed]
      nth_rewrite 1 [← List.take_append_drop 34 hello]
      rw [hrest]
      simp only [List.append_assoc]
    · rw [List.length_take]
      omega
    · rw [List.length_take, List.length_drop]
      omega
  · rintro ⟨_, rfl, version, random, h₁, sid, h₂, ciphers, h₃, compression, rfl, hversion, hrandom,
      hsid, hciphers, hcompression⟩
    have hdrop : (version ++ random ++ (h₁ ++ sid) ++ (h₂ ++ ciphers) ++ (h₃ ++ compression) ++
        tail).drop 34 = h₁ ++ sid ++ (h₂ ++ ciphers ++ (h₃ ++ compression ++ tail)) := by
      have hfixed : (version ++ random).length = 34 := by
        rw [List.length_append, hversion, hrandom]
      simp only [List.append_assoc _ _ tail, List.append_assoc (version ++ random)]
      rw [List.drop_left' hfixed]
      simp only [List.append_assoc]
    rw [readFront, hdrop, vec8.read_append hsid, Option.bind_some, vec16.read_append hciphers,
      Option.bind_some, vec8.read_append hcompression]
    rfl

/-! ### The record -/

def readHandshake (body : Bytes) : Option Bytes :=
  if body.getD 0 0 = 0x01 then (vec24.read (body.drop 1)).map fun r => r.1.2 else none

def readRecord (record : Bytes) : Option Bytes :=
  if record.getD 0 0 = 0x16 then (vec16.read (record.drop 3)).bind fun r => readHandshake r.1.2
  else none

/-- `parse_sni` on the body of the record. -/
def handshakeVerdict (body : Bytes) : Checked (Option Str) :=
  if body.length < 4 then throw (.proto .notTls)
  else do
    if (← index body 0) ≠ 0x01 then throw (.proto .notTls)
    else
      let hsLen ← u24 (← indexRange body 1 4)
      let hello ← orMalformed (getRange body 4 (4 + hsLen))
      parseHello hello

lemma shifted_or (x : ℕ) {y z : ℕ} (hy : y < 256) (hz : z < 256) :
    x <<< 16 ||| y <<< 8 ||| z = x * 65536 + y * 256 + z := by
  have hmiddle : y <<< 8 < 2 ^ 16 := by
    rw [Nat.shiftLeft_eq]
    omega
  have hhigh : x <<< 16 + y <<< 8 = (x * 256 + y) <<< 8 := by
    simp only [Nat.shiftLeft_eq]
    ring
  calc x <<< 16 ||| y <<< 8 ||| z = (x * 256 + y) <<< 8 ||| z := by
        rw [← Nat.shiftLeft_add_eq_or_of_lt hmiddle, hhigh]
    _ = (x * 256 + y) * 2 ^ 8 + z := by
        rw [← Nat.shiftLeft_add_eq_or_of_lt (show z < 2 ^ 8 from hz), Nat.shiftLeft_eq]
    _ = x * 65536 + y * 256 + z := by ring

lemma u24_eq {b : Bytes} (h : 3 ≤ b.length) : u24 b = .ok (vec24.len b) := by
  rw [u24, if_neg (by omega), index_eq (by omega), index_eq (by omega), index_eq (by omega)]
  simp only [ok_bind, shifted_or _ (b.getD 1 0).toNat_lt (b.getD 2 0).toNat_lt, vec24]
  rfl

lemma handshakeVerdict_cases (body : Bytes) :
    (∃ hello, readHandshake body = some hello ∧ handshakeVerdict body = parseHello hello) ∨
      (readHandshake body = none ∧ ∃ e, handshakeVerdict body = .error (.proto e)) := by
  rw [readHandshake, handshakeVerdict, vec24_read_drop]
  by_cases hlen : body.length < 4
  · refine .inr ⟨?_, .notTls, by rw [if_pos hlen]; rfl⟩
    simp only [show ∀ n, ¬1 + 3 + n ≤ body.length by omega, if_false, Option.map_none, ite_self]
  rw [if_neg hlen, index_eq (by omega), ok_bind]
  by_cases htype : body.getD 0 0 = 0x01
  case neg =>
    exact .inr ⟨by rw [if_neg htype], .notTls, by rw [if_pos htype]; rfl⟩
  have hheader : indexRange body 1 4 = .ok ((body.drop 1).take 3) := by
    rw [indexRange, getRange, if_pos ⟨by decide, by omega⟩]
    rfl
  have hthree : ((body.drop 1).take 3).length = 3 := by
    rw [List.length_take, List.length_drop]
    omega
  rw [if_pos htype, if_neg (not_not.mpr htype), hheader, ok_bind, u24_eq hthree.ge, ok_bind,
    orMalformed_getRange]
  simp only [Nat.reduceAdd]
  by_cases hfield : 4 + vec24.len ((body.drop 1).take 3) ≤ body.length
  · rw [if_pos hfield, if_pos hfield, ok_bind]
    exact .inl ⟨_, rfl, rfl⟩
  · rw [if_neg hfield, if_neg hfield, error_bind]
    exact .inr ⟨rfl, .malformed, rfl⟩

lemma parseSni_cases (record : Bytes) :
    (∃ hello, readRecord record = some hello ∧ parseSni record = parseHello hello) ∨
      (readRecord record = none ∧ ∃ e, parseSni record = .error (.proto e)) := by
  have hcode : parseSni record = (if record.length < 5 then throw (.proto .notTls)
      else do
        if (← index record 0) ≠ 0x16 then throw (.proto .notTls)
        else
          let recordLen := u16FromBeBytes (← index record 3) (← index record 4)
          handshakeVerdict (← orMalformed (getRange record 5 (5 + recordLen)))) := rfl
  rw [hcode, readRecord, vec16_read_drop]
  by_cases hlen : record.length < 5
  · refine .inr ⟨?_, .notTls, by rw [if_pos hlen]; rfl⟩
    simp only [show ∀ n, ¬3 + 2 + n ≤ record.length by omega, if_false, Option.bind_none, ite_self]
  rw [if_neg hlen, index_eq (by omega), index_eq (by omega), index_eq (by omega), ok_bind]
  by_cases htype : record.getD 0 0 = 0x16
  case neg =>
    exact .inr ⟨by rw [if_neg htype], .notTls, by rw [if_pos htype]; rfl⟩
  rw [if_pos htype, if_neg (not_not.mpr htype)]
  simp only [ok_bind, orMalformed_getRange, Nat.reduceAdd]
  by_cases hfield : 5 + u16FromBeBytes (record.getD 3 0) (record.getD 4 0) ≤ record.length
  · simp only [if_pos hfield, ok_bind, Option.bind_some]
    exact handshakeVerdict_cases _
  · simp only [if_neg hfield, Option.bind_none, error_bind]
    exact .inr ⟨trivial, .malformed, rfl⟩

lemma readHandshake_eq_some {body hello : Bytes} :
    readHandshake body = some hello ↔
      ∃ header slack, body = 0x01 :: (header ++ hello ++ slack) ∧ vec24.Entry header hello := by
  cases body with
  | nil => simp [readHandshake]
  | cons b body =>
    simp only [readHandshake, List.getD_cons_zero, List.drop_one, List.tail_cons]
    constructor
    · intro h
      split_ifs at h with htype
      obtain ⟨⟨⟨header, field⟩, slack⟩, hread, rfl⟩ := Option.map_eq_some_iff.mp h
      obtain ⟨hentry, rfl⟩ := vec24.read_eq_some.mp hread
      exact ⟨header, slack, by rw [htype], hentry⟩
    · rintro ⟨header, slack, heq, hentry⟩
      cases heq
      rw [if_pos rfl, vec24.read_append hentry]
      rfl

lemma readRecord_eq_some {record hello : Bytes} :
    readRecord record = some hello ↔ RecordWith hello record := by
  constructor
  · intro h
    simp only [readRecord] at h
    split_ifs at h with htype
    obtain ⟨⟨⟨header, body⟩, rest⟩, hread, hbody⟩ := Option.bind_eq_some_iff.mp h
    obtain ⟨hentry, hrest⟩ := vec16.read_eq_some.mp hread
    obtain ⟨header', slack, hbody, hentry'⟩ := readHandshake_eq_some.mp hbody
    obtain ⟨b, v, v', rfl⟩ : ∃ b v v', record = b :: v :: v' :: (header ++ body ++ rest) := by
      have hlen : 3 < record.length := by
        have hdrop := congrArg List.length hrest
        have hheader : header.length = 2 := hentry.header_length
        simp only [List.length_drop, List.length_append] at hdrop
        omega
      match record, hlen, hrest with
      | b :: v :: v' :: tail, _, hrest => exact ⟨b, v, v', by rw [← hrest]; rfl⟩
    obtain rfl : b = 0x16 := htype
    exact ⟨v, v', header, body, rest, header', slack, rfl, hentry, hbody, hentry'⟩
  · rintro ⟨v, v', header, body, rest, header', slack, rfl, hentry, hbody, hentry'⟩
    have hdrop : (0x16 :: v :: v' :: (header ++ body ++ rest)).drop 3 = header ++ body ++ rest := rfl
    rw [readRecord, List.getD_cons_zero, if_pos rfl, hdrop, vec16.read_append hentry,
      Option.bind_some]
    exact readHandshake_eq_some.mpr ⟨header', slack, hbody, hentry'⟩

/-! ### Acceptance -/

def utf8Bytes (s : Str) : Bytes := s.flatMap String.utf8EncodeChar

lemma fromUtf8_eq_some {name : Bytes} {s : Str} : fromUtf8 name = some s ↔ name = utf8Bytes s := by
  have hencode (s : Str) : s.utf8Encode = ByteArray.mk (utf8Bytes s).toArray := by
    apply ByteArray.ext
    simp [List.utf8Encode, utf8Bytes]
  constructor
  · intro h
    obtain ⟨chars, hchars, rfl⟩ := Option.map_eq_some_iff.mp h
    obtain ⟨s, hs⟩ := ByteArray.isSome_utf8Decode?_iff.mp (Option.isSome_of_eq_some hchars)
    rw [hs, List.utf8Decode?_utf8Encode] at hchars
    cases hchars
    rw [hencode] at hs
    simpa using hs
  · rintro rfl
    rw [fromUtf8, ← hencode, List.utf8Decode?_utf8Encode]
    rfl

lemma nameVerdict_eq_ok {name : Bytes} {o : Option Str} :
    nameVerdict name = .ok o ↔ ∃ s, name = utf8Bytes s ∧ s ≠ [] ∧ o = some s := by
  simp only [← fromUtf8_eq_some]
  rw [nameVerdict]
  cases hname : fromUtf8 name with
  | none =>
    constructor
    · intro h
      cases h
    · rintro ⟨s, hs, -⟩
      cases hs
  | some s =>
    rw [orMalformed_some, ok_bind]
    constructor
    · intro h
      split_ifs at h with hempty
      cases h
      exact ⟨s, rfl, by simpa using hempty, rfl⟩
    · rintro ⟨s', hs, hne, rfl⟩
      cases hs
      rw [if_neg (by simpa using hne)]
      rfl

/-- What the name loop makes of a whole list. -/
def NameOutcome (list : Bytes) (o : Option Str) : Prop :=
  match o with
  | some s => s ≠ [] ∧ listedName.FirstEntry isHostName list (utf8Bytes s)
  | none => listedName.NoEntry isHostName list

lemma sniNameLoop_eq_ok {list : Bytes} {o : Option Str} :
    sniNameLoop list 0 = .ok o ↔ NameOutcome list o := by
  rw [sniNameLoop_eq, List.drop_zero, NameOutcome.eq_def]
  cases hfirst : listedName.first isHostName list with
  | found name =>
    simp only [nameVerdict_eq_ok]
    cases o with
    | none => simp [← CountedFormat.first_eq_exhausted, hfirst]
    | some s =>
      simp only [← CountedFormat.first_eq_found, hfirst, CountedFormat.Search.found.injEq,
        Option.some.injEq]
      constructor
      · rintro ⟨_, rfl, hne, rfl⟩
        exact ⟨hne, rfl⟩
      · rintro ⟨hne, rfl⟩
        exact ⟨s, rfl, hne, rfl⟩
  | exhausted =>
    cases o with
    | none => simp [← CountedFormat.first_eq_exhausted, hfirst]
    | some s => simp [← CountedFormat.first_eq_found, hfirst]
  | truncated =>
    cases o with
    | none => simp [← CountedFormat.first_eq_exhausted, hfirst]
    | some s => simp [← CountedFormat.first_eq_found, hfirst]

lemma parseSniExtension_eq_ok {data : Bytes} {o : Option Str} :
    parseSniExtension data = .ok o ↔ ∃ list, NamesWith list data ∧ NameOutcome list o := by
  rw [parseSniExtension_eq]
  constructor
  · intro h
    cases hread : vec16.read data with
    | none =>
      rw [hread] at h
      cases h
    | some r =>
      obtain ⟨⟨header, list⟩, tail⟩ := r
      rw [hread] at h
      obtain ⟨hentry, rfl⟩ := vec16.read_eq_some.mp hread
      exact ⟨list, ⟨header, tail, rfl, hentry⟩, sniNameLoop_eq_ok.mp h⟩
  · rintro ⟨list, ⟨header, tail, rfl, hentry⟩, houtcome⟩
    rw [vec16.read_append hentry]
    exact sniNameLoop_eq_ok.mpr houtcome

def BlockOutcome (exts : Bytes) (o : Option Str) : Prop :=
  (o = none ∧ extension.NoEntry isServerName exts) ∨
    ∃ data list, extension.FirstEntry isServerName exts data ∧ NamesWith list data ∧
      NameOutcome list o

lemma extensionLoop_eq_ok {exts : Bytes} {o : Option Str} :
    extensionLoop exts 0 = .ok o ↔ BlockOutcome exts o := by
  rw [extensionLoop_eq, List.drop_zero, BlockOutcome]
  simp only [← CountedFormat.first_eq_exhausted, ← CountedFormat.first_eq_found]
  cases extension.first isServerName exts with
  | found data => simp [parseSniExtension_eq_ok]
  | exhausted => simp [eq_comm]
  | truncated => simp

def HelloOutcome (hello : Bytes) (o : Option Str) : Prop :=
  (o = none ∧ HelloFront hello) ∨ ∃ exts, HelloWith exts hello ∧ BlockOutcome exts o

lemma parseHello_of_helloWith {exts hello : Bytes} (h : HelloWith exts hello) :
    parseHello hello = extensionLoop exts 0 := by
  obtain ⟨front, header, tail, rfl, hfields, hentry⟩ := h
  have hne : header ++ exts ++ tail ≠ [] := by
    intro hnil
    have hheader : header.length = 2 := hentry.header_length
    have := congrArg List.length hnil
    simp only [List.length_append, List.length_nil] at this
    omega
  rw [parseHello_eq, readFront_eq_some.mpr ⟨front, rfl, hfields⟩]
  simp only [tailVerdict, if_neg hne, vec16.read_append hentry]

lemma parseHello_eq_ok {hello : Bytes} {o : Option Str} :
    parseHello hello = .ok o ↔ HelloOutcome hello o := by
  rw [parseHello_eq]
  constructor
  · intro h
    cases hfront : readFront hello with
    | none =>
      rw [hfront] at h
      cases h
    | some tail =>
      rw [hfront] at h
      obtain ⟨front, rfl, hfields⟩ := readFront_eq_some.mp hfront
      simp only [tailVerdict] at h
      split_ifs at h with hend
      · cases h
        exact .inl ⟨rfl, by rwa [hend, List.append_nil]⟩
      · cases hread : vec16.read tail with
        | none =>
          rw [hread] at h
          cases h
        | some r =>
          obtain ⟨⟨header, exts⟩, tail'⟩ := r
          rw [hread] at h
          obtain ⟨hentry, rfl⟩ := vec16.read_eq_some.mp hread
          exact .inr ⟨exts, ⟨front, header, tail', rfl, hfields, hentry⟩,
            extensionLoop_eq_ok.mp h⟩
  · rintro (⟨rfl, hfields⟩ | ⟨exts, hexts, hblock⟩)
    · rw [readFront_eq_some.mpr ⟨hello, (List.append_nil hello).symm, hfields⟩]
      rfl
    · rw [← parseHello_eq, parseHello_of_helloWith hexts]
      exact extensionLoop_eq_ok.mpr hblock

lemma parseSni_eq_ok {record : Bytes} {o : Option Str} :
    parseSni record = .ok o ↔ ∃ hello, RecordWith hello record ∧ HelloOutcome hello o := by
  simp only [← readRecord_eq_some, ← parseHello_eq_ok]
  rcases parseSni_cases record with ⟨hello, hread, hparse⟩ | ⟨hread, e, hparse⟩
  · simp [hread, hparse]
  · simp [hread, hparse]

/-! ### Errors -/

/-- The parser returns, with a result or with one of its errors; no index is out of range. -/
def Returns (x : Checked (Option Str)) : Prop := (∃ o, x = .ok o) ∨ ∃ e, x = .error (.proto e)

lemma nameVerdict_returns (name : Bytes) : Returns (nameVerdict name) := by
  rw [nameVerdict]
  cases fromUtf8 name with
  | none => exact .inr ⟨_, rfl⟩
  | some s =>
    rw [orMalformed_some, ok_bind]
    split
    · exact .inr ⟨_, rfl⟩
    · exact .inl ⟨_, rfl⟩

lemma sniNameLoop_returns (list : Bytes) (i : ℕ) : Returns (sniNameLoop list i) := by
  rw [sniNameLoop_eq]
  split
  · exact nameVerdict_returns _
  · exact .inl ⟨_, rfl⟩
  · exact .inr ⟨_, rfl⟩

lemma parseSniExtension_returns (data : Bytes) : Returns (parseSniExtension data) := by
  rw [parseSniExtension_eq]
  split
  · exact .inr ⟨_, rfl⟩
  · exact sniNameLoop_returns _ 0

lemma extensionLoop_returns (exts : Bytes) (j : ℕ) : Returns (extensionLoop exts j) := by
  rw [extensionLoop_eq]
  split
  · exact parseSniExtension_returns _
  · exact .inl ⟨_, rfl⟩
  · exact .inr ⟨_, rfl⟩

lemma parseHello_returns (hello : Bytes) : Returns (parseHello hello) := by
  rw [parseHello_eq]
  split
  · exact .inr ⟨_, rfl⟩
  · rw [tailVerdict]
    split
    · exact .inl ⟨_, rfl⟩
    · split
      · exact .inr ⟨_, rfl⟩
      · exact extensionLoop_returns _ 0

lemma parseSni_returns (record : Bytes) : Returns (parseSni record) := by
  rcases parseSni_cases record with ⟨hello, -, hparse⟩ | ⟨-, e, hparse⟩
  · rw [hparse]
    exact parseHello_returns hello
  · exact .inr ⟨e, hparse⟩

/-- `parse_sni` takes a name from exactly the records of its grammar, finds none in exactly the
well-framed records without one, and returns an error for all others. -/
theorem parseSni_grammar (record : Bytes) :
    (∀ s, parseSni record = .ok (some s) ↔
      s ≠ [] ∧ ∃ hello exts data list, RecordWith hello record ∧ HelloWith exts hello ∧
        extension.FirstEntry isServerName exts data ∧ NamesWith list data ∧
        listedName.FirstEntry isHostName list (utf8Bytes s)) ∧
    (parseSni record = .ok none ↔
      ∃ hello, RecordWith hello record ∧ (HelloFront hello ∨ ∃ exts, HelloWith exts hello ∧
        (extension.NoEntry isServerName exts ∨ ∃ data list,
          extension.FirstEntry isServerName exts data ∧ NamesWith list data ∧
          listedName.NoEntry isHostName list))) ∧
    ((∃ o, parseSni record = .ok o) ∨ ∃ e, parseSni record = .error (.proto e)) := by
  refine ⟨?_, ?_, parseSni_returns record⟩
  · intro s
    rw [parseSni_eq_ok]
    constructor
    · rintro ⟨hello, hrecord, ⟨hnone, -⟩ | ⟨exts, hexts, ⟨hnone, -⟩ | hblock⟩⟩
      · cases hnone
      · cases hnone
      · obtain ⟨data, list, hdata, hlist, hne, hname⟩ := hblock
        exact ⟨hne, hello, exts, data, list, hrecord, hexts, hdata, hlist, hname⟩
    · rintro ⟨hne, hello, exts, data, list, hrecord, hexts, hdata, hlist, hname⟩
      exact ⟨hello, hrecord, .inr ⟨exts, hexts, .inr ⟨data, list, hdata, hlist, hne, hname⟩⟩⟩
  · rw [parseSni_eq_ok]
    simp only [HelloOutcome, BlockOutcome, NameOutcome, true_and]

end WsTcpProxy.Proofs
