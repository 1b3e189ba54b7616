import WsTcpProxy.ProtoChecked
import WsTcpProxy.Proofs.ClientHelloGrammar

/-!
# The TLS parser does not panic

With checked arithmetic the parser gives the same results: every sum stays below `2 ^ 32`, every
index is in range, and both loops move their cursor in every turn.
-/

namespace WsTcpProxy.Proofs
open Library

/-! ### Checked arithmetic -/

lemma checkedAdd_eq {a b : ℕ} (h : a + b < 2 ^ 32) : checkedAdd a b = .ok (a + b) := if_pos h

lemma checkedSub_eq {a b : ℕ} (h : b ≤ a) : checkedSub a b = .ok (a - b) := if_pos h

/-- A checked sum that goes on did not overflow. -/
lemma checkedAdd_bind_eq_ok {α : Type} {a b : ℕ} {f : ℕ → Checked α} {r : α} :
    (checkedAdd a b >>= f) = .ok r ↔ a + b < 2 ^ 32 ∧ f (a + b) = .ok r := by
  by_cases h : a + b < 2 ^ 32
  · rw [checkedAdd_eq h, ok_bind, and_iff_right h]
  · rw [checkedAdd, if_neg h]
    constructor
    · rintro ⟨⟩
    · rintro ⟨hlt, -⟩
      exact absurd hlt h

lemma index_bind_eq_ok {α : Type} {b : Bytes} {i : ℕ} {f : UInt8 → Checked α} {r : α} :
    (index b i >>= f) = .ok r ↔ i < b.length ∧ f (b.getD i 0) = .ok r := by
  by_cases h : i < b.length
  · rw [index_eq h, ok_bind, and_iff_right h]
  · have hnone : index b i = .error .panic := by simp [index, okOr, h]
    rw [hnone]
    constructor
    · rintro ⟨⟩
    · rintro ⟨hlt, -⟩
      exact absurd hlt h

/-- A slice that goes on was in range. -/
lemma getRange_bind_eq_ok {α : Type} {b : Bytes} {i n : ℕ} {f : Bytes → Checked α} {r : α} :
    (orMalformed (getRange b i (i + n)) >>= f) = .ok r ↔
      i + n ≤ b.length ∧ f ((b.drop i).take n) = .ok r := by
  rw [orMalformed_getRange]
  by_cases h : i + n ≤ b.length
  · rw [if_pos h, ok_bind, and_iff_right h]
  · rw [if_neg h]
    constructor
    · rintro ⟨⟩
    · rintro ⟨hle, -⟩
      exact absurd hle h

lemma u16FromBeBytes_lt (hi lo : UInt8) : u16FromBeBytes hi lo < 65536 := by
  have hhi := hi.toNat_lt
  have hlo := lo.toNat_lt
  rw [u16FromBeBytes]
  omega

/-! ### The loops advance -/

/-- A turn moves past the three bytes of a name's header at least, and not past the end. -/
lemma sniNameTurn_advances (list : Bytes) : Turn.Advances (sniNameTurn list) list.length := by
  intro i i' h
  rw [sniNameTurn, checkedAdd_bind_eq_ok] at h
  obtain ⟨-, h⟩ := h
  split at h
  · simp only [checkedAdd_bind_eq_ok, index_bind_eq_ok, getRange_bind_eq_ok] at h
    obtain ⟨-, -, -, -, -, -, -, hle, -, h⟩ := h
    split at h
    · generalize fromUtf8 _ = name at h
      cases name with
      | none => cases h
      | some s =>
        rw [orMalformed_some, ok_bind] at h
        split at h <;> cases h
    · cases h
      exact ⟨by omega, hle⟩
  · cases h

lemma extensionTurn_advances (exts : Bytes) : Turn.Advances (extensionTurn exts) exts.length := by
  intro j j' h
  rw [extensionTurn, checkedAdd_bind_eq_ok] at h
  obtain ⟨-, h⟩ := h
  split at h
  · simp only [checkedAdd_bind_eq_ok, index_bind_eq_ok, getRange_bind_eq_ok] at h
    obtain ⟨-, -, -, -, -, -, -, -, -, hle, -, h⟩ := h
    split at h
    · generalize parseSniExtensionChecked _ = verdict at h
      cases verdict <;> cases h
    · cases h
      exact ⟨by omega, hle⟩
  · cases h

/-! ### The same results -/

lemma whileLoop_eq {α : Type} {turn : ℕ → Checked (Turn α)} {bytes : Bytes} {f : ℕ → Checked α}
    (h : Turn.Advances turn bytes.length) (hf : Turn.Solves turn bytes.length f) :
    whileLoop turn bytes = f 0 := by
  rw [whileLoop, Turn.loop_eq h hf (Nat.zero_le _) (by omega), Option.getD_some]

/-- In a list whose length fits two bytes no sum of the loop overflows. -/
lemma sniNameTurn_solves {list : Bytes} (hlen : list.length < 65536) :
    Turn.Solves (sniNameTurn list) list.length (sniNameLoop list) := by
  intro i hi
  rw [sniNameLoop, sniNameTurn, checkedAdd_eq (by omega), ok_bind]
  by_cases hstart : i + 3 ≤ list.length
  · have hname := u16FromBeBytes_lt (list.getD (i + 1) 0) (list.getD (i + 2) 0)
    simp only [if_pos hstart, ok_bind, index_eq (show i < list.length by omega),
      index_eq (show i + 1 < list.length by omega), index_eq (show i + 2 < list.length by omega),
      checkedAdd_eq (show i + 1 < 2 ^ 32 by omega), checkedAdd_eq (show i + 2 < 2 ^ 32 by omega)]
    generalize u16FromBeBytes (list.getD (i + 1) 0) (list.getD (i + 2) 0) = nameLen at hname ⊢
    simp only [checkedAdd_eq (show i + 3 + nameLen < 2 ^ 32 by omega), ok_bind]
    cases orMalformed (getRange list (i + 3) (i + 3 + nameLen)) with
    | error e => rfl
    | ok name =>
      simp only [ok_bind]
      by_cases htype : list.getD i 0 = 0
      · simp only [if_pos htype]
        cases orMalformed (fromUtf8 name) with
        | error e => rfl
        | ok s =>
          simp only [ok_bind]
          split <;> rfl
      · simp only [if_neg htype]
        rfl
  · rw [if_neg hstart, if_neg hstart]
    rfl

lemma parseSniExtensionChecked_eq (data : Bytes) :
    parseSniExtensionChecked data = parseSniExtension data := by
  rw [parseSniExtensionChecked, parseSniExtension]
  by_cases hshort : data.length < 2
  · rw [if_pos hshort, if_pos hshort]
  · have hlist := u16FromBeBytes_lt (data.getD 0 0) (data.getD 1 0)
    simp only [if_neg hshort, index_eq (show 0 < data.length by omega),
      index_eq (show 1 < data.length by omega), ok_bind]
    generalize u16FromBeBytes (data.getD 0 0) (data.getD 1 0) = listLen at hlist ⊢
    rw [checkedAdd_eq (by omega), ok_bind, orMalformed_getRange]
    split
    · have hlen : ((data.drop 2).take listLen).length < 65536 := by
        rw [List.length_take]
        omega
      exact whileLoop_eq (sniNameTurn_advances _) (sniNameTurn_solves hlen)
    · rfl

lemma extensionTurn_solves {exts : Bytes} (hlen : exts.length < 65536) :
    Turn.Solves (extensionTurn exts) exts.length (extensionLoop exts) := by
  intro j hj
  rw [extensionLoop, extensionTurn, checkedAdd_eq (by omega), ok_bind]
  by_cases hstart : j + 4 ≤ exts.length
  · have hdata := u16FromBeBytes_lt (exts.getD (j + 2) 0) (exts.getD (j + 3) 0)
    simp only [if_pos hstart, ok_bind, index_eq (show j < exts.length by omega),
      index_eq (show j + 1 < exts.length by omega), index_eq (show j + 2 < exts.length by omega),
      index_eq (show j + 3 < exts.length by omega), checkedAdd_eq (show j + 1 < 2 ^ 32 by omega),
      checkedAdd_eq (show j + 2 < 2 ^ 32 by omega), checkedAdd_eq (show j + 3 < 2 ^ 32 by omega)]
    generalize u16FromBeBytes (exts.getD (j + 2) 0) (exts.getD (j + 3) 0) = len at hdata ⊢
    simp only [checkedAdd_eq (show j + 4 + len < 2 ^ 32 by omega), ok_bind]
    cases orMalformed (getRange exts (j + 4) (j + 4 + len)) with
    | error e => rfl
    | ok data =>
      simp only [ok_bind, parseSniExtensionChecked_eq]
      split
      · cases parseSniExtension data <;> rfl
      · rfl
  · rw [if_neg hstart, if_neg hstart]
    rfl

/-- What follows a computation matters only where it succeeds. -/
lemma bind_congr_ok {α β : Type} {x : Checked α} {f g : α → Checked β}
    (h : ∀ a, x = .ok a → f a = g a) : (x >>= f) = (x >>= g) := by
  cases x with
  | error e => rfl
  | ok a => exact h a rfl

lemma u16AtChecked_eq {buf : Bytes} {i : ℕ} (h : i + 2 < 2 ^ 32) :
    u16AtChecked buf i = u16At buf i := by
  rw [u16AtChecked, checkedAdd_eq h, ok_bind]
  rfl

lemma u16At_lt {buf : Bytes} {i n : ℕ} (h : u16At buf i = .ok n) : n < 65536 := by
  rw [u16At_eq] at h
  split at h
  · cases h
    exact u16FromBeBytes_lt _ _
  · cases h

/-- The cursor stays small: each field moves it by less than `2 ^ 16`. -/
lemma parseHelloChecked_eq (hello : Bytes) : parseHelloChecked hello = parseHello hello := by
  rw [parseHelloChecked, parseHello, checkedAdd_eq (by decide), ok_bind]
  apply bind_congr_ok
  intro sid _
  have hsid := sid.toNat_lt
  dsimp only
  rw [checkedAdd_eq (by omega), ok_bind, checkedAdd_eq (by omega), ok_bind,
    u16AtChecked_eq (by omega)]
  apply bind_congr_ok
  intro csLen hcs
  have hcs := u16At_lt hcs
  rw [checkedAdd_eq (by omega), ok_bind, checkedAdd_eq (by omega), ok_bind]
  apply bind_congr_ok
  intro comp _
  have hcomp := comp.toNat_lt
  rw [checkedAdd_eq (by omega), ok_bind, checkedAdd_eq (by omega), ok_bind]
  split
  · rfl
  rw [u16AtChecked_eq (by omega)]
  apply bind_congr_ok
  intro extLen hext
  have hext := u16At_lt hext
  rw [checkedAdd_eq (by omega), ok_bind, checkedAdd_eq (by omega), ok_bind, orMalformed_getRange]
  split
  · have hlen : ((hello.drop (2 + 32 + (1 + sid.toNat) + (2 + csLen) + (1 + comp.toNat) + 2)).take
        extLen).length < 65536 := by
      rw [List.length_take]
      omega
    exact whileLoop_eq (extensionTurn_advances _) (extensionTurn_solves hlen)
  · rfl

lemma vec24_len_lt (b : Bytes) : vec24.len b < 2 ^ 24 := by
  have h0 := (b.getD 0 0).toNat_lt
  have h1 := (b.getD 1 0).toNat_lt
  have h2 := (b.getD 2 0).toNat_lt
  simp only [vec24]
  omega

lemma u24_cases (b : Bytes) :
    (∃ n < 2 ^ 24, u24 b = .ok n) ∨ u24 b = .error (.proto .malformed) := by
  by_cases hlen : 3 ≤ b.length
  · exact .inl ⟨_, vec24_len_lt b, u24_eq hlen⟩
  · rw [u24, if_pos (by omega)]
    exact .inr rfl

lemma u24_lt {b : Bytes} {n : ℕ} (h : u24 b = .ok n) : n < 2 ^ 24 := by
  obtain ⟨m, hm, hok⟩ | herror := u24_cases b
  · rw [hok] at h
    cases h
    exact hm
  · rw [herror] at h
    cases h

/-- The parser agrees with its unchecked form, on a record of any length. -/
lemma parseSniChecked_eq (record : Bytes) : parseSniChecked record = parseSni record := by
  rw [parseSniChecked, parseSni]
  split
  · rfl
  apply bind_congr_ok
  intro b₀ _
  split
  · rfl
  apply bind_congr_ok
  intro b₃ _
  apply bind_congr_ok
  intro b₄ _
  have hrecord := u16FromBeBytes_lt b₃ b₄
  dsimp only
  rw [checkedAdd_eq (by omega), ok_bind]
  apply bind_congr_ok
  intro body _
  split
  · rfl
  apply bind_congr_ok
  intro type _
  split
  · rfl
  apply bind_congr_ok
  intro bytes _
  apply bind_congr_ok
  intro hsLen hhs
  have hhs := u24_lt hhs
  rw [checkedAdd_eq (by omega), ok_bind]
  apply bind_congr_ok
  intro hello _
  exact parseHelloChecked_eq hello

lemma tlsRecordNeededChecked_eq (buf : Bytes) :
    tlsRecordNeededChecked buf = tlsRecordNeeded buf := by
  rw [tlsRecordNeededChecked, tlsRecordNeeded]
  split
  · rfl
  apply bind_congr_ok
  intro b₀ _
  split
  · rfl
  split
  · rw [checkedSub_eq (by omega)]
    rfl
  apply bind_congr_ok
  intro b₁ _
  split
  · rfl
  apply bind_congr_ok
  intro b₃ _
  apply bind_congr_ok
  intro b₄ _
  have hrecord := u16FromBeBytes_lt b₃ b₄
  dsimp only
  split
  · rfl
  rw [checkedAdd_eq (by omega), ok_bind]
  split
  · rfl
  · rw [checkedSub_eq (by omega)]
    rfl

/-! ### No panic -/

lemma Returns.ne_panic {x : Checked (Option Str)} (h : Returns x) : x ≠ .error .panic := by
  obtain ⟨o, rfl⟩ | ⟨e, rfl⟩ := h
  · rintro ⟨⟩
  · rintro ⟨⟩

lemma u24_ne_panic (b : Bytes) : u24 b ≠ .error .panic := by
  obtain ⟨n, -, h⟩ | h := u24_cases b
  · rw [h]
    rintro ⟨⟩
  · rw [h]
    rintro ⟨⟩

lemma u16At_ne_panic (buf : Bytes) (i : ℕ) : u16At buf i ≠ .error .panic := by
  rw [u16At_eq]
  split
  · rintro ⟨⟩
  · rintro ⟨⟩

lemma tlsRecordNeeded_ne_panic (buf : Bytes) : tlsRecordNeeded buf ≠ .error .panic := by
  by_cases hne : buf = []
  · subst hne
    rintro ⟨⟩
  · rw [tlsRecordNeeded_eq hne]
    split_ifs <;> rintro ⟨⟩

/-- On every byte string the TLS parser stops without a panic: no index or slice is out of range,
no sum of lengths and cursors reaches `2 ^ 32`, and the cursor of either loop grows in every turn
up to the length of its bytes. The sum in `u16_at` is one of those of `parse_sni`. -/
theorem tls_parser_safe :
    (∀ buf, tlsRecordNeededChecked buf = tlsRecordNeeded buf ∧
      tlsRecordNeededChecked buf ≠ .error .panic) ∧
    (∀ record, parseSniChecked record = parseSni record ∧
      parseSniChecked record ≠ .error .panic) ∧
    (∀ data, parseSniExtensionChecked data = parseSniExtension data ∧
      parseSniExtensionChecked data ≠ .error .panic) ∧
    (∀ b, u24 b ≠ .error .panic) ∧
    (∀ buf i, u16At buf i ≠ .error .panic) ∧
    (∀ exts, (∀ j j', extensionTurn exts j = .ok (.next j') → j < j' ∧ j' ≤ exts.length) ∧
      (Turn.loop (extensionTurn exts) (exts.length + 1) 0).isSome) ∧
    ∀ list, (∀ i i', sniNameTurn list i = .ok (.next i') → i < i' ∧ i' ≤ list.length) ∧
      (Turn.loop (sniNameTurn list) (list.length + 1) 0).isSome := by
  refine ⟨?_, ?_, ?_, u24_ne_panic, u16At_ne_panic, ?_, ?_⟩
  · intro buf
    rw [tlsRecordNeededChecked_eq]
    exact ⟨rfl, tlsRecordNeeded_ne_panic buf⟩
  · intro record
    rw [parseSniChecked_eq]
    exact ⟨rfl, (parseSni_returns record).ne_panic⟩
  · intro data
    rw [parseSniExtensionChecked_eq]
    exact ⟨rfl, (parseSniExtension_returns data).ne_panic⟩
  · intro exts
    exact ⟨extensionTurn_advances exts, Turn.loop_isSome (extensionTurn_advances exts) (by omega)⟩
  · intro list
    exact ⟨sniNameTurn_advances list, Turn.loop_isSome (sniNameTurn_advances list) (by omega)⟩

/-- A name that is no host name and an extension that is no `server_name` are passed over. -/
theorem tls_parser_safe_passes_over :
    (sniNameTurn [1, 0, 0, 0, 0, 1, 97] 0 = .ok (.next 3) ∧ 0 < 3) ∧
      extensionTurn [0, 5, 0, 1, 7] 0 = .ok (.next 5) ∧ 0 < 5 := by
  have hname : sniNameTurn [1, 0, 0, 0, 0, 1, 97] 0 = .ok (.next 3) := by decide +kernel
  have hext : extensionTurn [0, 5, 0, 1, 7] 0 = .ok (.next 5) := by decide +kernel
  obtain ⟨-, -, -, -, -, hexts, hlist⟩ := tls_parser_safe
  exact ⟨⟨hname, ((hlist _).1 _ _ hname).1⟩, hext, ((hexts _).1 _ _ hext).1⟩

end WsTcpProxy.Proofs
