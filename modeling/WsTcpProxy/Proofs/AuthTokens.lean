import WsTcpProxy.Headers
import Mathlib.Data.Nat.Bitwise

/-!
# Tokens and subprotocols

The comparison of tokens, and which of the offered subprotocols carries the token and which is
echoed to the client.
-/

namespace WsTcpProxy.Proofs

/-! ### Comparison -/

lemma foldl_or_eq_zero (f : ℕ → ℕ) (l : List ℕ) (diff : ℕ) :
    l.foldl (fun diff i => diff ||| f i) diff = 0 ↔ diff = 0 ∧ ∀ i ∈ l, f i = 0 := by
  induction l generalizing diff with
  | nil => simp
  | cons i l ih =>
    rw [List.foldl_cons, ih, Nat.or_eq_zero_iff, List.forall_mem_cons]
    exact and_assoc

lemma xor_toNat_eq_zero (x y : UInt8) : (x ^^^ y).toNat = 0 ↔ x = y := by
  rw [UInt8.toNat_xor, Nat.xor_eq_zero_iff, UInt8.toNat_inj]

/-- `token_eq` is equality: a zero byte at the end is hidden by the padding, and seen by the
lengths. -/
theorem tokenEq_eq_true_iff (a b : Bytes) : tokenEq a b = true ↔ a = b := by
  simp only [tokenEq, beq_iff_eq, foldl_or_eq_zero, Nat.xor_eq_zero_iff, xor_toNat_eq_zero,
    List.mem_range]
  constructor
  · rintro ⟨hlen, hbytes⟩
    apply List.ext_getElem hlen
    intro i ha hb
    have hi : i < max a.length b.length := lt_max_of_lt_left ha
    simpa [List.getD, ha, hb] using hbytes i hi
  · rintro rfl
    exact ⟨rfl, fun i _ => rfl⟩

/-! ### Offered subprotocols -/

def bearerMark : Str := "bearer.".toList

def pasetoMark : Str := "v4.local.".toList

/-- The elements of the `Sec-WebSocket-Protocol` list. -/
def offeredProtocols (headers : HeaderMap) : List Str :=
  match headers.text "sec-websocket-protocol" with
  | none => []
  | some raw => (raw.splitOn ',').map trim

/-- An element that begins like one with a token in it. -/
def IsMarked (p : Str) : Prop := bearerMark <+: p ∨ pasetoMark <+: p

/-- The token `t` stands in the element `p`. -/
def CarriesToken (p t : Str) : Prop := p = bearerMark ++ t ∨ p = t ∧ pasetoMark <+: p

/-- The echoed subprotocol is the element that the token is taken from, the first one with a
token in it. -/
def EchoAgrees (headers : HeaderMap) : Prop :=
  ((offeredAuthProtocol headers).isSome ↔ (protocolToken headers).isSome) ∧
  ∀ p t, offeredAuthProtocol headers = some p → protocolToken headers = some t →
    CarriesToken p t ∧
      (offeredProtocols headers).find? (fun q => (tokenOfProtocol q).isSome) = some p

/-- A `bearer.` without a token comes only after an element with one. -/
def BareBearerLast (headers : HeaderMap) : Prop :=
  ∀ before after, offeredProtocols headers = before ++ bearerMark :: after →
    ∃ p ∈ before, IsMarked p ∧ p ≠ bearerMark

lemma protocolToken_eq (headers : HeaderMap) :
    protocolToken headers = (offeredProtocols headers).findSome? tokenOfProtocol := by
  rw [protocolToken, offeredProtocols]
  cases headers.text "sec-websocket-protocol" <;> rfl

instance (p : Str) : Decidable (IsMarked p) := inferInstanceAs (Decidable (_ ∨ _))

lemma offeredAuthProtocol_eq (headers : HeaderMap) :
    offeredAuthProtocol headers = (offeredProtocols headers).find? fun p => decide (IsMarked p) := by
  have hmarked : (fun p => decide (IsMarked p)) = fun p : Str =>
      "bearer.".toList.isPrefixOf p || "v4.local.".toList.isPrefixOf p := by
    funext p
    rw [Bool.eq_iff_iff, decide_eq_true_iff, Bool.or_eq_true, List.isPrefixOf_iff_prefix,
      List.isPrefixOf_iff_prefix]
    exact Iff.rfl
  rw [offeredAuthProtocol, offeredProtocols, hmarked]
  cases headers.text "sec-websocket-protocol" <;> rfl

lemma stripPrefix_eq_some {p s t : Str} : stripPrefix p s = some t ↔ s = p ++ t := by
  induction p generalizing s with
  | nil => simp [stripPrefix]
  | cons c p ih =>
    cases s with
    | nil => simp [stripPrefix]
    | cons d s =>
      rw [stripPrefix, List.cons_append, List.cons.injEq]
      by_cases hc : c = d
      · simp [hc, ih]
      · simp [hc, Ne.symm hc]

/-- The two marks differ in their first character. -/
lemma not_paseto_of_bearer {p : Str} (hbearer : bearerMark <+: p) : ¬ pasetoMark <+: p := by
  have hb : bearerMark = 'b' :: "earer.".toList := rfl
  have hv : pasetoMark = 'v' :: "4.local.".toList := rfl
  obtain ⟨t, rfl⟩ := hbearer
  rintro ⟨t', h⟩
  rw [hb, hv, List.cons_append, List.cons_append, List.cons.injEq] at h
  exact absurd h.1 (by decide)

lemma tokenOfProtocol_eq_some {p t : Str} :
    tokenOfProtocol p = some t ↔ (p = bearerMark ++ t ∧ t ≠ []) ∨ (p = t ∧ pasetoMark <+: p) := by
  have hpaseto : pasetoMark.isPrefixOf p = true ↔ pasetoMark <+: p := List.isPrefixOf_iff_prefix
  change ((stripPrefix bearerMark p).filter (fun t => !t.isEmpty) <|>
    if pasetoMark.isPrefixOf p then some p else none) = some t ↔ _
  simp only [hpaseto]
  cases hstrip : stripPrefix bearerMark p with
  | none =>
    have hbearer : p ≠ bearerMark ++ t := by
      intro hp
      rw [stripPrefix_eq_some.2 hp] at hstrip
      cases hstrip
    by_cases hmark : pasetoMark <+: p
    · simp [hmark, hbearer]
    · simp [hmark, hbearer]
  | some t' =>
    obtain rfl := stripPrefix_eq_some.1 hstrip
    have hmark : ¬ pasetoMark <+: bearerMark ++ t' := not_paseto_of_bearer (List.prefix_append _ _)
    by_cases hempty : t' = []
    · subst hempty
      rw [if_neg hmark]
      constructor
      · rintro ⟨⟩
      · rintro (⟨happ, hne⟩ | ⟨-, h⟩)
        · exact absurd (List.append_cancel_left happ).symm hne
        · exact absurd h hmark
    · have hkept : (some t').filter (fun t => !t.isEmpty) = some t' := by simp [hempty]
      rw [hkept]
      constructor
      · rintro ⟨⟩
        exact .inl ⟨rfl, hempty⟩
      · rintro (⟨happ, -⟩ | ⟨-, h⟩)
        · rw [List.append_cancel_left happ]
          rfl
        · exact absurd h hmark

lemma tokenOfProtocol_isSome (p : Str) :
    (tokenOfProtocol p).isSome ↔ IsMarked p ∧ p ≠ bearerMark := by
  rw [Option.isSome_iff_exists]
  simp only [tokenOfProtocol_eq_some]
  constructor
  · rintro ⟨t, ⟨rfl, hne⟩ | ⟨rfl, hmark⟩⟩
    · exact ⟨.inl (List.prefix_append _ _), by simpa using hne⟩
    · refine ⟨.inr hmark, ?_⟩
      rintro rfl
      exact not_paseto_of_bearer (List.prefix_refl _) hmark
  · rintro ⟨⟨t, rfl⟩ | hmark, hne⟩
    · exact ⟨t, .inl ⟨rfl, by simpa using hne⟩⟩
    · exact ⟨p, .inr ⟨rfl, hmark⟩⟩

lemma findSome?_eq_find?_bind {α β : Type} (f : α → Option β) (l : List α) :
    l.findSome? f = (l.find? fun a => (f a).isSome).bind f := by
  induction l with
  | nil => rfl
  | cons a l ih =>
    rw [List.findSome?_cons, List.find?_cons]
    cases hf : f a with
    | none => simpa using ih
    | some b => simp [hf]

/-- The two scans stop at the same element. -/
lemma find?_marked {l : List Str}
    (h : ∀ before after, l = before ++ bearerMark :: after →
      ∃ p ∈ before, IsMarked p ∧ p ≠ bearerMark) :
    l.find? (fun p => decide (IsMarked p)) = l.find? fun p => (tokenOfProtocol p).isSome := by
  cases hfind : l.find? fun p => decide (IsMarked p) with
  | none =>
    symm
    rw [List.find?_eq_none] at hfind ⊢
    intro p hp htoken
    rw [tokenOfProtocol_isSome] at htoken
    exact hfind p hp (by simpa using htoken.1)
  | some p =>
    obtain ⟨hmarked, before, after, hl, hbefore⟩ := List.find?_eq_some_iff_append.1 hfind
    have hunmarked : ∀ q ∈ before, ¬ IsMarked q := by simpa using hbefore
    have hbare : p ≠ bearerMark := by
      rintro rfl
      obtain ⟨q, hq, hqmarked, -⟩ := h before after hl
      exact hunmarked q hq hqmarked
    symm
    rw [List.find?_eq_some_iff_append]
    refine ⟨(tokenOfProtocol_isSome p).2 ⟨by simpa using hmarked, hbare⟩, before, after, hl, ?_⟩
    intro q hq
    have htoken : ¬ (tokenOfProtocol q).isSome := by
      rw [tokenOfProtocol_isSome]
      exact fun hq' => hunmarked q hq hq'.1
    simpa using htoken

/-- The echoed subprotocol is the one that the token is taken from, unless a `bearer.` without a
token comes first. -/
theorem echoAgrees_iff (headers : HeaderMap) : EchoAgrees headers ↔ BareBearerLast headers := by
  rw [EchoAgrees, offeredAuthProtocol_eq, protocolToken_eq, findSome?_eq_find?_bind]
  constructor
  · rintro ⟨hsome, hsame⟩ before after hlist
    by_contra hnone
    push Not at hnone
    -- the first marked element is a bare `bearer.`, in which there is no token
    have hmarked : IsMarked bearerMark := .inl (List.prefix_refl _)
    have hoffered : (offeredProtocols headers).find? (fun p => decide (IsMarked p)) =
        some bearerMark := by
      rw [hlist, List.find?_append, List.find?_cons_of_pos (by simpa using hmarked)]
      cases hfind : before.find? fun p => decide (IsMarked p) with
      | none => rfl
      | some p =>
        have hp := hnone p (List.mem_of_find?_eq_some hfind) (by simpa using List.find?_some hfind)
        rw [hp, Option.some_or]
    rw [hoffered] at hsome hsame
    obtain ⟨t, ht⟩ := Option.isSome_iff_exists.1 (hsome.1 rfl)
    obtain ⟨-, hfirst⟩ := hsame _ t rfl ht
    have htoken := List.find?_some hfirst
    rw [tokenOfProtocol_isSome] at htoken
    exact htoken.2 rfl
  · intro hlast
    rw [find?_marked hlast]
    cases hfind : (offeredProtocols headers).find? fun p => (tokenOfProtocol p).isSome with
    | none => simp
    | some p =>
      have hp := List.find?_some hfind
      refine ⟨by simpa using hp, ?_⟩
      rintro _ t ⟨⟩ ht
      refine ⟨?_, rfl⟩
      obtain ⟨hp, -⟩ | hp := tokenOfProtocol_eq_some.1 ht
      · exact .inl hp
      · exact .inr hp

/-- A client that offers `bearer.` before `bearer.tok` is authenticated by the second element and
is answered with the first. -/
theorem bareBearer_echoed :
    let headers : HeaderMap :=
      ⟨[("sec-websocket-protocol".toList, asciiBytes "bearer., bearer.tok")]⟩
    protocolToken headers = some "tok".toList ∧
      offeredAuthProtocol headers = some "bearer.".toList ∧ ¬ EchoAgrees headers := by
  have htoken : protocolToken ⟨[("sec-websocket-protocol".toList,
      asciiBytes "bearer., bearer.tok")]⟩ = some "tok".toList := by decide +kernel
  have hoffered : offeredAuthProtocol ⟨[("sec-websocket-protocol".toList,
      asciiBytes "bearer., bearer.tok")]⟩ = some "bearer.".toList := by decide +kernel
  refine ⟨htoken, hoffered, ?_⟩
  rintro ⟨-, hsame⟩
  obtain ⟨hcarries, -⟩ := hsame _ _ hoffered htoken
  revert hcarries
  unfold CarriesToken
  decide +kernel

end WsTcpProxy.Proofs
