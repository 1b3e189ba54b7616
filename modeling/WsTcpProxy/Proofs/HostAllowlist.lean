import WsTcpProxy.Headers
import WsTcpProxy.Proofs.DestKeys

/-!
# The host allowlist

`host_allowed` against the relation that it is meant to decide: the host of the header, without
its port, is an entry of the list up to case and trailing dots.
-/

namespace WsTcpProxy.Proofs

def bracketed (s : Str) : Str := '[' :: (s ++ [']'])

/-- A host as it stands in a `Host` header. -/
inductive HostText : Str → Prop
  | name {s : Str} (h : isValidDnsHostname s) : HostText s
  | rooted {s : Str} (h : isValidDnsHostname s) : HostText (s ++ ['.'])
  | v4 {s : Str} {ip : Ipv4Addr} (h : parseIpAddr s = some (.v4 ip)) : HostText s
  | v6 {s : Str} {ip : Ipv6Addr} (h : parseIpAddr s = some (.v6 ip)) : HostText (bracketed s)

structure IsPort (port : Str) : Prop where
  nonempty : port ≠ []
  digits : ∀ c ∈ port, isAsciiDigit c

def withPort (h : Str) : Option Str → Str
  | none => h
  | some port => h ++ ':' :: port

/-- No colon of the host can be taken for the one before a port. -/
def Delimited (h : Str) : Prop := ':' ∉ h ∨ ∃ s, h = bracketed s

/-- The entry, without its trailing dots, is a host with a port. -/
def CarriesPort (entry : Str) : Prop :=
  ∃ h port, Delimited h ∧ IsPort port ∧ hostCore entry = h ++ ':' :: port

/-- Equal up to case and trailing dots. -/
def SameHost (h entry : Str) : Prop :=
  toAsciiLowercase (trimEndMatches '.' h) = toAsciiLowercase (trimEndMatches '.' entry)

def Listed (allowed : Finset Str) (h : Str) : Prop := ∃ entry ∈ allowed, SameHost h entry

/-- The part of a host that `host_allowed` takes for the host before a port. -/
def stub (h : Str) : Str := h.takeWhile (· != ':')

def StubListed (allowed : Finset Str) (h : Str) : Prop :=
  ∃ entry ∈ allowed, normalizeHost entry = toAsciiLowercase (stub h)

/-- The headers that `host_allowed` misreads: a listed name with a dot before its port, a listed
address that is cut at its first colon instead of at its port, and an address that is not listed
but cut to an entry. -/
def Misread (allowed : Finset Str) (h : Str) (port : Option Str) : Prop :=
  (port ≠ none ∧ h.getLast? = some '.' ∧ Listed allowed h) ∨
  (port ≠ none ∧ h.head? = some '[' ∧ Listed allowed h ∧ ¬ StubListed allowed h) ∨
  (h.head? = some '[' ∧ ¬ Listed allowed h ∧ StubListed allowed h)

/-! ### Colons -/

lemma head?_splitOn (sep : Char) (s : Str) :
    (s.splitOn sep).head? = some (s.takeWhile (· != sep)) := by
  induction s with
  | nil => rfl
  | cons c s ih =>
    rw [splitOn_cons, List.takeWhile_cons]
    by_cases hc : c = sep
    · simp [hc]
    · simp [hc, ih]

lemma stub_append_colon (h rest : Str) : stub (h ++ ':' :: rest) = stub h := by
  induction h with
  | nil => rfl
  | cons c h ih =>
    rw [List.cons_append, stub, stub, List.takeWhile_cons, List.takeWhile_cons]
    split
    · rw [← stub, ih, stub]
    · rfl

lemma stub_eq_self {h : Str} (hcolon : ':' ∉ h) : stub h = h := by
  rw [stub, List.takeWhile_eq_self_iff]
  intro c hc
  have hne : c ≠ ':' := by
    rintro rfl
    exact hcolon hc
  simpa using hne

lemma toLower_bne_colon (c : Char) : (c.toLower != ':') = (c != ':') := by
  have hcolon : c.toLower = ':' ↔ c = ':' := toLower_eq_iff (by decide) (by decide)
  rw [Bool.eq_iff_iff, bne_iff_ne, bne_iff_ne, Ne, Ne, hcolon]

lemma stub_toAsciiLowercase (h : Str) : stub (toAsciiLowercase h) = toAsciiLowercase (stub h) := by
  have hcomp : (fun c => c != ':') ∘ Char.toLower = fun c => c != ':' := funext toLower_bne_colon
  rw [stub, toAsciiLowercase, List.takeWhile_map, hcomp]
  rfl

lemma hostAllowed_iff {headers : HeaderMap} {allowed : Finset Str} {raw : Str}
    (hallowed : allowed.Nonempty) (hraw : headers.text "host" = some raw) :
    hostAllowed headers allowed = true ↔ ∃ entry ∈ allowed,
      normalizeHost raw = normalizeHost entry ∨ stub (normalizeHost raw) = normalizeHost entry := by
  have hne : ¬ allowed = ∅ := hallowed.ne_empty
  simp only [hostAllowed, if_neg hne, hraw, head?_splitOn, Option.some.injEq, decide_eq_true_iff]
  rfl

/-! ### Normalised hosts -/

lemma normalizeHost_getLast (s : Str) : (normalizeHost s).getLast? ≠ some '.' := by
  intro h
  have hcore : normalizeHost s = (hostCore s).map Char.toLower := rfl
  rw [hcore, List.getLast?_map, Option.map_eq_some_iff] at h
  obtain ⟨c, hc, hlow⟩ := h
  have hdot : c = '.' := (toLower_eq_iff (by decide) (by decide)).1 hlow
  have hkept := trimEndWhile_getLast hc
  rw [hdot] at hkept
  cases hkept

lemma normalizeHost_of_trim {s : Str} (h : trim s = s) :
    normalizeHost s = toAsciiLowercase (trimEndMatches '.' s) := by
  rw [normalizeHost, h]

lemma toLower_of_digit {c : Char} (h : isAsciiDigit c) : c.toLower = c := by
  have hrange := (isAsciiDigit_iff c).1 h
  apply Char.toNat_inj.1
  rw [toLower_toNat, if_neg (by omega)]

lemma isAsciiDigit_of_toLower {c : Char} (h : isAsciiDigit c.toLower) : isAsciiDigit c := by
  have hlow := toLower_toNat c
  rw [isAsciiDigit_iff] at h ⊢
  split at hlow <;> omega

lemma isWhitespace_of_digit {c : Char} (h : isAsciiDigit c) : isWhitespace c = false := by
  apply isWhitespace_of_alphanumeric
  rw [isAsciiAlphanumeric, h]
  rfl

lemma IsPort.toAsciiLowercase_eq {port : Str} (h : IsPort port) : toAsciiLowercase port = port := by
  rw [toAsciiLowercase]
  nth_rewrite 2 [← List.map_id port]
  exact List.map_congr_left fun c hc => toLower_of_digit (h.digits c hc)

lemma IsPort.getLast_digit {port : Str} (hport : IsPort port) {h : Str} {c : Char}
    (hc : (h ++ ':' :: port).getLast? = some c) : isAsciiDigit c := by
  rw [List.append_cons, List.getLast?_append_of_ne_nil _ hport.nonempty] at hc
  exact hport.digits c (List.mem_of_getLast? hc)

/-- Before a port nothing is trimmed. -/
lemma normalizeHost_port {h port : Str} (hport : IsPort port)
    (hhead : ∀ c, h.head? = some c → isWhitespace c = false) :
    normalizeHost (h ++ ':' :: port) = toAsciiLowercase h ++ ':' :: port := by
  have htrim : trim (h ++ ':' :: port) = h ++ ':' :: port := by
    apply trim_eq_self
    · intro c hc
      cases h with
      | nil =>
        cases hc
        rfl
      | cons d h => exact hhead c hc
    · intro c hc
      exact isWhitespace_of_digit (hport.getLast_digit hc)
  have hdots : trimEndMatches '.' (h ++ ':' :: port) = h ++ ':' :: port := by
    apply trimEndMatches_eq_self
    intro hlast
    cases hport.getLast_digit hlast
  have hcolon : toAsciiLowercase (':' :: port) = ':' :: port := by
    have hlow := hport.toAsciiLowercase_eq
    rw [toAsciiLowercase] at hlow ⊢
    rw [List.map_cons, hlow]
    rfl
  rw [normalizeHost_of_trim htrim, hdots]
  nth_rewrite 2 [← hcolon]
  exact List.map_append

/-! ### The shapes of a host -/

/-- A name or an IPv4 address: labels of letters, digits and hyphens, without a dot at the end. -/
structure PlainHost (h : Str) : Prop where
  chars : ∀ c ∈ h, isAsciiAlphanumeric c ∨ c = '-' ∨ c = '.'
  last : h.getLast? ≠ some '.'

lemma PlainHost.of_valid {s : Str} (h : isValidDnsHostname s) : PlainHost s :=
  ⟨fun _ hc => mem_valid h hc, getLast_valid h⟩

lemma PlainHost.of_inetAton {s : Str} (h : (inetAton s).isSome) : PlainHost s := by
  refine ⟨fun c hc => ?_, inetAton_getLast h⟩
  obtain halnum | hdot := inetAton_chars h hc
  · exact .inl halnum
  · exact .inr (.inr hdot)

lemma Delimited.of_lower {h : Str} (hd : Delimited (toAsciiLowercase h)) : Delimited h := by
  obtain hcolon | ⟨s, hs⟩ := hd
  · apply Or.inl
    intro hmem
    exact hcolon (List.mem_map.2 ⟨':', hmem, rfl⟩)
  · obtain ⟨c, rest, rfl, hopen, hrest⟩ := List.map_eq_cons_iff.1 hs
    obtain ⟨inner, back, rfl, -, hback⟩ := List.map_eq_append_iff.1 hrest
    obtain ⟨d, tail, rfl, hclose, hnil⟩ := List.map_eq_cons_iff.1 hback
    have hc : c = '[' := (toLower_eq_iff (by decide) (by decide)).1 hopen
    have hd : d = ']' := (toLower_eq_iff (by decide) (by decide)).1 hclose
    rw [hc, hd, List.map_eq_nil_iff.1 hnil]
    exact .inr ⟨inner, rfl⟩

lemma Delimited.lower {h : Str} (hd : Delimited h) : Delimited (toAsciiLowercase h) := by
  obtain hcolon | ⟨s, rfl⟩ := hd
  · apply Or.inl
    intro hmem
    obtain ⟨c, hc, hlow⟩ := List.mem_map.1 hmem
    rw [(toLower_eq_iff (by decide) (by decide)).1 hlow] at hc
    exact hcolon hc
  · refine .inr ⟨s.map Char.toLower, ?_⟩
    rw [toAsciiLowercase, bracketed, List.map_cons, List.map_append]
    rfl

lemma HostText.shape {h : Str} (hh : HostText h) :
    PlainHost h ∨ (∃ s, PlainHost s ∧ h = s ++ ['.']) ∨ ∃ s, h = bracketed s := by
  cases hh with
  | name hvalid => exact .inl (.of_valid hvalid)
  | rooted hvalid => exact .inr (.inl ⟨_, .of_valid hvalid, rfl⟩)
  | v4 hip =>
    obtain ⟨haddr, -⟩ := inetAton_of_ipv4 (readIpv4Addr_of_parse hip)
    apply Or.inl
    apply PlainHost.of_inetAton
    rw [← Option.isSome_map, haddr]
    rfl
  | v6 _ => exact .inr (.inr ⟨_, rfl⟩)

lemma PlainHost.notMem {h : Str} (hh : PlainHost h) {c : Char} (hc : isAsciiAlphanumeric c = false)
    (hhyphen : c ≠ '-') (hdot : c ≠ '.') : c ∉ h := by
  intro hmem
  obtain halnum | rfl | rfl := hh.chars c hmem
  · rw [hc] at halnum
    cases halnum
  · exact hhyphen rfl
  · exact hdot rfl

lemma PlainHost.isWhitespace_eq {h : Str} (hh : PlainHost h) {c : Char} (hc : c ∈ h) :
    isWhitespace c = false := by
  obtain halnum | rfl | rfl := hh.chars c hc
  · exact isWhitespace_of_alphanumeric halnum
  · rfl
  · rfl

lemma PlainHost.head_ne {h : Str} (hh : PlainHost h) (rest : Str) (hrest : rest.head? ≠ some '[') :
    (h ++ rest).head? ≠ some '[' := by
  intro hhead
  rw [List.head?_append] at hhead
  cases h with
  | nil => exact hrest hhead
  | cons c h =>
    have hmem : '[' ∈ c :: h := List.mem_of_mem_head? hhead
    exact hh.notMem rfl (by decide) (by decide) hmem

/-! ### What is accepted -/

section
variable {headers : HeaderMap} {allowed : Finset Str} {h : Str}

lemma listed_iff (hentries : ∀ entry ∈ allowed, trim entry = entry) (htrim : trim h = h) :
    Listed allowed h ↔ ∃ entry ∈ allowed, normalizeHost h = normalizeHost entry := by
  rw [Listed, normalizeHost_of_trim htrim]
  apply exists_congr
  intro entry
  apply and_congr_right
  intro hentry
  rw [SameHost, normalizeHost_of_trim (hentries entry hentry)]

lemma hostAllowed_bare (hallowed : allowed.Nonempty)
    (hentries : ∀ entry ∈ allowed, trim entry = entry) (htrim : trim h = h)
    (hheader : headers.text "host" = some h) :
    hostAllowed headers allowed = true ↔
      Listed allowed h ∨ ∃ entry ∈ allowed, stub (normalizeHost h) = normalizeHost entry := by
  rw [hostAllowed_iff hallowed hheader, listed_iff hentries htrim, ← exists_or]
  simp only [and_or_left]

/-- With a port, the entries are compared with the stub. -/
lemma hostAllowed_port {port : Str} (hallowed : allowed.Nonempty)
    (hentries : ∀ entry ∈ allowed, ¬ CarriesPort entry) (hport : IsPort port)
    (hdelim : Delimited h) (hhead : ∀ c, h.head? = some c → isWhitespace c = false)
    (hheader : headers.text "host" = some (h ++ ':' :: port)) :
    hostAllowed headers allowed = true ↔ StubListed allowed h := by
  have hstub : stub (toAsciiLowercase h ++ ':' :: port) = toAsciiLowercase (stub h) := by
    rw [stub_append_colon, stub_toAsciiLowercase]
  rw [hostAllowed_iff hallowed hheader, normalizeHost_port hport hhead, hstub, StubListed]
  apply exists_congr
  intro entry
  apply and_congr_right
  intro hentry
  rw [or_iff_right, eq_comm]
  intro hsame
  -- an entry that reads like host and port has a port
  have hcore : (hostCore entry).map Char.toLower = toAsciiLowercase h ++ ':' :: port := hsame.symm
  obtain ⟨front, back, hentryCore, hfront, hback⟩ := List.map_eq_append_iff.1 hcore
  obtain ⟨c, digits, rfl, hc, hdigits⟩ := List.map_eq_cons_iff.1 hback
  have hcolon : c = ':' := (toLower_eq_iff (by decide) (by decide)).1 hc
  subst hcolon
  have hfrontDelim : Delimited front := by
    apply Delimited.of_lower
    rw [toAsciiLowercase, hfront]
    exact hdelim.lower
  refine hentries entry hentry ⟨front, digits, hfrontDelim, ⟨?_, ?_⟩, hentryCore⟩
  · rintro rfl
    exact hport.nonempty hdigits.symm
  · intro d hd
    apply isAsciiDigit_of_toLower
    apply hport.digits
    rw [← hdigits]
    exact List.mem_map_of_mem hd

/-- Without a port, a host whose normal form has no colon is accepted if it is listed. -/
lemma hostAllowed_unbracketed (hallowed : allowed.Nonempty)
    (hentries : ∀ entry ∈ allowed, trim entry = entry) (htrim : trim h = h)
    (hstub : stub (normalizeHost h) = normalizeHost h) (hheader : headers.text "host" = some h) :
    hostAllowed headers allowed = true ↔ Listed allowed h := by
  rw [hostAllowed_bare hallowed hentries htrim hheader, hstub, ← listed_iff hentries htrim, or_self]

end

/-! ### The three shapes -/

lemma PlainHost.trim_eq {s : Str} (hs : PlainHost s) : trim s = s :=
  trim_eq_self (fun _ hc => hs.isWhitespace_eq (List.mem_of_mem_head? hc))
    (fun _ hc => hs.isWhitespace_eq (List.mem_of_getLast? hc))

lemma PlainHost.trimEndMatches_eq {s : Str} (hs : PlainHost s) : trimEndMatches '.' s = s :=
  trimEndMatches_eq_self hs.last

lemma PlainHost.colon_notMem {s : Str} (hs : PlainHost s) : ':' ∉ s :=
  hs.notMem rfl (by decide) (by decide)

lemma PlainHost.stub_eq {s : Str} (hs : PlainHost s) : stub s = s := stub_eq_self hs.colon_notMem

lemma PlainHost.stub_lower {s : Str} (hs : PlainHost s) :
    stub (toAsciiLowercase s) = toAsciiLowercase s := by
  rw [stub_toAsciiLowercase, hs.stub_eq]

lemma rooted_head {s : Str} (hs : PlainHost s) {c : Char} (hc : (s ++ ['.']).head? = some c) :
    isWhitespace c = false := by
  obtain hmem | hmem := List.mem_append.1 (List.mem_of_mem_head? hc)
  · exact hs.isWhitespace_eq hmem
  · rw [List.mem_singleton.1 hmem]
    rfl

lemma rooted_trim {s : Str} (hs : PlainHost s) : trim (s ++ ['.']) = s ++ ['.'] := by
  apply trim_eq_self
  · intro c hc
    exact rooted_head hs hc
  · intro c hc
    rw [List.getLast?_concat, Option.some.injEq] at hc
    subst hc
    rfl

lemma normalizeHost_rooted {s : Str} (hs : PlainHost s) :
    normalizeHost (s ++ ['.']) = toAsciiLowercase s := by
  rw [normalizeHost_of_trim (rooted_trim hs), trimEndMatches,
    trimEndWhile_concat_of_pos s (by decide), ← trimEndMatches, hs.trimEndMatches_eq]

lemma colon_notMem_rooted {s : Str} (hs : PlainHost s) : ':' ∉ s ++ ['.'] := by
  simpa using hs.colon_notMem

/-- The stub of a rooted name keeps its dot, which no normal form has. -/
lemma not_stubListed_rooted {s : Str} (hs : PlainHost s) (allowed : Finset Str) :
    ¬ StubListed allowed (s ++ ['.']) := by
  rintro ⟨entry, -, hentry⟩
  rw [stub_eq_self (colon_notMem_rooted hs)] at hentry
  apply normalizeHost_getLast entry
  rw [hentry, toAsciiLowercase, List.map_append, List.map_singleton, List.getLast?_concat]
  rfl

lemma bracketed_getLast (s : Str) : (bracketed s).getLast? = some ']' := by
  rw [bracketed, ← List.cons_append, List.getLast?_concat]

lemma bracketed_trim (s : Str) : trim (bracketed s) = bracketed s := by
  apply trim_eq_self
  · rintro c ⟨⟩
    rfl
  · intro c hc
    rw [bracketed_getLast, Option.some.injEq] at hc
    subst hc
    rfl

lemma normalizeHost_bracketed (s : Str) :
    normalizeHost (bracketed s) = toAsciiLowercase (bracketed s) := by
  have hlast : (bracketed s).getLast? ≠ some '.' := by
    rw [bracketed_getLast]
    decide
  rw [normalizeHost_of_trim (bracketed_trim s), trimEndMatches_eq_self hlast]

section
variable {headers : HeaderMap} {allowed : Finset Str} {h : Str} {port : Option Str}

lemma not_misread (hlast : h.getLast? ≠ some '.') (hhead : h.head? ≠ some '[') :
    ¬ Misread allowed h port := by
  rintro (⟨-, hdot, -⟩ | ⟨-, hopen, -⟩ | ⟨hopen, -⟩)
  · exact hlast hdot
  · exact hhead hopen
  · exact hhead hopen

section
variable (hallowed : allowed.Nonempty) (htrimmed : ∀ entry ∈ allowed, trim entry = entry)
  (hportless : ∀ entry ∈ allowed, ¬ CarriesPort entry) (hport : ∀ digits ∈ port, IsPort digits)
include hallowed htrimmed hportless hport

lemma hostAllowed_plain (hplain : PlainHost h)
    (hheader : headers.text "host" = some (withPort h port)) :
    (hostAllowed headers allowed = true ↔ Listed allowed h) ↔ ¬ Misread allowed h port := by
  have hhead : h.head? ≠ some '[' := by
    simpa using hplain.head_ne [] (by simp)
  have hread : ¬ Misread allowed h port := not_misread hplain.last hhead
  have hnorm : normalizeHost h = toAsciiLowercase h := by
    rw [normalizeHost_of_trim hplain.trim_eq, hplain.trimEndMatches_eq]
  cases port with
  | none =>
    have hstub : stub (normalizeHost h) = normalizeHost h := by rw [hnorm, hplain.stub_lower]
    rw [hostAllowed_unbracketed hallowed htrimmed hplain.trim_eq hstub hheader]
    exact iff_of_true Iff.rfl hread
  | some port =>
    have hlisted : StubListed allowed h ↔ Listed allowed h := by
      rw [StubListed, hplain.stub_eq, listed_iff htrimmed hplain.trim_eq, hnorm]
      simp only [eq_comm]
    rw [hostAllowed_port hallowed hportless (hport port rfl) (.inl hplain.colon_notMem)
      (fun c hc => hplain.isWhitespace_eq (List.mem_of_mem_head? hc)) hheader, hlisted]
    exact iff_of_true Iff.rfl hread

lemma hostAllowed_rooted {s : Str} (hplain : PlainHost s)
    (hheader : headers.text "host" = some (withPort (s ++ ['.']) port)) :
    (hostAllowed headers allowed = true ↔ Listed allowed (s ++ ['.'])) ↔
      ¬ Misread allowed (s ++ ['.']) port := by
  have hhead : (s ++ ['.']).head? ≠ some '[' := hplain.head_ne _ (by decide)
  cases port with
  | none =>
    have hstub : stub (normalizeHost (s ++ ['.'])) = normalizeHost (s ++ ['.']) := by
      rw [normalizeHost_rooted hplain, hplain.stub_lower]
    rw [hostAllowed_unbracketed hallowed htrimmed (rooted_trim hplain) hstub hheader]
    apply iff_of_true Iff.rfl
    rintro (⟨hport, -⟩ | ⟨-, hopen, -⟩ | ⟨hopen, -⟩)
    · exact hport rfl
    · exact hhead hopen
    · exact hhead hopen
  | some port =>
    have hnot := not_stubListed_rooted hplain allowed
    rw [hostAllowed_port hallowed hportless (hport port rfl) (.inl (colon_notMem_rooted hplain))
      (fun c hc => rooted_head hplain hc) hheader]
    constructor
    · intro hiff
      rintro (⟨-, -, hlisted⟩ | ⟨-, hopen, -⟩ | ⟨hopen, -⟩)
      · exact hnot (hiff.2 hlisted)
      · exact hhead hopen
      · exact hhead hopen
    · intro hread
      apply iff_of_false hnot
      intro hlisted
      exact hread (.inl ⟨by simp, List.getLast?_concat, hlisted⟩)

lemma hostAllowed_bracketed {s : Str}
    (hheader : headers.text "host" = some (withPort (bracketed s) port)) :
    (hostAllowed headers allowed = true ↔ Listed allowed (bracketed s)) ↔
      ¬ Misread allowed (bracketed s) port := by
  cases port with
  | none =>
    have hstub : (∃ entry ∈ allowed, stub (normalizeHost (bracketed s)) = normalizeHost entry) ↔
        StubListed allowed (bracketed s) := by
      rw [normalizeHost_bracketed, stub_toAsciiLowercase, StubListed]
      simp only [eq_comm]
    rw [hostAllowed_bare hallowed htrimmed (bracketed_trim s) hheader, hstub]
    constructor
    · intro hiff
      rintro (⟨hport, -⟩ | ⟨hport, -⟩ | ⟨-, hunlisted, hcut⟩)
      · exact hport rfl
      · exact hport rfl
      · exact hunlisted (hiff.1 (.inr hcut))
    · intro hread
      apply or_iff_left_of_imp
      intro hcut
      by_contra hunlisted
      exact hread (.inr (.inr ⟨rfl, hunlisted, hcut⟩))
  | some port =>
    have hlast : (bracketed s).getLast? ≠ some '.' := by
      rw [bracketed_getLast]
      decide
    rw [hostAllowed_port hallowed hportless (hport port rfl) (.inr ⟨s, rfl⟩)
      (by rintro c ⟨⟩; rfl) hheader]
    constructor
    · intro hiff
      rintro (⟨-, hdot, -⟩ | ⟨-, -, hlisted, hcut⟩ | ⟨-, hunlisted, hcut⟩)
      · exact hlast hdot
      · exact hcut (hiff.2 hlisted)
      · exact hunlisted (hiff.1 hcut)
    · intro hread
      constructor
      · intro hcut
        by_contra hunlisted
        exact hread (.inr (.inr ⟨rfl, hunlisted, hcut⟩))
      · intro hlisted
        by_contra hcut
        exact hread (.inr (.inl ⟨by simp, rfl, hlisted, hcut⟩))

end

/-- Apart from the headers that it misreads, `host_allowed` accepts the hosts on the list. -/
theorem hostAllowed_listed_iff (hallowed : allowed.Nonempty)
    (hentries : ∀ entry ∈ allowed, trim entry = entry ∧ ¬ CarriesPort entry) (hhost : HostText h)
    (hport : ∀ digits ∈ port, IsPort digits)
    (hheader : headers.text "host" = some (withPort h port)) :
    (hostAllowed headers allowed = true ↔ Listed allowed h) ↔ ¬ Misread allowed h port := by
  have htrimmed : ∀ entry ∈ allowed, trim entry = entry := fun entry he => (hentries entry he).1
  have hportless : ∀ entry ∈ allowed, ¬ CarriesPort entry := fun entry he => (hentries entry he).2
  obtain hplain | ⟨s, hplain, rfl⟩ | ⟨s, rfl⟩ := hhost.shape
  · exact hostAllowed_plain hallowed htrimmed hportless hport hplain hheader
  · exact hostAllowed_rooted hallowed htrimmed hportless hport hplain hheader
  · exact hostAllowed_bracketed hallowed htrimmed hportless hport hheader

end

/-- The configured entries have no white space around them. -/
lemma trim_of_mem_parseCsvSet {raw entry : Str} (h : entry ∈ parseCsvSet raw) :
    trim entry = entry := by
  rw [parseCsvSet, List.mem_toFinset, List.mem_filter] at h
  obtain ⟨s, -, rfl⟩ := List.mem_map.1 h.1
  exact trim_trim s

lemma not_carriesPort {entry : Str} {c : Char} (hlast : (hostCore entry).getLast? = some c)
    (hc : isAsciiDigit c = false) : ¬ CarriesPort entry := by
  rintro ⟨h, port, -, hport, hcore⟩
  rw [hcore] at hlast
  rw [hport.getLast_digit hlast] at hc
  cases hc

def exampleHosts : Finset Str := parseCsvSet "example.com, [::1]".toList

lemma exampleHosts_entries :
    ∀ entry ∈ exampleHosts, trim entry = entry ∧ ¬ CarriesPort entry := by
  intro entry hentry
  refine ⟨trim_of_mem_parseCsvSet hentry, ?_⟩
  have hhosts : exampleHosts = {"example.com".toList, "[::1]".toList} := by decide +kernel
  rw [hhosts, Finset.mem_insert, Finset.mem_singleton] at hentry
  obtain rfl | rfl := hentry
  · exact not_carriesPort (c := 'm') (by decide +kernel) (by decide)
  · exact not_carriesPort (c := ']') (by decide +kernel) (by decide)

def hostHeader (value : String) : HeaderMap := ⟨[("host".toList, asciiBytes value)]⟩

theorem hostAllowed_listed_iff_port :
    Listed exampleHosts "Example.COM".toList ∧
      hostAllowed (hostHeader "Example.COM:9400") exampleHosts = true := by
  have hmem : "example.com".toList ∈ exampleHosts := by decide +kernel
  have hlisted : Listed exampleHosts "Example.COM".toList := ⟨_, hmem, by
    unfold SameHost
    decide +kernel⟩
  have hhost : HostText "Example.COM".toList := .name (by decide +kernel)
  have hdigits : "9400".toList.all isAsciiDigit = true := by decide +kernel
  have hport : ∀ digits ∈ some "9400".toList, IsPort digits := by
    rintro _ ⟨⟩
    exact ⟨by decide +kernel, List.all_eq_true.1 hdigits⟩
  have hheader : (hostHeader "Example.COM:9400").text "host" =
      some (withPort "Example.COM".toList (some "9400".toList)) := by decide +kernel
  have hlast : "Example.COM".toList.getLast? ≠ some '.' := by decide +kernel
  have hhead : "Example.COM".toList.head? ≠ some '[' := by decide +kernel
  refine ⟨hlisted, ?_⟩
  exact ((hostAllowed_listed_iff ⟨_, hmem⟩ exampleHosts_entries hhost hport hheader).2
    (not_misread hlast hhead)).2 hlisted

/-- A rooted name and an address in brackets that are listed are turned away once they have a
port. -/
theorem hostAllowed_misses_listed :
    exampleHosts.Nonempty ∧
    (∀ entry ∈ exampleHosts, trim entry = entry ∧ ¬ CarriesPort entry) ∧
    (HostText "example.com.".toList ∧
      ¬ (hostAllowed (hostHeader "example.com.:9400") exampleHosts = true ↔
        Listed exampleHosts "example.com.".toList)) ∧
    HostText "[::1]".toList ∧
      ¬ (hostAllowed (hostHeader "[::1]:9400") exampleHosts = true ↔
        Listed exampleHosts "[::1]".toList) := by
  have hname : Listed exampleHosts "example.com.".toList := by
    refine ⟨"example.com".toList, by decide +kernel, ?_⟩
    unfold SameHost
    decide +kernel
  have haddr : Listed exampleHosts "[::1]".toList := ⟨"[::1]".toList, by decide +kernel, rfl⟩
  have hname' : hostAllowed (hostHeader "example.com.:9400") exampleHosts = false := by
    decide +kernel
  have haddr' : hostAllowed (hostHeader "[::1]:9400") exampleHosts = false := by decide +kernel
  have hrooted : HostText ("example.com".toList ++ ['.']) := .rooted (by decide +kernel)
  have hip : parseIpAddr "::1".toList = some (.v6 1) := by decide +kernel
  have hbracketed : HostText (bracketed "::1".toList) := .v6 hip
  refine ⟨⟨_, haddr.choose_spec.1⟩, exampleHosts_entries, ⟨hrooted, ?_⟩, hbracketed, ?_⟩
  · intro hiff
    rw [hname'] at hiff
    cases hiff.2 hname
  · intro hiff
    rw [haddr'] at hiff
    cases hiff.2 haddr

end WsTcpProxy.Proofs
