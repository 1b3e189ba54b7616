import WsTcpProxy.Proofs.TlsFragmentation

/-!
# The greeting probe and TCP segmentation

`probe_greeting` stops at the first read that contains a newline or fills 512 bytes, but looks
for the greeting behind leading blank lines, so a later read can still matter.
-/

namespace WsTcpProxy.Proofs
open Library

/-- The length of the shortest prefix on which `greeting_complete` holds. -/
def firstStop (u : Bytes) : Option Nat :=
  (List.range (u.length + 1)).find? fun n => greetingComplete (u.take n)

/-- Where the opening of the greeting ends: `* ` for IMAP, `220 ` or `220-` for SMTP, behind the
leading blanks. -/
def openingEnd (kind : ProbeKind) (u : Bytes) : Option Nat :=
  let blanks := (u.takeWhile isGreetingBlank).length
  let line := u.dropWhile isGreetingBlank
  match kind with
  | .imapGreeting => if (asciiBytes "* ").isPrefixOf line then some (blanks + 2) else none
  | .smtpGreeting =>
    if (asciiBytes "220 ").isPrefixOf line || (asciiBytes "220-").isPrefixOf line then
      some (blanks + 4)
    else none
  | .tlsSni => none

/-- The reads of a stream: non-empty and no longer than the read buffer. -/
def Segmentation (u : Bytes) (reads : List Bytes) : Prop :=
  reads.flatten = u ∧ ∀ read ∈ reads, 1 ≤ read.length ∧ read.length ≤ greetingBufferSize

/-- The greeting probe accepts the same way however the stream is cut into reads. -/
def GreetingVerdictStable (kind : ProbeKind) (u : Bytes) : Prop :=
  ∀ reads₁ reads₂, Segmentation u reads₁ → Segmentation u reads₂ →
    ((∃ greet, probeGreeting kind [] reads₁ = some (.ok greet)) ↔
      ∃ greet, probeGreeting kind [] reads₂ = some (.ok greet))

/-! ### Completion -/

lemma greetingComplete_mono {p u : Bytes} (hp : p <+: u) (h : greetingComplete p) :
    greetingComplete u := by
  obtain ⟨e, rfl⟩ := hp
  simp only [greetingComplete, Bool.or_eq_true, List.contains_iff_mem, decide_eq_true_eq] at h ⊢
  rw [List.mem_append, List.length_append]
  obtain h | h := h
  · exact .inl (.inl h)
  · exact .inr (by omega)

lemma firstStop_some {u : Bytes} {m : Nat} (h : firstStop u = some m) :
    m ≤ u.length ∧ greetingComplete (u.take m) ∧
      ∀ p, p <+: u → (greetingComplete p ↔ m ≤ p.length) := by
  obtain ⟨hm, hcomplete, hbefore⟩ := List.find?_range_eq_some.1 h
  have hlen : m ≤ u.length := by
    have := List.mem_range.1 hcomplete
    omega
  refine ⟨hlen, hm, ?_⟩
  intro p hp
  have htake : p = u.take p.length := List.prefix_iff_eq_take.1 hp
  constructor
  · intro hc
    by_contra hlt
    have hnot := hbefore p.length (by omega)
    rw [← htake] at hnot
    simp [hc] at hnot
  · intro hle
    apply greetingComplete_mono _ hm
    rw [htake, List.prefix_take_iff]
    exact ⟨List.take_prefix _ _, by rw [List.length_take]; omega⟩

lemma firstStop_exists {u : Bytes} (h : greetingComplete u) : ∃ m, firstStop u = some m := by
  apply Option.isSome_iff_exists.1
  rw [firstStop, List.find?_isSome]
  exact ⟨u.length, by simp, by simpa using h⟩

/-! ### Validation of prefixes -/

lemma dropWhile_take (p : UInt8 → Bool) (u : Bytes) (n : Nat) :
    (u.take n).dropWhile p = (u.dropWhile p).take (n - (u.takeWhile p).length) := by
  induction u generalizing n with
  | nil => simp
  | cons b u ih =>
    cases n with
    | zero => simp
    | succ n =>
      rw [List.take_succ_cons]
      cases hb : p b with
      | false => simp [hb]
      | true => simp [hb, ih, Nat.add_sub_add_right]

lemma isPrefixOf_take {pat : Bytes} (line : Bytes) (k : Nat) :
    pat.isPrefixOf (line.take k) = (pat.isPrefixOf line && pat.length ≤ k) := by
  rw [Bool.eq_iff_iff, Bool.and_eq_true, List.isPrefixOf_iff_prefix, List.isPrefixOf_iff_prefix,
    List.prefix_take_iff, decide_eq_true_eq]

/-- A greeting that starts with one of `pats` behind its blanks; the patterns are not empty. -/
lemma validateGreeting_iff (kind : ProbeKind) (buf : Bytes) :
    validateGreeting buf kind = .ok () ↔
      match kind with
      | .imapGreeting => (asciiBytes "* ").isPrefixOf (buf.dropWhile isGreetingBlank)
      | .smtpGreeting => (asciiBytes "220 ").isPrefixOf (buf.dropWhile isGreetingBlank) ∨
          (asciiBytes "220-").isPrefixOf (buf.dropWhile isGreetingBlank)
      | .tlsSni => False := by
  unfold validateGreeting
  cases hline : buf.dropWhile isGreetingBlank with
  | nil => cases kind <;> simp [asciiBytes]
  | cons b line =>
    cases kind with
    | imapGreeting => simp
    | smtpGreeting =>
      simp only [List.isEmpty_cons, Bool.false_eq_true, if_false, Bool.or_eq_true]
      split <;> simp_all
    | tlsSni => simp

/-- A prefix of a stream is a good greeting from the end of the opening on. -/
lemma validateGreeting_take (kind : ProbeKind) (u : Bytes) (n : Nat) :
    validateGreeting (u.take n) kind = .ok () ↔ ∃ e, openingEnd kind u = some e ∧ e ≤ n := by
  have hlen2 : (asciiBytes "* ").length = 2 := rfl
  have hlen4 : (asciiBytes "220 ").length = 4 := rfl
  have hlen4' : (asciiBytes "220-").length = 4 := rfl
  have hpos : ∀ k l : Nat, 0 < l → (l ≤ n - k ↔ k + l ≤ n) := by omega
  rw [validateGreeting_iff, dropWhile_take, openingEnd.eq_def]
  cases kind with
  | imapGreeting =>
    simp only [isPrefixOf_take, hlen2, Bool.and_eq_true, decide_eq_true_eq, hpos _ 2 (by omega)]
    split <;> simp_all
  | smtpGreeting =>
    simp only [isPrefixOf_take, hlen4, hlen4', Bool.and_eq_true, decide_eq_true_eq,
      hpos _ 4 (by omega), ← or_and_right, Bool.or_eq_true]
    split <;> simp_all
  | tlsSni => simp

/-! ### Verdicts -/

def greetingDecision (kind : ProbeKind) (greet : Bytes) : Option Bool :=
  ProbeStep.decision (greetingProbeStep kind greet)

lemma isOk_iff {ε : Type} (e : Except ε Unit) : e.isOk ↔ e = .ok () := by
  cases e with
  | ok a => simp [Except.isOk, Except.toBool]
  | error e => simp [Except.isOk, Except.toBool]

lemma greetingDecision_eq (kind : ProbeKind) (greet : Bytes) :
    greetingDecision kind greet =
      if greetingComplete greet then some (validateGreeting greet kind).isOk else none := by
  have hmax : (greetingComplete greet || decide (maxGreetingBytes ≤ greet.length)) =
      greetingComplete greet := by
    cases hc : greetingComplete greet with
    | true => rfl
    | false =>
      simp only [greetingComplete, Bool.or_eq_false_iff] at hc
      exact hc.2
  rw [greetingDecision, greetingProbeStep, hmax]
  cases greetingComplete greet with
  | false => rfl
  | true =>
    cases validateGreeting greet kind with
    | ok a => rfl
    | error e => rfl

lemma probeGreeting_eq (kind : ProbeKind) (greet : Bytes) {reads : List Bytes}
    (h : ∀ read ∈ reads, 1 ≤ read.length) :
    probeGreeting kind greet reads =
      (feedUntil (greetingDecision kind) greet reads).map probeResult := by
  induction reads generalizing greet with
  | nil => rfl
  | cons read reads ih =>
    have hrest : ∀ read ∈ reads, 1 ≤ read.length := fun r hr => h r (List.mem_cons_of_mem _ hr)
    cases read with
    | nil => exact absurd (h [] List.mem_cons_self) (by simp)
    | cons b read =>
      rw [probeGreeting, feedUntil, greetingDecision]
      cases greetingProbeStep kind (greet ++ b :: read) with
      | more => exact ih _ hrest
      | accepted => rfl
      | rejected => rfl
      simp

lemma greetingDecision_nil (kind : ProbeKind) : greetingDecision kind [] = none := rfl

/-- Every verdict falls on a prefix that ends within one read of the first stop. -/
lemma greetingVerdict_initial {kind : ProbeKind} {u : Bytes} {reads : List Bytes}
    (hseg : Segmentation u reads) {v : Except RejectReason Bytes}
    (h : probeGreeting kind [] reads = some v) :
    ∃ m n, firstStop u = some m ∧ m ≤ n ∧ n ≤ m + 255 ∧
      (v.isOk ↔ validateGreeting (u.take n) kind = .ok ()) := by
  obtain ⟨hflat, hsize⟩ := hseg
  rw [probeGreeting_eq kind [] fun r hr => (hsize r hr).1, Option.map_eq_some_iff] at h
  obtain ⟨⟨buf, accepted⟩, hfeed, rfl⟩ := h
  obtain ⟨hdec, hinit, before, piece, hmem, rfl, hbefore⟩ :=
    feedUntil_some (greetingDecision_nil kind) hfeed
  rw [List.nil_append, hflat] at hinit
  rw [greetingDecision_eq] at hdec hbefore
  split at hdec
  · rename_i hcomplete
    obtain ⟨m, hm⟩ := firstStop_exists (greetingComplete_mono hinit hcomplete)
    obtain ⟨hle, -, hstop⟩ := firstStop_some hm
    have hbuf := (hstop _ hinit).1 hcomplete
    have hshort : before.length < m := by
      by_contra hge
      rw [if_pos ((hstop before ((List.prefix_append _ _).trans hinit)).2 (by omega))] at hbefore
      cases hbefore
    have hpiece : piece.length ≤ 256 := (hsize piece hmem).2
    have hlen : (before ++ piece).length = before.length + piece.length := List.length_append
    refine ⟨m, (before ++ piece).length, hm, hbuf, by omega, ?_⟩
    rw [← List.prefix_iff_eq_take.1 hinit, isOk_probeResult]
    rw [← isOk_iff, Option.some.inj hdec]
  · cases hdec

lemma segmentation_singletons (u : Bytes) : Segmentation u (u.map fun b => [b]) := by
  refine ⟨by induction u <;> simp_all, ?_⟩
  intro read hread
  obtain ⟨b, -, rfl⟩ := List.mem_map.1 hread
  exact ⟨Nat.le_refl 1, show 1 ≤ greetingBufferSize by decide⟩

lemma Segmentation.append {u w : Bytes} {reads reads' : List Bytes} (h : Segmentation u reads)
    (h' : Segmentation w reads') : Segmentation (u ++ w) (reads ++ reads') := by
  refine ⟨by rw [List.flatten_append, h.1, h'.1], ?_⟩
  intro read hread
  obtain hread | hread := List.mem_append.1 hread
  · exact h.2 read hread
  · exact h'.2 read hread

/-- Each prefix that ends within one read of the first stop decides some segmentation. -/
lemma exists_segmentation (kind : ProbeKind) {u : Bytes} {m n : Nat} (hm : firstStop u = some m)
    (hmn : m ≤ n) (hn : n ≤ m + 255) (hlen : n ≤ u.length) :
    ∃ reads, Segmentation u reads ∧
      probeGreeting kind [] reads =
        some (probeResult (u.take n, (validateGreeting (u.take n) kind).isOk)) := by
  obtain ⟨-, hcomplete, hstop⟩ := firstStop_some hm
  have hpos : 0 < m := by
    by_contra h0
    have : greetingComplete [] := by simpa [show m = 0 by omega] using hcomplete
    cases this
  have hfront : Segmentation (u.take (m - 1)) ((u.take (m - 1)).map fun b => [b]) :=
    segmentation_singletons _
  have hpiece : Segmentation ((u.take n).drop (m - 1)) [(u.take n).drop (m - 1)] := by
    refine ⟨by simp, ?_⟩
    intro read hread
    rw [List.mem_singleton.1 hread, List.length_drop, List.length_take]
    change 1 ≤ _ ∧ _ ≤ 256
    omega
  have hcollect : u.take (m - 1) ++ (u.take n).drop (m - 1) = u.take n := by
    have h := List.take_append_drop (m - 1) (u.take n)
    rwa [List.take_take, Nat.min_eq_left (by omega)] at h
  have hseg := (hfront.append hpiece).append (segmentation_singletons (u.drop n))
  rw [hcollect, List.take_append_drop] at hseg
  refine ⟨_, hseg, ?_⟩
  have hnone : ∀ p, p <+: ((u.take (m - 1)).map fun b => [b]).flatten →
      greetingDecision kind ([] ++ p) = none := by
    intro p hp
    rw [hfront.1] at hp
    have hplen := hp.length_le
    rw [List.length_take] at hplen
    have hpu : p <+: u := hp.trans ( List.take_prefix _ _)
    rw [List.nil_append, greetingDecision_eq, if_neg]
    rw [hstop p hpu]
    omega
  have hdec : greetingDecision kind (u.take n) = some (validateGreeting (u.take n) kind).isOk := by
    rw [greetingDecision_eq, if_pos]
    rw [hstop _ ( List.take_prefix _ _), List.length_take]
    omega
  rw [probeGreeting_eq kind [] fun r hr => (hseg.2 r hr).1, List.append_assoc,
    feedUntil_append hnone, hfront.1, List.nil_append, List.singleton_append, feedUntil, hcollect,
    hdec]
  rfl

lemma greeting_accepts_iff {kind : ProbeKind} {reads : List Bytes} :
    (∃ greet, probeGreeting kind [] reads = some (.ok greet)) ↔
      ∃ v, probeGreeting kind [] reads = some v ∧ v.isOk := by
  constructor
  · rintro ⟨greet, h⟩
    exact ⟨_, h, rfl⟩
  · rintro ⟨v, h, hok⟩
    cases v with
    | ok greet => exact ⟨greet, h⟩
    | error e => cases hok

lemma openingEnd_le {kind : ProbeKind} {u : Bytes} {e : Nat} (h : openingEnd kind u = some e) :
    e ≤ u.length := by
  have hlen : (u.takeWhile isGreetingBlank).length + (u.dropWhile isGreetingBlank).length =
      u.length := by
    rw [← List.length_append, List.takeWhile_append_dropWhile]
  have hpat : ∀ pat : Bytes, pat.isPrefixOf (u.dropWhile isGreetingBlank) →
      pat.length ≤ (u.dropWhile isGreetingBlank).length := by
    intro pat hp
    exact (List.isPrefixOf_iff_prefix.1 hp).length_le
  rw [openingEnd.eq_def] at h
  cases kind with
  | imapGreeting =>
    dsimp only at h
    split at h
    · rename_i hp
      have h2 : 2 ≤ (u.dropWhile isGreetingBlank).length := hpat _ hp
      cases h
      omega
    · cases h
  | smtpGreeting =>
    dsimp only at h
    split at h
    · rename_i hp
      have h4 : 4 ≤ (u.dropWhile isGreetingBlank).length := by
        obtain hp | hp := Bool.or_eq_true_iff.1 hp
        · exact hpat _ hp
        · exact hpat _ hp
      cases h
      omega
    · cases h
  | tlsSni => cases h

/-- If one segmentation is accepted and the opening does not straddle the first stop, every
segmentation is. -/
lemma greeting_accepts_every {kind : ProbeKind} {u : Bytes} {reads₁ reads₂ : List Bytes}
    (hcond : ∀ m e, firstStop u = some m → openingEnd kind u = some e → ¬ (m < e ∧ e ≤ m + 255))
    (h₁ : Segmentation u reads₁) (h₂ : Segmentation u reads₂)
    (hacc : ∃ greet, probeGreeting kind [] reads₁ = some (.ok greet)) :
    ∃ greet, probeGreeting kind [] reads₂ = some (.ok greet) := by
  rw [greeting_accepts_iff] at hacc ⊢
  obtain ⟨v, hv, hok⟩ := hacc
  obtain ⟨m, n, hm, hmn, hn, hval⟩ := greetingVerdict_initial h₁ hv
  obtain ⟨e, he, hen⟩ := (validateGreeting_take kind u n).1 (hval.1 hok)
  have hem : e ≤ m := by
    by_contra hlt
    exact hcond m e hm he ⟨by omega, by omega⟩
  obtain ⟨hlen, hcomplete, -⟩ := firstStop_some hm
  have hend : (greetingDecision kind ([] ++ reads₂.flatten)).isSome := by
    rw [List.nil_append, h₂.1, greetingDecision_eq,
      if_pos (greetingComplete_mono ( List.take_prefix m u) hcomplete)]
    rfl
  obtain ⟨r, hr⟩ := Option.isSome_iff_exists.1
    (feedUntil_isSome (greetingDecision_nil kind) hend)
  have hv₂ : probeGreeting kind [] reads₂ = some (probeResult r) := by
    rw [probeGreeting_eq kind [] fun read hread => (h₂.2 read hread).1, hr]
    rfl
  obtain ⟨m', n', hm', hmn', -, hval'⟩ := greetingVerdict_initial h₂ hv₂
  rw [hm] at hm'
  cases hm'
  exact ⟨_, hv₂, hval'.2 ((validateGreeting_take kind u n').2 ⟨e, he, by omega⟩)⟩

lemma not_stable_of_straddle {kind : ProbeKind} {u : Bytes} {m e : Nat}
    (hm : firstStop u = some m) (he : openingEnd kind u = some e) (hlt : m < e)
    (hle : e ≤ m + 255) : ¬ GreetingVerdictStable kind u := by
  intro hstable
  have hlen := openingEnd_le he
  obtain ⟨reads₁, hseg₁, hv₁⟩ := exists_segmentation kind hm (Nat.le_refl m) (by omega) (by omega)
  obtain ⟨reads₂, hseg₂, hv₂⟩ := exists_segmentation kind hm hlt.le hle hlen
  have hacc : ∃ greet, probeGreeting kind [] reads₂ = some (.ok greet) := by
    rw [greeting_accepts_iff]
    refine ⟨_, hv₂, ?_⟩
    rw [isOk_probeResult, isOk_iff, validateGreeting_take]
    exact ⟨e, he, Nat.le_refl e⟩
  obtain ⟨greet, hgreet⟩ := (hstable reads₂ reads₁ hseg₂ hseg₁).1 hacc
  have hok : (probeResult (u.take m, (validateGreeting (u.take m) kind).isOk)).isOk := by
    rw [hv₁] at hgreet
    rw [Option.some.inj hgreet]
    rfl
  rw [isOk_probeResult, isOk_iff, validateGreeting_take] at hok
  obtain ⟨e', he', hem⟩ := hok
  rw [he] at he'
  cases he'
  omega

/-- The greeting probe's verdict depends on segmentation exactly when the opening of the greeting
ends after the first stop and within the 255 bytes that one read can add to it. -/
theorem greeting_verdict_stable_iff (kind : ProbeKind) (u : Bytes) :
    GreetingVerdictStable kind u ↔
      ∀ m e, firstStop u = some m → openingEnd kind u = some e → ¬ (m < e ∧ e ≤ m + 255) := by
  constructor
  · intro hstable m e hm he hstraddle
    exact not_stable_of_straddle hm he hstraddle.1 hstraddle.2 hstable
  · intro hcond reads₁ reads₂ h₁ h₂
    exact ⟨greeting_accepts_every hcond h₁ h₂, greeting_accepts_every hcond h₂ h₁⟩

/-- A blank line in a segment of its own hides an IMAP greeting. -/
theorem greeting_verdict_depends_on_segments :
    ¬ GreetingVerdictStable .imapGreeting (asciiBytes "\r\n* OK\r\n") :=
  not_stable_of_straddle (m := 2) (e := 4) (by decide) (by decide) (by decide) (by decide)

end WsTcpProxy.Proofs
