import Mathlib.Data.List.Sublists
import Mathlib.Tactic

/-!
# Sliding windows over timed queues

A bounded queue that drops expired entries from its front stands for an unbounded history.
`Tracks` says that a queue and a history agree on every window ending now or later; it is
kept by dropping expired entries, by appending at the current time, and as time passes. The
second part bounds a monotone measure of the entries in an arbitrary window by what was
checked when each entry was admitted.
-/

namespace WsTcpProxy.Library

variable {α : Type} (time : α → Nat)

/-- The entries that are at most `window` old at `now`. -/
def recent (now window : Nat) (h : List α) : List α :=
  h.filter (fun e => now - time e ≤ window)

/-- Drops expired entries from the front of a queue. -/
def expireFront (now window : Nat) (q : List α) : List α :=
  q.dropWhile (fun e => window < now - time e)

/-- The entries that lie between `start` and `start + window`. -/
def inWindow (start window : Nat) (h : List α) : List α :=
  h.filter (fun e => start ≤ time e ∧ time e ≤ start + window)

@[simp] lemma recent_append (now window : Nat) (h h' : List α) :
    recent time now window (h ++ h') = recent time now window h ++ recent time now window h' :=
  List.filter_append ..

lemma recent_singleton_self (window : Nat) (e : α) :
    recent time (time e) window [e] = [e] := by
  simp [recent]

lemma recent_expireFront {now later window : Nat} (hle : now ≤ later) (q : List α) :
    recent time later window (expireFront time now window q) = recent time later window q := by
  induction q with
  | nil => rfl
  | cons e q ih =>
    unfold expireFront at ih ⊢
    by_cases he : window < now - time e
    · have hlate : ¬ later - time e ≤ window := by omega
      simp only [List.dropWhile_cons, he, decide_true, ite_true, ih]
      simp only [recent, List.filter_cons, hlate, decide_false, Bool.false_eq_true, ite_false]
    · simp [he]

/-- In a queue sorted by time, dropping from the front drops everything that has expired. -/
lemma expireFront_eq_recent {q : List α} (hq : q.Pairwise (fun a b => time a ≤ time b))
    (now window : Nat) : expireFront time now window q = recent time now window q := by
  induction q with
  | nil => rfl
  | cons e q ih =>
    rw [List.pairwise_cons] at hq
    have hi := ih hq.2
    unfold expireFront recent at hi ⊢
    by_cases he : window < now - time e
    · have hold : ¬ now - time e ≤ window := by omega
      simp only [List.dropWhile_cons, List.filter_cons, he, hold, hi, decide_true, decide_false,
        Bool.false_eq_true, ite_true, ite_false]
    · have hall : ∀ x ∈ e :: q, now - time x ≤ window := by
        intro x hx
        rcases List.mem_cons.mp hx with rfl | hx
        · omega
        · have := hq.1 x hx
          omega
      rw [List.filter_eq_self.mpr (by simpa using hall)]
      simp [he]

/-- The queue `q` stands for the history `h` at every time from `clock` on. -/
structure Tracks (window clock : Nat) (q h : List α) : Prop where
  sorted : q.Pairwise (fun a b => time a ≤ time b)
  past : ∀ e ∈ q, time e ≤ clock
  agree : ∀ now, clock ≤ now → recent time now window q = recent time now window h

namespace Tracks

variable {time} {window clock now : Nat} {q h : List α}

lemma nil : Tracks time window clock [] [] :=
  ⟨List.Pairwise.nil, by simp, fun _ _ => rfl⟩

lemma later (ht : Tracks time window clock q h) (hle : clock ≤ now) :
    Tracks time window now q h :=
  ⟨ht.sorted, fun e he => (ht.past e he).trans hle, fun t hn => ht.agree t (hle.trans hn)⟩

/-- After dropping expired entries the queue is exactly the recent history. -/
lemma expire_eq (ht : Tracks time window clock q h) (hle : clock ≤ now) :
    expireFront time now window q = recent time now window h := by
  rw [expireFront_eq_recent time ht.sorted, ht.agree now hle]

lemma expire (ht : Tracks time window clock q h) (hle : clock ≤ now) :
    Tracks time window now (expireFront time now window q) h := by
  have hsub : (expireFront time now window q).Sublist q := List.dropWhile_sublist _
  refine ⟨ht.sorted.sublist hsub, ?_, ?_⟩
  · intro e he
    exact (ht.past e (hsub.subset he)).trans hle
  · intro t hn
    rw [recent_expireFront time hn, ht.agree t (hle.trans hn)]

lemma push (ht : Tracks time window clock q h) {e : α} (he : time e = clock) :
    Tracks time window clock (q ++ [e]) (h ++ [e]) := by
  refine ⟨?_, ?_, ?_⟩
  · rw [List.pairwise_append]
    refine ⟨ht.sorted, List.pairwise_singleton _ _, ?_⟩
    intro a ha b hb
    rw [List.mem_singleton.mp hb, he]
    exact ht.past a ha
  · intro x hx
    rcases List.mem_append.mp hx with hx | hx
    · exact ht.past x hx
    · exact (List.mem_singleton.mp hx ▸ he).le
  · intro t hn
    rw [recent_append, recent_append, ht.agree t hn]

end Tracks

/-- Every entry was admitted while the measure of the window ending at it, the entry
included, stayed within `cap`. -/
def Admitted (window : Nat) (μ : List α → Nat) (cap : Nat) (h : List α) : Prop :=
  ∀ pre e, pre ++ [e] <+: h → μ (recent time (time e) window (pre ++ [e])) ≤ cap

namespace Admitted

variable {time} {window cap : Nat} {μ : List α → Nat} {h : List α}

lemma nil : Admitted time window μ cap [] := by
  intro pre e hp
  simp at hp

lemma concat (hadm : Admitted time window μ cap h) {e : α}
    (hcap : μ (recent time (time e) window (h ++ [e])) ≤ cap) :
    Admitted time window μ cap (h ++ [e]) := by
  intro pre x hp
  rcases List.prefix_concat_iff.mp hp with heq | hp
  · have hinj := List.append_inj' heq rfl
    obtain ⟨rfl, hx⟩ := hinj
    rw [List.cons.injEq] at hx
    rw [hx.1]
    exact hcap
  · exact hadm pre x hp

lemma of_concat {e : α} (hadm : Admitted time window μ cap (h ++ [e])) :
    Admitted time window μ cap h :=
  fun pre x hp => hadm pre x (hp.trans (List.prefix_append _ _))

/-- The last entry inside an arbitrary window bounds that window: the others are no older
than the window when it was admitted. -/
theorem inWindow_le (hadm : Admitted time window μ cap h) (hnil : μ [] ≤ cap)
    (hmono : ∀ l l' : List α, l.Sublist l' → μ l ≤ μ l') (start : Nat) :
    μ (inWindow time start window h) ≤ cap := by
  induction h using List.reverseRecOn with
  | nil => simpa [inWindow] using hnil
  | append_singleton h e ih =>
    by_cases he : start ≤ time e ∧ time e ≤ start + window
    · have hsub : (inWindow time start window (h ++ [e])).Sublist
          (recent time (time e) window (h ++ [e])) := by
        apply List.monotone_filter_right
        intro x hx
        simp only [decide_eq_true_eq] at hx ⊢
        omega
      exact (hmono _ _ hsub).trans (hadm h e (List.prefix_refl _))
    · have hdrop : inWindow time start window (h ++ [e]) = inWindow time start window h := by
        unfold inWindow
        rw [List.filter_append]
        simp [he]
      rw [hdrop]
      exact ih hadm.of_concat

end Admitted

/-- Entries no later than `now` that are recent at `now` lie in the window ending there. -/
lemma recent_sublist_inWindow {now window : Nat} {h : List α} (hpast : ∀ e ∈ h, time e ≤ now) :
    (recent time now window h).Sublist (inWindow time (now - window) window h) := by
  unfold recent inWindow
  refine (List.filter_congr fun e he => ?_) ▸ List.Sublist.refl _
  have hle := hpast e he
  rw [decide_eq_decide]
  omega

end WsTcpProxy.Library
