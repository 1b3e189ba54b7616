import Mathlib.Tactic.Common

/-!
# Programs with answered operations

A program performs operations and goes on with the answer to each. The answers are not part of
it: a specification holds for every answer that the environment admits, and it is stated over
the history of the operations answered so far.
-/

namespace WsTcpProxy.Library

inductive Prog (Op : Type) (Ans : Op → Type) (α : Type) where
  | pure (a : α)
  | perform (op : Op) (next : Ans op → Prog Op Ans α)

namespace Prog

variable {Op : Type} {Ans : Op → Type} {α β : Type}

def bind : Prog Op Ans α → (α → Prog Op Ans β) → Prog Op Ans β
  | .pure a, f => f a
  | .perform op next, f => .perform op fun ans => (next ans).bind f

instance : Monad (Prog Op Ans) where
  pure := Prog.pure
  bind := Prog.bind

def call (op : Op) : Prog Op Ans (Ans op) := .perform op .pure

def pending : Prog Op Ans α → Option Op
  | .pure _ => none
  | .perform op _ => some op

variable (admits : (op : Op) → Ans op → Prop)

/-- `q` is what is left of `p` after the operations and answers of a history. -/
inductive Reaches (p : Prog Op Ans α) : List (Sigma Ans) → Prog Op Ans α → Prop
  | start : Reaches p [] p
  | answer {history : List (Sigma Ans)} {op : Op} {next : Ans op → Prog Op Ans α} {ans : Ans op} :
      Reaches p history (.perform op next) → admits op ans →
      Reaches p (history ++ [⟨op, ans⟩]) (next ans)

/-- After `history`, the program performs an operation only where `P` allows it and returns only
what `Q` allows, whatever the admitted answers are. -/
def Spec (P : List (Sigma Ans) → Op → Prop) (Q : List (Sigma Ans) → α → Prop) :
    List (Sigma Ans) → Prog Op Ans α → Prop
  | history, .pure a => Q history a
  | history, .perform op next =>
    P history op ∧ ∀ ans, admits op ans → Spec P Q (history ++ [⟨op, ans⟩]) (next ans)

variable {admits} {P : List (Sigma Ans) → Op → Prop} {Q : List (Sigma Ans) → α → Prop}
  {R : List (Sigma Ans) → β → Prop} {history : List (Sigma Ans)} {p q : Prog Op Ans α}

theorem Spec.bind {f : α → Prog Op Ans β} (hp : Spec admits P Q history p)
    (hf : ∀ history a, Q history a → Spec admits P R history (f a)) :
    Spec admits P R history (p >>= f) := by
  induction p generalizing history with
  | pure a => exact hf history a hp
  | perform op next ih => exact ⟨hp.1, fun ans hans => ih ans (hp.2 ans hans)⟩

theorem Spec.call {op : Op} {Q : List (Sigma Ans) → Ans op → Prop} (hop : P history op)
    (hans : ∀ ans, admits op ans → Q (history ++ [⟨op, ans⟩]) ans) :
    Spec admits P Q history (Prog.call op) :=
  ⟨hop, hans⟩

/-- What is left of a specified program is specified. -/
theorem Reaches.spec (hr : Reaches admits p history q) (hp : Spec admits P Q [] p) :
    Spec admits P Q history q := by
  induction hr with
  | start => exact hp
  | answer _ hans ih => exact ih.2 _ hans

/-- Every operation of a history was allowed when it was performed. -/
theorem Reaches.allowed (hr : Reaches admits p history q) (hp : Spec admits P Q [] p)
    {before after : List (Sigma Ans)} {op : Op} {ans : Ans op}
    (h : history = before ++ ⟨op, ans⟩ :: after) : P before op := by
  induction hr generalizing after with
  | start => simp at h
  | @answer history op' next ans' hr _ ih =>
    obtain rfl | ⟨after, last, rfl⟩ := List.eq_nil_or_concat after
    · obtain ⟨rfl, heq⟩ := List.append_inj' h rfl
      cases heq
      exact (hr.spec hp).1
    · rw [List.concat_eq_append, ← List.cons_append, ← List.append_assoc] at h
      exact ih (List.append_inj' h rfl).1

/-- The operation that a specified program waits for is allowed. -/
theorem Reaches.pending_allowed (hr : Reaches admits p history q) (hp : Spec admits P Q [] p)
    {op : Op} (h : q.pending = some op) : P history op := by
  have hq := hr.spec hp
  cases q with
  | pure a => cases h
  | perform op' next =>
    cases h
    exact hq.1

/-! ### Whole executions -/

/-- `p` performs the operations of a history with these answers, and returns `a`. -/
def Yields (admits : (op : Op) → Ans op → Prop) : Prog Op Ans α → List (Sigma Ans) → α → Prop
  | .pure b, history, a => history = [] ∧ b = a
  | .perform op next, history, a =>
    ∃ ans rest, history = ⟨op, ans⟩ :: rest ∧ admits op ans ∧ (next ans).Yields admits rest a

theorem yields_bind_iff {f : α → Prog Op Ans β} {b : β} :
    (p >>= f).Yields admits history b ↔
      ∃ before after a, history = before ++ after ∧ p.Yields admits before a ∧
        (f a).Yields admits after b := by
  change (p.bind f).Yields admits history b ↔ _
  induction p generalizing history with
  | pure a =>
    constructor
    · intro h
      exact ⟨[], history, a, rfl, ⟨rfl, rfl⟩, h⟩
    · rintro ⟨before, after, a', rfl, ⟨rfl, rfl⟩, h⟩
      exact h
  | perform op next ih =>
    constructor
    · rintro ⟨ans, rest, rfl, hans, h⟩
      obtain ⟨before, after, a, rfl, hp, hf⟩ := (ih ans).mp h
      exact ⟨⟨op, ans⟩ :: before, after, a, rfl, ⟨ans, before, rfl, hans, hp⟩, hf⟩
    · rintro ⟨before, after, a, rfl, ⟨ans, rest, rfl, hans, hp⟩, hf⟩
      exact ⟨ans, rest ++ after, rfl, hans, (ih ans).mpr ⟨rest, after, a, rfl, hp, hf⟩⟩

theorem yields_call_bind_iff {op : Op} {f : Ans op → Prog Op Ans β} {b : β} :
    (call op >>= f).Yields admits history b ↔
      ∃ ans rest, history = ⟨op, ans⟩ :: rest ∧ admits op ans ∧ (f ans).Yields admits rest b := Iff.rfl

theorem Reaches.mono {admits' : (op : Op) → Ans op → Prop}
    (hmono : ∀ op ans, admits op ans → admits' op ans) (hr : Reaches admits p history q) :
    Reaches admits' p history q := by
  induction hr with
  | start => exact .start
  | answer _ hans ih => exact ih.answer (hmono _ _ hans)

theorem Reaches.yields {rest : List (Sigma Ans)} {a : α} (hr : Reaches admits p history q)
    (hq : q.Yields admits rest a) : p.Yields admits (history ++ rest) a := by
  induction hr generalizing rest with
  | start => exact hq
  | @answer history op next ans _ hans ih =>
    rw [List.append_assoc]
    exact ih ⟨ans, rest, rfl, hans, hq⟩

theorem Reaches.performed {op : Op} {next : Ans op → Prog Op Ans α} {ans : Ans op}
    (hans : admits op ans) (hr : Reaches admits (next ans) history q) :
    Reaches admits (.perform op next) (⟨op, ans⟩ :: history) q := by
  induction hr with
  | start =>
    have hstart : Reaches admits (.perform op next) [] (.perform op next) := .start
    exact hstart.answer hans
  | answer _ hans' ih => exact .answer ih hans'

/-- The histories with which a program ends are those of its whole executions. -/
theorem reaches_pure_iff {a : α} : Reaches admits p history (.pure a) ↔ p.Yields admits history a := by
  constructor
  · intro hr
    rw [← List.append_nil history]
    exact hr.yields ⟨rfl, rfl⟩
  · intro hy
    induction p generalizing history with
    | pure b =>
      obtain ⟨rfl, rfl⟩ := hy
      exact .start
    | perform op next ih =>
      obtain ⟨ans, rest, rfl, hans, hy⟩ := hy
      exact (ih ans hy).performed hans

/-- A program whose operations can all be answered can end. -/
theorem exists_yields (hans : ∀ op, ∃ ans, admits op ans) (p : Prog Op Ans α) :
    ∃ history a, p.Yields admits history a := by
  induction p with
  | pure a => exact ⟨[], a, rfl, rfl⟩
  | perform op next ih =>
    obtain ⟨ans, hadmits⟩ := hans op
    obtain ⟨rest, a, h⟩ := ih ans
    exact ⟨⟨op, ans⟩ :: rest, a, ans, rest, rfl, hadmits, h⟩

end Prog

end WsTcpProxy.Library
