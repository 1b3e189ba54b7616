import Mathlib.Tactic

/-!
# Loops over a cursor

A `while` loop whose only variable is a cursor, run turn by turn, and the rule by which it ends:
the cursor grows in every turn and stays within a bound.
-/

namespace WsTcpProxy.Library

/-- What a turn of the loop does: it ends the loop with a result, or goes on at a cursor. -/
inductive Turn (α : Type) where
  | done (a : α)
  | next (cursor : ℕ)
  deriving DecidableEq, Repr

namespace Turn
variable {ε α : Type}

/-- The loop from cursor `i` on, or `none` if it has not ended after `turns` turns. An error in a
turn ends it. -/
def loop (turn : ℕ → Except ε (Turn α)) : (turns : ℕ) → (i : ℕ) → Option (Except ε α)
  | 0, _ => none
  | turns + 1, i =>
    match turn i with
    | .error e => some (.error e)
    | .ok (.done a) => some (.ok a)
    | .ok (.next i') => loop turn turns i'

/-- Every turn that goes on has moved the cursor, and not beyond `bound`. -/
def Advances (turn : ℕ → Except ε (Turn α)) (bound : ℕ) : Prop :=
  ∀ i i', turn i = .ok (.next i') → i < i' ∧ i' ≤ bound

/-- `f` gives the results of the loop from all cursors up to `bound`. -/
def Solves (turn : ℕ → Except ε (Turn α)) (bound : ℕ) (f : ℕ → Except ε α) : Prop :=
  ∀ i ≤ bound, f i =
    match turn i with
    | .error e => .error e
    | .ok (.done a) => .ok a
    | .ok (.next i') => f i'

lemma loop_isSome {turn : ℕ → Except ε (Turn α)} {bound turns i : ℕ} (h : Advances turn bound)
    (hturns : bound - i < turns) : (loop turn turns i).isSome := by
  induction turns generalizing i with
  | zero => omega
  | succ turns ih =>
    rw [loop]
    split
    · rfl
    · rfl
    · rename_i i' hnext
      obtain ⟨hlt, hle⟩ := h i i' hnext
      exact ih (by omega)

/-- A loop that advances is given by any function that solves its equation. -/
lemma loop_eq {turn : ℕ → Except ε (Turn α)} {bound turns i : ℕ} {f : ℕ → Except ε α}
    (h : Advances turn bound) (hf : Solves turn bound f) (hi : i ≤ bound)
    (hturns : bound - i < turns) : loop turn turns i = some (f i) := by
  induction turns generalizing i with
  | zero => omega
  | succ turns ih =>
    rw [loop, hf i hi]
    split
    · rfl
    · rfl
    · rename_i i' hnext
      obtain ⟨hlt, hle⟩ := h i i' hnext
      exact ih hle (by omega)

end Turn
end WsTcpProxy.Library
