import Mathlib.Data.List.Basic
import Mathlib.Tactic.Common

/-!
# Feeding a stream in pieces

A reader collects the pieces of a stream and stops at the first piece after which a decision
on everything collected so far is reached.
-/

namespace WsTcpProxy.Library

variable {β γ : Type}

/-- What has been collected when `decision` is first reached, with the decision. -/
def feedUntil (decision : List β → Option γ) : List β → List (List β) → Option (List β × γ)
  | _, [] => none
  | acc, piece :: pieces =>
    match decision (acc ++ piece) with
    | some g => some (acc ++ piece, g)
    | none => feedUntil decision (acc ++ piece) pieces

variable {decision : List β → Option γ}

/-- Pieces without a decision are only collected. -/
theorem feedUntil_append {acc : List β} {front pieces : List (List β)}
    (h : ∀ p, p <+: front.flatten → decision (acc ++ p) = none) :
    feedUntil decision acc (front ++ pieces) = feedUntil decision (acc ++ front.flatten) pieces := by
  induction front generalizing acc with
  | nil => simp
  | cons piece front ih =>
    have hpiece : decision (acc ++ piece) = none := by
      apply h
      rw [List.flatten_cons]
      exact List.prefix_append _ _
    have hrest : ∀ p, p <+: front.flatten → decision (acc ++ piece ++ p) = none := by
      intro p hp
      rw [List.append_assoc]
      apply h
      rw [List.flatten_cons]
      exact (List.prefix_append_right_inj piece).2 hp
    rw [List.cons_append, feedUntil, hpiece, List.flatten_cons, ← List.append_assoc]
    exact ih hrest

/-- The reader stops at the end of a piece; before that piece there was no decision. -/
theorem feedUntil_some {acc : List β} {pieces : List (List β)} {buf : List β} {g : γ}
    (hacc : decision acc = none) (h : feedUntil decision acc pieces = some (buf, g)) :
    decision buf = some g ∧ buf <+: acc ++ pieces.flatten ∧
      ∃ before, ∃ piece ∈ pieces, buf = before ++ piece ∧ decision before = none := by
  induction pieces generalizing acc with
  | nil => cases h
  | cons piece pieces ih =>
    rw [feedUntil] at h
    split at h
    · rename_i g' hdec
      cases h
      refine ⟨hdec, ?_, acc, piece, List.mem_cons_self, rfl, hacc⟩
      rw [List.flatten_cons, ← List.append_assoc]
      exact List.prefix_append _ _
    · rename_i hdec
      obtain ⟨hbuf, hinit, before, last, hmem, heq, hbefore⟩ := ih hdec h
      refine ⟨hbuf, ?_, before, last, List.mem_cons_of_mem _ hmem, heq, hbefore⟩
      rw [List.flatten_cons, ← List.append_assoc]
      exact hinit

/-- A stream that ends with a decision has been decided. -/
theorem feedUntil_isSome {acc : List β} {pieces : List (List β)} (hacc : decision acc = none)
    (h : (decision (acc ++ pieces.flatten)).isSome) : (feedUntil decision acc pieces).isSome := by
  induction pieces generalizing acc with
  | nil =>
    rw [List.flatten_nil, List.append_nil, hacc] at h
    cases h
  | cons piece pieces ih =>
    rw [feedUntil]
    split
    · rfl
    · rename_i hdec
      apply ih hdec
      rw [List.append_assoc, ← List.flatten_cons]
      exact h

end WsTcpProxy.Library
