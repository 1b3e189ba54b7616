import Mathlib.Data.List.Basic
import Mathlib.Tactic.Common

/-!
# Conduits

One direction of a component that passes a stream on. A step takes in some elements, lets some
out and holds others back; as long as the component lives, nothing is lost or reordered.
-/

namespace WsTcpProxy.Library

variable {β : Type}

/-- What goes out in a step and what is held after it is what was held before it and what came
in; a component that ends may drop the rest. -/
structure Flows (held incoming outgoing held' : List β) (ended : Prop) : Prop where
  initial : outgoing <+: held ++ incoming
  kept : ¬ ended → held ++ incoming = outgoing ++ held'

variable {held incoming outgoing held' : List β} {ended : Prop}

theorem Flows.of_kept (h : held ++ incoming = outgoing ++ held') :
    Flows held incoming outgoing held' ended :=
  ⟨h ▸ List.prefix_append _ _, fun _ => h⟩

theorem Flows.of_ended (hended : ended) (h : outgoing <+: held ++ incoming) :
    Flows held incoming outgoing held' ended :=
  ⟨h, fun hn => absurd hended hn⟩

/-- Everything that has come in since the start, against everything that has gone out. -/
structure Conveyed (came went held : List β) (ended : Prop) : Prop where
  initial : went <+: came
  kept : ¬ ended → came = went ++ held

theorem Conveyed.of_kept {came went : List β} (h : came = went ++ held) :
    Conveyed came went held ended :=
  ⟨h ▸ List.prefix_append _ _, fun _ => h⟩

/-- One more step of a component that has not ended. -/
theorem Conveyed.step {came went : List β} {before : Prop} (h : Conveyed came went held before)
    (hlive : ¬ before) (hstep : Flows held incoming outgoing held' ended) :
    Conveyed (came ++ incoming) (went ++ outgoing) held' ended := by
  rw [h.kept hlive]
  constructor
  · rw [List.append_assoc]
    exact (List.prefix_append_right_inj went).2 hstep.initial
  · intro hn
    rw [List.append_assoc, hstep.kept hn, List.append_assoc]

end WsTcpProxy.Library
