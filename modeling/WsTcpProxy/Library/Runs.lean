import Mathlib.Tactic.Common

/-!
# Runs of a partial step function

A component is given by a partial step function `σ → ι → Option (ο × σ)`: an input that the
current state does not admit has no step. A run records every input with the output it
produced, and a property of runs is proved by preserving it along one more step.
-/

namespace WsTcpProxy.Library

variable {σ ι ο : Type}

/-- Finite runs from `start`, with the inputs and outputs so far and the state reached. -/
inductive Runs (step : σ → ι → Option (ο × σ)) (start : σ) : List (ι × ο) → σ → Prop
  | nil : Runs step start [] start
  | snoc {trace : List (ι × ο)} {s s' : σ} {i : ι} {o : ο} :
      Runs step start trace s → step s i = some (o, s') → Runs step start (trace ++ [(i, o)]) s'

variable {step : σ → ι → Option (ο × σ)} {start : σ}

/-- A property of traces and states that holds initially and survives every step taken from
a reachable state holds after every run. -/
theorem Runs.reachable_invariant {P : List (ι × ο) → σ → Prop} (h0 : P [] start)
    (hstep : ∀ trace s i o s', Runs step start trace s → P trace s → step s i = some (o, s') →
      P (trace ++ [(i, o)]) s')
    {trace : List (ι × ο)} {s : σ} (h : Runs step start trace s) : P trace s := by
  induction h with
  | nil => exact h0
  | snoc hr hs ih => exact hstep _ _ _ _ _ hr ih hs

theorem Runs.invariant {P : List (ι × ο) → σ → Prop} (h0 : P [] start)
    (hstep : ∀ trace s i o s', P trace s → step s i = some (o, s') → P (trace ++ [(i, o)]) s')
    {trace : List (ι × ο)} {s : σ} (h : Runs step start trace s) : P trace s :=
  h.reachable_invariant h0 fun trace s i o s' _ => hstep trace s i o s'

theorem Runs.state_invariant {P : σ → Prop} (h0 : P start)
    (hstep : ∀ s i o s', P s → step s i = some (o, s') → P s')
    {trace : List (ι × ο)} {s : σ} (h : Runs step start trace s) : P s :=
  h.invariant (P := fun _ => P) h0 (fun _ s i o s' hs he => hstep s i o s' hs he)

/-- A run can be extended at its end by any run from the state it reached. -/
theorem Runs.append {trace trace' : List (ι × ο)} {s s' : σ} (h : Runs step start trace s)
    (h' : Runs step s trace' s') : Runs step start (trace ++ trace') s' := by
  induction h' with
  | nil => simpa using h
  | snoc _ hs ih =>
    rw [← List.append_assoc]
    exact ih.snoc hs

theorem Runs.first {full : List (ι × ο)} {s : σ} (h : Runs step start full s) :
    (full = [] ∧ s = start) ∨ ∃ i o trace next, full = (i, o) :: trace ∧
      step start i = some (o, next) ∧ Runs step next trace s := by
  induction h with
  | nil => exact .inl ⟨rfl, rfl⟩
  | snoc hr hs ih =>
    obtain ⟨rfl, rfl⟩ | ⟨i, o, trace, next, rfl, hfirst, hrest⟩ := ih
    · exact .inr ⟨_, _, [], _, rfl, hs, .nil⟩
    · exact .inr ⟨i, o, trace ++ [_], next, rfl, hfirst, hrest.snoc hs⟩

/-- A run that takes a step first is a run from the state that this step leads to. -/
theorem Runs.cons_iff {trace : List (ι × ο)} {s : σ} {i : ι} {o : ο} :
    Runs step start ((i, o) :: trace) s ↔ ∃ next, step start i = some (o, next) ∧ Runs step next trace s := by
  constructor
  · intro h
    obtain ⟨hnil, -⟩ | ⟨_, _, _, next, hcons, hs, hrest⟩ := h.first
    · cases hnil
    · cases hcons
      exact ⟨next, hs, hrest⟩
  · rintro ⟨next, hs, hrun⟩
    exact (Runs.nil.snoc hs).append hrun

/-- A component whose steps are each matched by at most one step of another one, along a relation
between their states, matches every run by a run. -/
theorem Runs.simulated {τ κ ρ : Type} {step' : τ → κ → Option (ρ × τ)} {start' : τ}
    {R : σ → τ → Prop} (h0 : R start start')
    (hstep : ∀ s i o s' t, R s t → step s i = some (o, s') →
      R s' t ∨ ∃ k r t', step' t k = some (r, t') ∧ R s' t')
    {trace : List (ι × ο)} {s : σ} (h : Runs step start trace s) :
    ∃ trace' t, Runs step' start' trace' t ∧ R s t := by
  induction h with
  | nil => exact ⟨[], start', .nil, h0⟩
  | snoc _ hs ih =>
    obtain ⟨trace', t, hrun, hR⟩ := ih
    rcases hstep _ _ _ _ t hR hs with hsame | ⟨k, r, t', hs', hnext⟩
    · exact ⟨trace', t, hrun, hsame⟩
    · exact ⟨_, t', hrun.snoc hs', hnext⟩

/-- A step of one component seen as a step of another one, or as none of its steps. -/
def Viewed {τ κ ρ : Type} (step' : τ → κ → Option (ρ × τ)) (t : τ) : Option (κ × ρ) → τ → Prop
  | none, t' => t' = t
  | some (k, r), t' => step' t k = some (r, t')

/-- A component whose steps are viewed as steps of another one, along an abstraction of its states
and of what its steps record, has runs that are viewed as runs. -/
theorem Runs.viewed {τ κ ρ : Type} {step' : τ → κ → Option (ρ × τ)} (abs : σ → τ)
    (view : ι × ο → Option (κ × ρ))
    (hstep : ∀ trace s i o s', Runs step start trace s → step s i = some (o, s') →
      Viewed step' (abs s) (view (i, o)) (abs s'))
    {trace : List (ι × ο)} {s : σ} (h : Runs step start trace s) :
    Runs step' (abs start) (trace.filterMap view) (abs s) := by
  induction h with
  | nil => exact .nil
  | @snoc trace s s' i o hr hs ih =>
    have hview := hstep trace s i o s' hr hs
    rw [List.filterMap_append]
    cases hv : view (i, o) with
    | none =>
      rw [hv] at hview
      rw [List.filterMap_cons_none hv, List.filterMap_nil, List.append_nil, show abs s' = abs s from hview]
      exact ih
    | some e =>
      rw [hv] at hview
      rw [List.filterMap_cons_some hv, List.filterMap_nil]
      exact ih.snoc hview

/-- A component that matches the kept steps of another one with the same records, along a relation
between their states, has a run on what is kept of every run. -/
theorem Runs.thinned {τ : Type} {step' : τ → ι → Option (ο × τ)} {start' : τ} (keep : ι × ο → Bool)
    {R : σ → τ → Prop} (h0 : R start start')
    (hstep : ∀ trace s i o s' t, Runs step start trace s → Runs step' start' (trace.filter keep) t →
      R s t → step s i = some (o, s') →
      if keep (i, o) then ∃ t', step' t i = some (o, t') ∧ R s' t' else R s' t)
    {trace : List (ι × ο)} {s : σ} (h : Runs step start trace s) :
    ∃ t, Runs step' start' (trace.filter keep) t ∧ R s t := by
  induction h with
  | nil => exact ⟨start', .nil, h0⟩
  | @snoc trace s s' i o hr hs ih =>
    obtain ⟨t, hrun, hR⟩ := ih
    have hnext := hstep trace s i o s' t hr hrun hR hs
    rw [List.filter_append]
    by_cases hkeep : keep (i, o) = true
    · rw [if_pos hkeep] at hnext
      obtain ⟨t', hs', hR'⟩ := hnext
      rw [List.filter_cons_of_pos hkeep, List.filter_nil]
      exact ⟨t', hrun.snoc hs', hR'⟩
    · rw [if_neg hkeep] at hnext
      rw [List.filter_cons_of_neg hkeep, List.filter_nil, List.append_nil]
      exact ⟨t, hrun, hnext⟩

def runInputs (step : σ → ι → Option (ο × σ)) (s : σ) : List ι → Option (List (ι × ο) × σ)
  | [] => some ([], s)
  | i :: inputs =>
    match step s i with
    | none => none
    | some (o, s') => (runInputs step s' inputs).map fun r => ((i, o) :: r.1, r.2)

theorem Runs.of_inputs (inputs : List ι) {trace : List (ι × ο)} {s : σ}
    (h : runInputs step start inputs = some (trace, s)) : Runs step start trace s := by
  induction inputs generalizing start trace with
  | nil =>
    cases h
    exact .nil
  | cons i inputs ih =>
    rw [runInputs] at h
    split at h
    · cases h
    · rename_i o s' hstep
      obtain ⟨⟨rest, last⟩, hrest, heq⟩ := Option.map_eq_some_iff.1 h
      cases heq
      exact (Runs.nil.snoc hstep).append (ih hrest)

def guarded (allowed : σ → ι → Bool) (step : σ → ι → Option (ο × σ)) (s : σ) (i : ι) :
    Option (ο × σ) :=
  if allowed s i then step s i else none

theorem guarded_some {allowed : σ → ι → Bool} {s s' : σ} {i : ι} {o : ο}
    (h : guarded allowed step s i = some (o, s')) :
    allowed s i = true ∧ step s i = some (o, s') := by
  unfold guarded at h
  split at h
  · exact ⟨‹_›, h⟩
  · cases h

theorem Runs.unguarded {allowed : σ → ι → Bool} {trace : List (ι × ο)} {s : σ}
    (h : Runs (guarded allowed step) start trace s) : Runs step start trace s := by
  induction h with
  | nil => exact .nil
  | snoc _ hs ih => exact ih.snoc (guarded_some hs).2

/-! ### Termination -/

def Leads (step : σ → ι → Option (ο × σ)) (s' s : σ) : Prop := ∃ i o, step s i = some (o, s')

/-- Where the steps are well-founded, no run goes on forever. -/
theorem Acc.no_infinite_run (h : Acc (Leads step) start) :
    ¬ ∃ run : Nat → σ, run 0 = start ∧ ∀ n, Leads step (run (n + 1)) (run n) := by
  induction h with
  | intro s _ ih =>
    rintro ⟨run, rfl, hrun⟩
    exact ih _ (hrun 0) ⟨fun n => run (n + 1), rfl, fun n => hrun (n + 1)⟩

/-- Where the steps are well-founded, there is a run to a state without a step. -/
theorem Acc.exists_last (h : Acc (Leads step) start) :
    ∃ trace s, Runs step start trace s ∧ ∀ i, step s i = none := by
  induction h with
  | intro s _ ih =>
    by_cases hlast : ∀ i, step s i = none
    · exact ⟨[], s, .nil, hlast⟩
    · push Not at hlast
      obtain ⟨i, hi⟩ := hlast
      obtain ⟨⟨o, s'⟩, hstep⟩ := Option.ne_none_iff_exists'.1 hi
      obtain ⟨trace, last, hrun, hlast⟩ := ih s' ⟨i, o, hstep⟩
      exact ⟨_, last, (Runs.nil.snoc hstep).append hrun, hlast⟩

end WsTcpProxy.Library
