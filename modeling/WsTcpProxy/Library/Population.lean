import Mathlib.Algebra.BigOperators.Group.Finset.Basic
import Mathlib.Algebra.BigOperators.Group.List.Basic
import Mathlib.Logic.Hydra
import Mathlib.Tactic

/-!
# Numbered members

A population is a list of members numbered by their arrival. One member changes at a time, or a
new one arrives, and a total over the members then changes by what that member contributes.
-/

namespace WsTcpProxy.Library

variable {α M : Type}

/-- Member `id` becomes `a`; the number behind the last one is that of a newcomer. -/
def place (l : List α) (id : Nat) (a : α) : List α :=
  if id = l.length then l ++ [a] else l.set id a

section Place

variable {l : List α} {id : Nat}

lemma place_newcomer (l : List α) (a : α) : place l l.length a = l ++ [a] := if_pos rfl

lemma place_member {a : α} (h : l[id]? = some a) (b : α) : place l id b = l.set id b := by
  obtain ⟨hlt, -⟩ := List.getElem?_eq_some_iff.1 h
  exact if_neg hlt.ne

lemma getElem?_place_self (h : id ≤ l.length) (a : α) : (place l id a)[id]? = some a := by
  unfold place
  split
  · rename_i hid
    rw [hid, List.getElem?_concat_length]
  · rw [List.getElem?_set_self (by omega)]

lemma getElem?_place_other {j : Nat} (h : j ≠ id) (a : α) : (place l id a)[j]? = l[j]? := by
  unfold place
  split
  · rename_i hid
    by_cases hj : j < l.length
    · exact List.getElem?_append_left hj
    · rw [List.getElem?_eq_none (by simp; omega), List.getElem?_eq_none (by omega)]
  · exact List.getElem?_set_ne h.symm

end Place

variable [AddCommMonoid M]

def total (f : α → M) (l : List α) : M := (l.map f).sum

/-- What a member contributes, if there is one. -/
def share (f : α → M) : Option α → M
  | some a => f a
  | none => 0

lemma total_set (f : α → M) (l : List α) (id : Nat) (b : α) (h : id < l.length) :
    total f (l.set id b) + share f l[id]? = total f l + f b := by
  induction l generalizing id with
  | nil => simp at h
  | cons a l ih =>
    cases id with
    | zero =>
      simp only [total, share, List.set_cons_zero, List.map_cons, List.sum_cons,
        List.getElem?_cons_zero]
      abel
    | succ id =>
      have hi := ih id (by simpa using h)
      simp only [total, List.set_cons_succ, List.map_cons, List.sum_cons,
        List.getElem?_cons_succ] at hi ⊢
      rw [add_assoc, hi, add_assoc]

/-- A total changes by what the member contributes after and before. -/
theorem total_place (f : α → M) {l : List α} {id : Nat} (h : id ≤ l.length) (b : α) :
    total f (place l id b) + share f l[id]? = total f l + f b := by
  unfold place
  split
  · rename_i hid
    rw [hid, List.getElem?_eq_none le_rfl]
    simp [total, share]
  · exact total_set f l id b (by omega)

theorem sum_range_step {F F' : Nat → M} {n id : Nat} {δ : M} (hid : id < n)
    (hother : ∀ j, j ≠ id → F' j = F j) (hown : F' id = F id + δ) :
    ∑ j ∈ Finset.range n, F' j = ∑ j ∈ Finset.range n, F j + δ := by
  have hin : id ∈ Finset.range n := Finset.mem_range.2 hid
  have hrest : ∑ j ∈ (Finset.range n).erase id, F' j = ∑ j ∈ (Finset.range n).erase id, F j :=
    Finset.sum_congr rfl fun j hj => hother j (Finset.ne_of_mem_erase hj)
  rw [← Finset.add_sum_erase _ F' hin, ← Finset.add_sum_erase _ F hin, hrest, hown]
  abel

theorem total_eq_sum_range (f : α → M) {l : List α} {n : Nat} (h : l.length ≤ n) :
    total f l = ∑ id ∈ Finset.range n, share f l[id]? := by
  induction l using List.reverseRecOn with
  | nil => simp [total, share]
  | append_singleton l a ih =>
    rw [List.length_append, List.length_singleton] at h
    have hother : ∀ id, id ≠ l.length → share f (l ++ [a])[id]? = share f l[id]? := by
      intro id hid
      rw [← place_newcomer, getElem?_place_other hid]
    have hown : share f (l ++ [a])[l.length]? = share f l[l.length]? + f a := by
      rw [List.getElem?_concat_length, List.getElem?_eq_none le_rfl]
      exact (zero_add _).symm
    rw [sum_range_step h hother hown, ← ih (by omega)]
    simp [total]

theorem total_countP {N : Type} [AddCommMonoidWithOne N] (q : α → Bool) (l : List α) :
    total (fun a => if q a then (1 : N) else 0) l = (l.countP q : N) := by
  induction l with
  | nil => simp [total]
  | cons a l ih =>
    rw [total] at ih
    rw [total, List.map_cons, List.sum_cons, ih, List.countP_cons]
    cases q a
    · simp
    · simp [add_comm]

/-- A total of bounded contributions is bounded by how many members contribute. -/
theorem total_le_countP {f : α → Nat} {q : α → Bool} {l : List α} {bound : Nat}
    (hle : ∀ a ∈ l, f a ≤ bound) (hzero : ∀ a ∈ l, q a = false → f a = 0) :
    total f l ≤ l.countP q * bound := by
  induction l with
  | nil => exact Nat.zero_le _
  | cons a l ih =>
    have hrest := ih (fun b hb => hle b (List.mem_cons_of_mem a hb))
      fun b hb => hzero b (List.mem_cons_of_mem a hb)
    have ha := hle a List.mem_cons_self
    rw [total] at hrest
    rw [total, List.map_cons, List.sum_cons, List.countP_cons]
    cases hq : q a with
    | false =>
      rw [hzero a List.mem_cons_self hq]
      simpa using hrest
    | true =>
      rw [if_pos rfl, Nat.add_mul, Nat.one_mul]
      omega

lemma length_place {l : List α} {id : Nat} (h : id ≤ l.length) (a : α) :
    (place l id a).length = max l.length (id + 1) := by
  unfold place
  split
  · simp
    omega
  · rw [List.length_set]
    omega

/-! ### One member at a time -/

/-- One member is replaced by a smaller one. -/
def Replaced (r : α → α → Prop) (l' l : List α) : Prop :=
  ∃ id a b, l[id]? = some a ∧ r b a ∧ l' = l.set id b

lemma total_singleton (l : List α) : total (fun a => ({a} : Multiset α)) l = l := by
  induction l with
  | nil => rfl
  | cons a l ih =>
    rw [total] at ih
    rw [total, List.map_cons, List.sum_cons, ih]
    rfl

/-- If a member can only be replaced finitely often in a row, so can the members in any order. -/
theorem wellFounded_replaced {r : α → α → Prop} (h : WellFounded r) : WellFounded (Replaced r) := by
  refine Subrelation.wf ?_ (InvImage.wf (fun l : List α => (l : Multiset α)) h.cutExpand)
  rintro l' l ⟨id, a, b, ha, hr, rfl⟩
  obtain ⟨hlt, -⟩ := List.getElem?_eq_some_iff.1 ha
  have hset := total_set (fun a => ({a} : Multiset α)) l id b hlt
  rw [total_singleton, total_singleton, ha] at hset
  refine ⟨{b}, a, ?_, hset⟩
  intro c hc
  rw [Multiset.mem_singleton.1 hc]
  exact hr

/-! ### What the members hold -/

variable {β : Type}

/-- Lists that agree on the elements of each owner have the same elements. -/
theorem perm_of_filter_eq [DecidableEq β] (owner : β → Nat) {l l' : List β}
    (h : ∀ id, l.filter (owner · = id) = l'.filter (owner · = id)) : l.Perm l' := by
  rw [List.perm_iff_count]
  intro b
  have hb : decide (owner b = owner b) = true := decide_eq_true rfl
  rw [← List.count_filter (p := fun c => decide (owner c = owner b)) hb, h,
    List.count_filter (p := fun c => decide (owner c = owner b)) hb]

/-- What the members hold, with their numbers. -/
def holdings (f : α → Option β) (l : List α) : List (Nat × β) :=
  l.zipIdx.filterMap fun x => (f x.1).map (Prod.mk x.2)

lemma holdings_concat (f : α → Option β) (l : List α) (a : α) :
    holdings f (l ++ [a]) = holdings f l ++ ((f a).map (Prod.mk l.length)).toList := by
  rw [holdings, List.zipIdx_append, List.filterMap_append]
  cases h : f a <;> simp [holdings, h]

/-- A member holds what `f` says of it. -/
theorem holdings_filter (f : α → Option β) (l : List α) (id : Nat) :
    (holdings f l).filter (·.1 = id) = ((l[id]?.bind f).map (Prod.mk id)).toList := by
  induction l using List.reverseRecOn with
  | nil => rfl
  | append_singleton l a ih =>
    rw [holdings_concat, List.filter_append, ih]
    rcases lt_trichotomy id l.length with hlt | rfl | hgt
    · rw [List.getElem?_append_left hlt]
      cases f a <;> simp [hlt.ne']
    · rw [List.getElem?_eq_none le_rfl, List.getElem?_concat_length, Option.bind_some]
      cases f a <;> simp
    · rw [List.getElem?_eq_none hgt.le, List.getElem?_eq_none (by simp; omega)]
      cases f a <;> simp [hgt.ne]

/-- Counting what the members hold is counting the members. -/
theorem holdings_countP (f : α → Option β) (q : β → Bool) (l : List α) :
    (holdings f l).countP (fun x => q x.2) = l.countP fun a => (f a).any q := by
  induction l using List.reverseRecOn with
  | nil => rfl
  | append_singleton l a ih =>
    rw [holdings_concat, List.countP_append, List.countP_append, ih]
    cases h : f a <;> simp [h]

end WsTcpProxy.Library
