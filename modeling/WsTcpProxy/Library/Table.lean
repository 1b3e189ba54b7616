import Mathlib.Data.List.AList
import Mathlib.Tactic

/-!
# Hash tables as association lists

Mathlib's `AList` carries the proof that its keys are distinct. Two operations of a mutable
hash table are added to it: `retain`, which updates or removes every row, and `rowD`, which
reads a row that is created with a default value when it is absent.
-/

namespace AList

variable {κ ν : Type}

lemma keys_filterMap_sublist (f : κ → ν → Option ν) (l : List (Sigma fun _ : κ => ν)) :
    (l.filterMap (fun e => (f e.1 e.2).map (Sigma.mk (β := fun _ => ν) e.1))).keys.Sublist l.keys := by
  induction l with
  | nil => simp
  | cons e l ih =>
    cases h : f e.1 e.2 with
    | none => simpa [h] using ih.cons e.1
    | some v => simpa [h] using ih.cons_cons e.1

/-- Replaces every row by what `f` returns for it and drops the rows where `f` returns `none`. -/
def retain (f : κ → ν → Option ν) (m : AList fun _ : κ => ν) : AList fun _ : κ => ν :=
  ⟨m.entries.filterMap (fun e => (f e.1 e.2).map (Sigma.mk (β := fun _ => ν) e.1)),
    List.Nodup.sublist (keys_filterMap_sublist f m.entries) m.nodupKeys⟩

variable [DecidableEq κ]

lemma dlookup_filterMap (f : κ → ν → Option ν) (k : κ) (l : List (Sigma fun _ : κ => ν))
    (hl : l.NodupKeys) :
    (l.filterMap (fun e => (f e.1 e.2).map (Sigma.mk (β := fun _ => ν) e.1))).dlookup k =
      (l.dlookup k).bind (f k) := by
  induction l with
  | nil => rfl
  | cons e l ih =>
    obtain ⟨a, v⟩ := e
    rw [List.nodupKeys_cons] at hl
    have hi := ih hl.2
    by_cases ha : k = a
    · subst ha
      have hout : l.dlookup k = none := List.dlookup_eq_none.mpr hl.1
      rw [hout] at hi
      cases h : f k v with
      | none => simpa [h] using hi
      | some w => simp [h]
    · rw [List.dlookup_cons_ne _ _ ha, ← hi]
      cases h : f a v with
      | none => simp [h]
      | some w => simp [h, List.dlookup_cons_ne _ (⟨a, w⟩ : Sigma fun _ : κ => ν) ha]

@[simp] lemma lookup_retain (f : κ → ν → Option ν) (m : AList fun _ : κ => ν) (k : κ) :
    (m.retain f).lookup k = (m.lookup k).bind (f k) :=
  dlookup_filterMap f k m.entries m.nodupKeys

lemma eq_empty_of_lookup {m : AList fun _ : κ => ν} (h : ∀ k, m.lookup k = none) : m = ∅ := by
  apply AList.ext
  cases he : m.entries with
  | nil => rfl
  | cons e l =>
    have hk := h e.1
    rw [lookup, he, List.dlookup_cons_eq] at hk
    cases hk

lemma retain_eq_empty {f : κ → ν → Option ν} {m : AList fun _ : κ => ν}
    (h : ∀ k v, m.lookup k = some v → f k v = none) : m.retain f = ∅ := by
  apply eq_empty_of_lookup
  intro k
  rw [lookup_retain]
  cases hk : m.lookup k with
  | none => rfl
  | some v => exact h k v hk

/-- The row of `k`, or `d` when there is none. -/
def rowD (m : AList fun _ : κ => ν) (k : κ) (d : ν) : ν :=
  (m.lookup k).getD d

@[simp] lemma rowD_empty (k : κ) (d : ν) : rowD (∅ : AList fun _ : κ => ν) k d = d := by
  simp [rowD]

@[simp] lemma rowD_insert_self (m : AList fun _ : κ => ν) (k : κ) (v d : ν) :
    rowD (m.insert k v) k d = v := by
  simp [rowD]

lemma rowD_insert_ne (m : AList fun _ : κ => ν) {k k' : κ} (h : k ≠ k') (v d : ν) :
    rowD (m.insert k' v) k d = rowD m k d := by
  simp [rowD, lookup_insert_ne h]

lemma rowD_insert (m : AList fun _ : κ => ν) (k k' : κ) (v d : ν) :
    rowD (m.insert k' v) k d = if k = k' then v else rowD m k d := by
  by_cases h : k = k'
  · simp [h]
  · simp [h, rowD_insert_ne m h]

/-! ### Number of rows -/

omit [DecidableEq κ] in
lemma length_keys_retain_le (f : κ → ν → Option ν) (m : AList fun _ : κ => ν) :
    (m.retain f).keys.length ≤ m.keys.length :=
  (keys_filterMap_sublist f m.entries).length_le

lemma length_keys_insert (m : AList fun _ : κ => ν) (k : κ) (v : ν) :
    (m.insert k v).keys.length = m.keys.length + if k ∈ m then 0 else 1 := by
  rw [keys_insert, List.length_cons]
  split
  · rename_i hk
    rw [mem_keys] at hk
    have hpos := List.length_pos_of_mem hk
    rw [List.length_erase_of_mem hk]
    omega
  · rename_i hk
    rw [List.erase_of_not_mem hk]

lemma length_keys_erase_le (m : AList fun _ : κ => ν) (k : κ) :
    (m.erase k).keys.length ≤ m.keys.length := by
  rw [keys_erase]
  exact List.erase_sublist.length_le

end AList
