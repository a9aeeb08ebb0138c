import Mathlib.Data.List.Basic

/-!
Looking up names in lists of named values, of which the first under a name counts.
-/

namespace ScriptMetrics

variable {α β : Type} {rows : List (String × α)} {name other : String} {value : α}

theorem lookup_map (change : String → α → β) (rows : List (String × α)) (name : String) :
    (rows.map fun row => (row.1, change row.1 row.2)).lookup name = (rows.lookup name).map (change name) := by
  induction rows with
  | nil => rfl
  | cons row rest ih =>
      obtain ⟨key, old⟩ := row
      by_cases here : name = key
      · simp [here]
      · simpa [List.lookup_cons, beq_false_of_ne here] using ih

theorem any_eq_isSome_lookup (rows : List (String × α)) (name : String) :
    rows.any (·.1 == name) = (rows.lookup name).isSome := by
  induction rows with
  | nil => rfl
  | cons row rest ih =>
      obtain ⟨key, value⟩ := row
      rw [List.any_cons, ih, List.lookup_cons]
      by_cases same : key = name
      · simp [same]
      · simp [beq_eq_false_iff_ne.mpr same, beq_eq_false_iff_ne.mpr (Ne.symm same)]

theorem lookup_filter_ne (different : other ≠ name) :
    (rows.filter (·.1 != name)).lookup other = rows.lookup other := by
  induction rows with
  | nil => rfl
  | cons row rest ih =>
      obtain ⟨key, held⟩ := row
      by_cases dropped : key = name
      · subst dropped
        simpa [List.lookup_cons, beq_eq_false_iff_ne.mpr different] using ih
      · simp [List.lookup_cons, dropped, ih]

theorem mem_of_lookup (found : rows.lookup name = some value) : (name, value) ∈ rows := by
  obtain ⟨front, back, rfl, _⟩ := List.lookup_eq_some_iff.mp found
  simp

end ScriptMetrics
