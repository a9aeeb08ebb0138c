import Std.Data.TreeMap

/-!
Parent tables: who was last recorded as the parent of a position. A walk writes into a table that
its caller may share with other walks.
-/

namespace ScriptMetrics

/-- The parent recorded for each position, the last record winning. -/
structure ParentTable where
  entries : Std.TreeMap Nat Nat := ∅

namespace ParentTable

def empty : ParentTable :=
  {}

def set (table : ParentTable) (child parent : Nat) : ParentTable :=
  { entries := table.entries.insert child parent }

def parent? (table : ParentTable) (child : Nat) : Option Nat :=
  table.entries[child]?

def contains (table : ParentTable) (child : Nat) : Bool :=
  table.entries.contains child

def size (table : ParentTable) : Nat :=
  table.entries.size

/-- All (child, parent) pairs, children increasing. -/
def toList (table : ParentTable) : List (Nat × Nat) :=
  table.entries.toList

@[simp]
theorem parent?_empty (child : Nat) : empty.parent? child = none := by
  simp [parent?, empty]

theorem parent?_set (table : ParentTable) (child parent other : Nat) :
    (table.set child parent).parent? other =
      if child = other then some parent else table.parent? other := by
  simp [parent?, set, Std.TreeMap.getElem?_insert]

@[simp]
theorem contains_eq_isSome (table : ParentTable) (child : Nat) :
    table.contains child = (table.parent? child).isSome := by
  simp [contains, parent?]

end ParentTable

end ScriptMetrics
