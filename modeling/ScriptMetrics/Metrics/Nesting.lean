import ScriptMetrics.Syntax.Kind
import ScriptMetrics.Syntax.Walk

/-!
Nesting depth: the largest number of decisions without an alternative that enclose a leaf. The
leaves come from a walk that fills in a parent table; the enclosing nodes from climbing it.
-/

namespace ScriptMetrics

namespace Visitor

def noteLeaf : Visitor (Array Node) := fun node =>
  if node.isLeaf then note node else pure ()

end Visitor

namespace Arena

def nests (arena : Arena) (node : Node) : Except Fault Bool := do
  if node.isDecision then
    return (← arena.field? node "alternative").isNone
  else
    return false

/-- The number of nesting nodes from a leaf up to but excluding the function. -/
def leafDepth (arena : Arena) (parents : ParentTable) (function leaf : Node) : Except Fault Nat := do
  let above ← arena.ancestors parents leaf function
  return (← above.mapM arena.nests).count true

def leaves (arena : Arena) (function : Node) : EStateM Fault ParentTable (List Node) := fun parents =>
  match arena.walk Visitor.noteLeaf function ⟨parents, #[]⟩ with
  | .ok _ walk => .ok walk.state.toList walk.parents
  | .error fault walk => .error fault walk.parents

/-- The largest depth of all leaves. The walk writes into the given table, also when it fails. -/
def nesting (arena : Arena) (function : Node) : EStateM Fault ParentTable Nat := fun parents =>
  match arena.leaves function parents with
  | .error fault parents => .error fault parents
  | .ok leaves parents =>
      match leaves.mapM (arena.leafDepth parents function) with
      | .error fault => .error fault parents
      | .ok depths => .ok (depths.foldl max 0) parents

end Arena

end ScriptMetrics
