import ScriptMetrics.Syntax.Kind
import ScriptMetrics.Syntax.Walk

/-!
Metrics read off the visits of a walk: how many decisions a function takes, how many conditions
its largest test joins, and how many different symbols it uses. Nested functions are no boundary.
-/

namespace ScriptMetrics

namespace Arena

def cyclomatic (arena : Arena) (function : Node) : Except Fault Nat := do
  let nodes ← arena.visits function
  return 1 + nodes.countP Node.isDecision

/-- One more than the number of logical operators in the test of a conditional. -/
def conditionCount (arena : Arena) (conditional : Node) : Except Fault Nat := do
  match ← arena.field? conditional "condition" with
  | none => return 1
  | some test => return 1 + (← arena.visits test).countP Node.isLogical

def maxConditions (arena : Arena) (function : Node) : Except Fault Nat := do
  let nodes ← arena.visits function
  let counts ← (nodes.filter Node.isConditional).mapM arena.conditionCount
  return counts.foldl max 0

/-- The number of different symbols, less one for the function's own name. -/
def halstead (arena : Arena) (function : Node) : Except Fault Int := do
  let nodes ← arena.visits function
  return (nodes.filterMap Node.symbol?).eraseDups.length - 1

end Arena

end ScriptMetrics
