import ScriptMetrics.Syntax.Kind
import ScriptMetrics.Syntax.Walk

/-!
Message chains: runs of member accesses met while walking one statement. Entering a function
expression starts a new run.
-/

namespace ScriptMetrics

namespace Arena

/-- Accessing a member is a link of a chain, unless the member is given by a literal index. -/
def isChainLink (arena : Arena) (node : Node) : Except Fault Bool := do
  if node.kind == "member_expression" then
    return true
  else if node.kind == "subscript_expression" then
    return (← arena.field? node "index").all (!Kind.literals.contains ·.kind)
  else
    return false

end Arena

structure ChainCount where
  running : Nat := 0
  longest : Nat := 0

namespace ChainCount

/-- A link makes the run longer, a function expression ends it, other nodes leave it alone. -/
def step (count : ChainCount) (isLink isFunction : Bool) : ChainCount :=
  let running := if isLink then count.running + 1 else if isFunction then 0 else count.running
  { running, longest := max count.longest running }

end ChainCount

namespace Arena

def chainLength (arena : Arena) (start : Node) : Except Fault Nat := do
  let nodes ← arena.visits start
  let links ← nodes.mapM arena.isChainLink
  let count := (links.zip nodes).foldl
    (fun count (isLink, node) => count.step isLink node.isFunctionExpression) ({} : ChainCount)
  return count.longest

/-- The part of a statement whose chains count, given the expression the statement starts with.
A call with arguments stands for its first argument, and only if that is a function expression or
a member access. -/
def expressionChainRoot? (arena : Arena) (statement expression : Node) :
    Except Fault (Option Node) := do
  if expression.isCall then
    let arguments ← match ← arena.field? expression "arguments" with
      | some list => if list.kind == "arguments" then arena.children list else pure []
      | none => pure []
    match arguments with
    | [] => return some statement
    | first :: _ =>
        return if first.isFunctionExpression || first.isMemberAccess then some first else none
  else
    return if expression.isMemberAccess then some statement else none

def chainRoot? (arena : Arena) (node : Node) : Except Fault (Option Node) := do
  if node.kind == "expression_statement" || node.kind == "return_statement" then
    match ← arena.firstChild? node with
    | some expression => arena.expressionChainRoot? node expression
    | none => return none
  else if node.kind == "variable_declarator" then
    match ← arena.field? node "value" with
    | some value => return if value.isCall || value.isMemberAccess then some node else none
    | none => return none
  else
    return none

def maxChains (arena : Arena) (function : Node) : Except Fault Nat := do
  let nodes ← arena.visits function
  let roots ← nodes.mapM arena.chainRoot?
  let lengths ← (roots.filterMap id).mapM arena.chainLength
  return lengths.foldl max 0

end Arena

end ScriptMetrics
