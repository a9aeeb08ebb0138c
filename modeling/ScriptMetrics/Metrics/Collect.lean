import ScriptMetrics.Metrics.Chains
import ScriptMetrics.Metrics.Complexity
import ScriptMetrics.Metrics.Nesting
import ScriptMetrics.Metrics.Record

/-!
Collecting the records of a file. One walk from the root counts strings and imports and stops at
every declaration to measure it; measuring shares the parent table of that walk.
-/

namespace ScriptMetrics

namespace Arena

/-- The declared name of a function, or its line if it has none. -/
def functionName (arena : Arena) (function : Node) : Except Fault String := do
  let declared := (← arena.field? function "name").bind fun name => name.text.filter (· ≠ "")
  return declared.getD ("anon@" ++ toString function.firstLine)

def parameterCount (arena : Arena) (function : Node) : Except Fault Nat := do
  return (← arena.field? function "parameters").elim 0 (·.children.length)

end Arena

namespace Node

def length (node : Node) : Int :=
  node.lastLine - node.firstLine

end Node

namespace Arena

def isImport (arena : Arena) (node : Node) : Except Fault Bool := do
  if node.isCall then
    return (← arena.field? node "function").any fun callee =>
      callee.kind == "identifier" && callee.text == some "require"
  else
    return false

/-- All of a function's record but its nesting depth, which alone needs a parent table. -/
def outline (arena : Arena) (function : Node) (fileName : String) : Except Fault FunctionRecord := do
  let functionName ← arena.functionName function
  let parameters ← arena.parameterCount function
  let cyclomatic ← arena.cyclomatic function
  let conditions ← arena.maxConditions function
  let chains ← arena.maxChains function
  let halstead ← arena.halstead function
  return {
    fileName, functionName, startLine := function.firstLine, parameters, length := function.length,
    cyclomatic, halstead, conditions, chains }

/-- The frozen record of one function, its nesting walk writing into the given parent table. -/
def functionRecord (arena : Arena) (function : Node) (fileName : String) :
    EStateM Fault ParentTable FunctionRecord := fun parents =>
  match arena.outline function fileName with
  | .error fault => .error fault parents
  | .ok outline =>
      match arena.nesting function parents with
      | .error fault parents => .error fault parents
      | .ok nesting parents => .ok { outline with nesting, frozen := true } parents

def countNode (arena : Arena) (file : FileRecord) (node : Node) : Except Fault FileRecord := do
  if node.isString then
    return { file with strings := file.strings + 1 }
  else if ← arena.isImport node then
    return { file with imports := file.imports + 1 }
  else
    return file

end Arena

structure Collection where
  file : FileRecord
  functions : List FunctionRecord := []
deriving DecidableEq, Repr

namespace Arena

def collectNode (arena : Arena) (fileName : String) : Visitor (FileRecord × Array FunctionRecord) :=
  fun node walk =>
    match arena.countNode walk.state.1 node with
    | .error fault => .error fault walk
    | .ok file =>
        if node.isDeclaration then
          match arena.functionRecord node fileName walk.parents with
          | .error fault parents => .error fault ⟨parents, file, walk.state.2⟩
          | .ok record parents => .ok () ⟨parents, file, walk.state.2.push record⟩
        else
          .ok () ⟨walk.parents, file, walk.state.2⟩

def collect (arena : Arena) (fileName : String) : Except Fault Collection :=
  match arena.walk (arena.collectNode fileName) arena.root ⟨.empty, { fileName }, #[]⟩ with
  | .error fault _ => .error fault
  | .ok _ walk =>
      .ok { file := { walk.state.1 with frozen := true }, functions := walk.state.2.toList }

end Arena

end ScriptMetrics
