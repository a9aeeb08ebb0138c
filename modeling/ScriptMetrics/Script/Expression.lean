import ScriptMetrics.Script.Operand

/-!
Expressions. Operators are read by levels of precedence, from the loosest to the tightest; below
them stand the expressions with one operand.
-/

namespace ScriptMetrics.Script

/-- The operators with two operands, the loosest first. Those of one level are taken from the left. -/
def levels : List (List String) := [
  ["??"],
  ["||"],
  ["&&"],
  ["|"],
  ["^"],
  ["&"],
  ["==", "!=", "===", "!=="],
  ["<", ">", "<=", ">=", "instanceof", "in"],
  ["<<", ">>", ">>>"],
  ["+", "-"],
  ["*", "/", "%"]]

def unaryOperators : List String :=
  ["!", "~", "+", "-", "typeof", "void", "delete"]

def updateOperators : List String :=
  ["++", "--"]

def augmentedOperators : List String := [
  "+=", "-=", "*=", "/=", "%=", "**=", "<<=", ">>=", ">>>=", "&=", "^=", "|=", "&&=", "||=", "??="]

/-- An operand that may be counted up or down on the same line. -/
def counted (rules : Rules) : Reading Cst := do
  let base ← operand rules
  if (← get).atLineEnd then
    return base
  around "update_expression" (base.inField "argument") (do return [← anyOperator updateOperators]) <|>
    pure base

def unary (rules : Rules) : Reading Cst :=
  spanned "await_expression" (do keyword "await"; return [← rules .unary]) <|>
    spanned "unary_expression" (do
      return [← anyOperator unaryOperators, ← filling "argument" (rules .unary)]) <|>
    spanned "update_expression" (do
      return [← anyOperator updateOperators, ← filling "argument" (rules .unary)]) <|>
    counted rules

def binary (left operator right : Cst) : Reading Cst :=
  around "binary_expression" (left.inField "left") (pure [operator, right.inField "right"])

/-- Powers are taken from the right. -/
def power (rules : Rules) : Nat → Reading Cst
  | 0 => failure
  | depth + 1 => do
      let base ← unary rules
      (do
        let sign ← anyOperator ["**"]
        binary base sign (← power rules depth)) <|> pure base

def operations (rules : Rules) : List (List String) → Reading Cst
  | [] => do power rules (← get).left
  | signs :: tighter => do
      let first ← operations rules tighter
      extend (fun left => do
        let sign ← anyOperator signs
        binary left sign (← operations rules tighter)) first

def conditional (rules : Rules) : Reading Cst := do
  let condition ← operations rules levels
  if ← peek (looksAt "?") then
    around "ternary_expression" (condition.inField "condition") (do
      symbol "?"
      let consequence ← filling "consequence" (rules .assignment)
      symbol ":"
      return [consequence, ← filling "alternative" (rules .assignment)])
  else
    return condition

def arrow (rules : Rules) : Reading Cst :=
  spanned "arrow_function" (do
    let start ← get
    let parameters ←
      (do keyword "async"; parameters rules <|> filling "parameter" (name "identifier")) <|>
        (do set start; parameters rules <|> filling "parameter" (name "identifier"))
    symbol "=>"
    return [parameters, ← filling "body" (block rules <|> rules .assignment)])

def mayBeArrow (cursor : Cursor) : Bool :=
  if looksAt "(" cursor then true
  else
    let word := wordAt cursor
    word == "async" || word != "" && looksAt "=>" (cursor.advance word.length).skipTrivia

/-- What a generator hands out. Nothing needs to follow. -/
def yield (rules : Rules) : Reading Cst :=
  spanned "yield_expression" (do
    keyword "yield"
    if breaksOff (← get) then
      return []
    let _ ← maybe (symbol "*")
    let value ← maybe (rules .assignment)
    return value.toList)

def destructuringAssignment (rules : Rules) : Reading Cst :=
  spanned "assignment_expression" (do
    let target ← filling "left" (destructuring rules)
    return [target, ← initializer rules "right"])

/-- An assignment, or just an expression. An object or array that something is assigned to is read
again as a pattern. -/
def assignmentTail (rules : Rules) : Reading Cst := do
  let start ← get
  let target ← conditional rules
  if ← peek (looksAt "=") then
    if target.head.kind == "object" || target.head.kind == "array" then
      set start
      destructuringAssignment rules
    else
      around "assignment_expression" (target.inField "left") (do return [← initializer rules "right"])
  else
    around "augmented_assignment_expression" (target.inField "left") (do
        return [← anyOperator augmentedOperators, ← filling "right" (rules .assignment)]) <|>
      pure target

def assignment (rules : Rules) : Reading Cst :=
  yield rules <|>
    (do when mayBeArrow; arrow rules) <|>
    assignmentTail rules <|>
    destructuringAssignment rules

def sequence (rules : Rules) : Reading Cst := do
  let first ← rules .assignment
  if ← peek (looksAt ",") then
    around "sequence_expression" first (many (do symbol ","; rules .assignment))
  else
    return first

end ScriptMetrics.Script
