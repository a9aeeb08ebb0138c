import ScriptMetrics.Script.Literal

/-!
Patterns: what values are bound to in declarations, parameters and assignments.
-/

namespace ScriptMetrics.Script

/-- A pattern with a value to fall back on, or just the pattern. -/
def patternOrDefault (rules : Rules) : Reading Cst := do
  let target ← rules .pattern
  match ← peek (looksAt "=") with
  | false => return target
  | true => around "assignment_pattern" (target.inField "left") (do return [← initializer rules "right"])

def restPattern (rules : Rules) : Reading Cst :=
  spanned "rest_pattern" (do
    symbol "..."
    return [← rules .pattern])

def pairPattern (rules : Rules) : Reading Cst :=
  spanned "pair_pattern" (do
    let key ← filling "key" (propertyName rules)
    symbol ":"
    return [key, ← filling "value" (patternOrDefault rules)])

/-- A property bound to a variable of the same name. -/
def shorthandPattern (rules : Rules) : Reading Cst := do
  let target ← name "shorthand_property_identifier_pattern"
  match ← peek (looksAt "=") with
  | false => return target
  | true =>
      around "object_assignment_pattern" (target.inField "left") (do return [← initializer rules "right"])

def objectPattern (rules : Rules) : Reading Cst :=
  spanned "object_pattern"
    (bracketed "\x7b" "\x7d" (restPattern rules <|> pairPattern rules <|> shorthandPattern rules))

def arrayPattern (rules : Rules) : Reading Cst :=
  spanned "array_pattern" (bracketed "[" "]" (restPattern rules <|> patternOrDefault rules))

def destructuring (rules : Rules) : Reading Cst :=
  objectPattern rules <|> arrayPattern rules

def parameters (rules : Rules) : Reading Cst :=
  filling "parameters" (spanned "formal_parameters"
    (bracketed "(" ")" (restPattern rules <|> patternOrDefault rules)))

end ScriptMetrics.Script
