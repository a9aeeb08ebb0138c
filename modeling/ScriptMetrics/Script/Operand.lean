import ScriptMetrics.Script.Function

/-!
Operands: what cannot be taken apart any further, and the calls and member accesses that can be
strung together behind it.
-/

namespace ScriptMetrics.Script

def parenthesized (rules : Rules) : Reading Cst :=
  spanned "parenthesized_expression" (do
    symbol "("
    let inner ← rules .sequence
    symbol ")"
    return [inner])

def element (rules : Rules) : Reading Cst :=
  spanned "spread_element" (do symbol "..."; return [← rules .assignment]) <|> rules .assignment

def array (rules : Rules) : Reading Cst :=
  spanned "array" (bracketed "[" "]" (element rules))

def pair (rules : Rules) : Reading Cst :=
  spanned "pair" (do
    let key ← filling "key" (propertyName rules)
    symbol ":"
    return [key, ← filling "value" (rules .assignment)])

def property (rules : Rules) : Reading Cst :=
  spanned "spread_element" (do symbol "..."; return [← rules .assignment]) <|>
    method rules <|> pair rules <|> name "shorthand_property_identifier"

def object (rules : Rules) : Reading Cst :=
  spanned "object" (bracketed "\x7b" "\x7d" (property rules))

def arguments (rules : Rules) : Reading Cst :=
  filling "arguments" (spanned "arguments" (bracketed "(" ")" (element rules)))

def optionalChain : Reading Cst :=
  filling "optional_chain" (spanned "optional_chain" (do symbol "?."; return []))

def memberName : Reading Cst :=
  filling "property" (privateName <|> anyName "property_identifier")

def index (rules : Rules) : Reading Cst := do
  symbol "["
  let inner ← filling "index" (rules .sequence)
  symbol "]"
  return inner

def memberStep (rules : Rules) (object : Cst) : Reading Cst :=
  around "member_expression" (object.inField "object") (do symbol "."; return [← memberName]) <|>
    around "subscript_expression" (object.inField "object") (do return [← index rules])

/-- What a value can be bound to: a pattern, a variable, or a member of something. -/
def binding (rules : Rules) : Reading Cst :=
  destructuring rules <|> (do extend (memberStep rules) (← wordTree "this" <|> variableName))

/-- A call, or a member access that may be missing. -/
def callStep (rules : Rules) (operand : Cst) : Reading Cst :=
  around "call_expression" (operand.inField "function") (do return [← arguments rules]) <|>
    around "call_expression" (operand.inField "function")
      (do return [← filling "arguments" (template rules)]) <|>
    around "member_expression" (operand.inField "object")
      (do return [← optionalChain, ← memberName]) <|>
    around "subscript_expression" (operand.inField "object")
      (do return [← optionalChain, ← index rules]) <|>
    around "call_expression" (operand.inField "function")
      (do return [← optionalChain, ← arguments rules])

def wordExpressions : List String :=
  ["this", "super", "null", "true", "false"]

def importFunction : Reading Cst := do
  let found ← wordTree "import"
  when (looksAt "(")
  return found

def primary (rules : Rules) : Reading Cst :=
  functionExpression rules <|> classExpression rules <|>
    wordExpressions.foldr (fun word others => wordTree word <|> others) failure <|>
    importFunction <|> variableName <|> privateName <|> number <|>
    (do
      let start ← mark
      match start.rest with
      | '(' :: _ => parenthesized rules
      | '[' :: _ => array rules
      | '\x7b' :: _ => object rules
      | '`' :: _ => template rules
      | '"' :: _ => string
      | '\'' :: _ => string
      | '/' :: _ => regex
      | _ => failure)

/-- The end of a new object's expression: the constructor, reached by member accesses but no calls,
and its arguments. -/
def construction (rules : Rules) (constructor : Reading Cst) : Reading Cst :=
  spanned "new_expression" (do
    keyword "new"
    let base ← constructor
    let target ← extend (memberStep rules) base
    let values ← maybe (arguments rules)
    return target.inField "constructor" :: values.toList)

/-- New objects of new objects, as many as there are words for them. -/
def newExpression (rules : Rules) : Nat → Reading Cst
  | 0 => failure
  | depth + 1 => do
      when (looksAtWord "new")
      construction rules (newExpression rules depth <|> primary rules)

/-- An operand with the calls and member accesses behind it. -/
def operand (rules : Rules) : Reading Cst := do
  let start ← get
  let base ← newExpression rules start.left <|> primary rules
  extend (fun operand => memberStep rules operand <|> callStep rules operand) base

end ScriptMetrics.Script
