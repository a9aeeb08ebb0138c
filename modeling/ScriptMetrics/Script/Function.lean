import ScriptMetrics.Script.Pattern

/-!
Functions, methods and classes, as statements and as expressions.
-/

namespace ScriptMetrics.Script

def block (rules : Rules) : Reading Cst :=
  spanned "statement_block" (do
    symbol "\x7b"
    let statements ← many (rules .statement)
    symbol "\x7d"
    return statements)

def functionTail (rules : Rules) : Reading (List Cst) := do
  return [← parameters rules, ← filling "body" (block rules)]

/-- A function, as a kind that depends on whether it is a generator. -/
def functionTree (rules : Rules) (plain generator : String) (functionName : Reading (Option Cst)) :
    Reading Cst := do
  let start ← mark
  let _ ← maybe (keyword "async")
  keyword "function"
  let star ← maybe (symbol "*")
  let declared ← functionName
  let kids ← functionTail rules
  return tree (if star.isSome then generator else plain) start (← get) (declared.toList ++ kids)

def functionExpression (rules : Rules) : Reading Cst :=
  functionTree rules "function_expression" "generator_function"
    (maybe (filling "name" (name "identifier")))

def functionDeclaration (rules : Rules) : Reading Cst :=
  functionTree rules "function_declaration" "generator_function_declaration"
    (some <$> filling "name" (name "identifier"))

def methodTail (rules : Rules) : Reading (List Cst) := do
  let methodName ← filling "name" (propertyName rules)
  return methodName :: (← functionTail rules)

/-- What makes a method asynchronous, a generator or an accessor comes before its name. Each of
these words may also be the name. -/
def methodBody (rules : Rules) : Reading (List Cst) :=
  (do keyword "async"; let _ ← maybe (symbol "*"); methodTail rules) <|>
    (do keyword "get"; methodTail rules) <|>
    (do keyword "set"; methodTail rules) <|>
    (do symbol "*"; methodTail rules) <|>
    methodTail rules

def method (rules : Rules) : Reading Cst :=
  spanned "method_definition" (methodBody rules)

def fieldBody (rules : Rules) : Reading (List Cst) := do
  let property ← filling "property" (propertyName rules)
  let value ← maybe (initializer rules "value")
  return property :: value.toList

/-- The end of a member or statement: a semicolon, or where one may be left out. -/
def semicolon : Reading Unit :=
  symbol ";" <|> (do
    if breaksOff (← get) then pure ()
    else when fun next => next.rest.isEmpty || looksAt "\x7d" next)

def classMember (rules : Rules) : Reading Cst :=
  filling "member" (
    spanned "method_definition" (do keyword "static"; methodBody rules) <|>
    method rules <|>
    spanned "class_static_block" (do keyword "static"; return [← filling "body" (block rules)]) <|>
    (do
      let member ← spanned "field_definition" (do keyword "static"; fieldBody rules) <|>
        spanned "field_definition" (fieldBody rules)
      semicolon
      return member))

def classBody (rules : Rules) : Reading Cst :=
  filling "body" (spanned "class_body" (do
    symbol "\x7b"
    let members ← many ((do symbol ";"; return none) <|> (some <$> classMember rules))
    symbol "\x7d"
    return members.filterMap id))

def classTree (rules : Rules) (kind : String) (className : Reading (Option Cst)) : Reading Cst :=
  spanned kind (do
    keyword "class"
    let declared ← className
    let parent ← maybe (spanned "class_heritage" (do keyword "extends"; return [← rules .unary]))
    return declared.toList ++ parent.toList ++ [← classBody rules])

def classExpression (rules : Rules) : Reading Cst :=
  classTree rules "class" (maybe (filling "name" (name "identifier")))

def classDeclaration (rules : Rules) : Reading Cst :=
  classTree rules "class_declaration" (some <$> filling "name" (name "identifier"))

end ScriptMetrics.Script
