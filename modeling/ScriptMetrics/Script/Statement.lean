import ScriptMetrics.Script.Expression

/-!
Statements. Most are known by their first word; what no rule here knows is an expression.
-/

namespace ScriptMetrics.Script

def target (rules : Rules) : Reading Cst :=
  destructuring rules <|> name "identifier"

def declarator (rules : Rules) : Reading Cst :=
  spanned "variable_declarator" (do
    let declared ← filling "name" (target rules)
    let value ← maybe (initializer rules "value")
    return declared :: value.toList)

/-- Variables declared under a keyword. -/
def declaring (rules : Rules) (kind : String) (word : String) : Reading Cst :=
  spanned kind (do
    keyword word
    let first ← declarator rules
    let others ← many (do symbol ","; declarator rules)
    semicolon
    return first :: others)

def variableStatement (rules : Rules) : Reading Cst :=
  declaring rules "variable_declaration" "var" <|>
    declaring rules "lexical_declaration" "let" <|>
    declaring rules "lexical_declaration" "const"

def condition (rules : Rules) : Reading Cst :=
  filling "condition" (parenthesized rules)

def body (rules : Rules) : Reading Cst :=
  filling "body" (rules .statement)

def ifStatement (rules : Rules) : Reading Cst :=
  spanned "if_statement" (do
    keyword "if"
    let test ← condition rules
    let consequence ← filling "consequence" (rules .statement)
    let alternative ← maybe (filling "alternative"
      (spanned "else_clause" (do keyword "else"; return [← rules .statement])))
    return [test, consequence] ++ alternative.toList)

def whileStatement (rules : Rules) : Reading Cst :=
  spanned "while_statement" (do keyword "while"; return [← condition rules, ← body rules])

def doStatement (rules : Rules) : Reading Cst :=
  spanned "do_statement" (do
    keyword "do"
    let repeated ← body rules
    keyword "while"
    let test ← condition rules
    let _ ← maybe (symbol ";")
    return [repeated, test])

def emptyStatement : Reading Cst :=
  spanned "empty_statement" (do symbol ";"; return [])

/-- The part of a loop over a collection that stands before its body. -/
def collectionHeader (rules : Rules) : Reading (List Cst) := do
  symbol "("
  let declared ← maybe (keyword "var" <|> keyword "let" <|> keyword "const")
  let left ← filling "left" (if declared.isSome then target rules else rules .pattern)
  let sign ← anyOperator ["in", "of"]
  let right ← filling "right" (rules .sequence)
  symbol ")"
  return [left, sign, right]

/-- The part of a counting loop that stands before its body. Empty places of the first two parts
are empty statements. -/
def countingHeader (rules : Rules) : Reading (List Cst) := do
  let ended (reading : Reading Cst) : Reading Cst := do
    let found ← reading
    symbol ";"
    return found
  symbol "("
  let start ← filling "initializer" (variableStatement rules <|> emptyStatement <|> ended (rules .sequence))
  let test ← filling "condition" (emptyStatement <|> ended (rules .sequence))
  let advance ← maybe (filling "increment" (rules .sequence))
  symbol ")"
  return [start, test] ++ advance.toList

def forStatement (rules : Rules) : Reading Cst := do
  let start ← mark
  keyword "for"
  let _ ← maybe (keyword "await")
  let (kind, header) ←
    (do return ("for_in_statement", ← collectionHeader rules)) <|>
      (do return ("for_statement", ← countingHeader rules))
  let repeated ← body rules
  return tree kind start (← get) (header ++ [repeated])

def caseBody (rules : Rules) : Reading (List Cst) := do
  symbol ":"
  many (body rules)

def switchStatement (rules : Rules) : Reading Cst :=
  spanned "switch_statement" (do
    keyword "switch"
    let value ← filling "value" (parenthesized rules)
    let cases ← filling "body" (spanned "switch_body" (do
      symbol "\x7b"
      let cases ← many (
        spanned "switch_case" (do
          keyword "case"
          let value ← filling "value" (rules .sequence)
          return value :: (← caseBody rules)) <|>
        spanned "switch_default" (do keyword "default"; caseBody rules))
      symbol "\x7d"
      return cases))
    return [value, cases])

def tryStatement (rules : Rules) : Reading Cst :=
  spanned "try_statement" (do
    keyword "try"
    let tried ← filling "body" (block rules)
    let handler ← maybe (filling "handler" (spanned "catch_clause" (do
      keyword "catch"
      let parameter ← maybe (do
        symbol "("
        let caught ← filling "parameter" (target rules)
        symbol ")"
        return caught)
      return parameter.toList ++ [← filling "body" (block rules)])))
    let finalizer ← maybe (filling "finalizer"
      (spanned "finally_clause" (do keyword "finally"; return [← filling "body" (block rules)])))
    return tried :: (handler.toList ++ finalizer.toList))

/-- A jump, possibly to a label before the line breaks off. -/
def jump (kind word : String) : Reading Cst :=
  spanned kind (do
    keyword word
    let label ← if breaksOff (← get) then pure none
      else maybe (filling "label" (name "statement_identifier"))
    semicolon
    return label.toList)

/-- A statement that hands a value on, if one follows before the line breaks off. -/
def handing (rules : Rules) (kind word : String) : Reading Cst :=
  spanned kind (do
    keyword word
    let value ← if breaksOff (← get) then pure none else maybe (rules .sequence)
    semicolon
    return value.toList)

def debuggerStatement : Reading Cst :=
  spanned "debugger_statement" (do keyword "debugger"; semicolon; return [])

def labeledStatement (rules : Rules) : Reading Cst :=
  spanned "labeled_statement" (do
    let label ← filling "label" (name "statement_identifier")
    symbol ":"
    return [label, ← body rules])

def expressionStatement (rules : Rules) : Reading Cst :=
  spanned "expression_statement" (do
    let value ← rules .sequence
    semicolon
    return [value])

def declaration (rules : Rules) : Reading Cst :=
  functionDeclaration rules <|> classDeclaration rules <|> variableStatement rules

def fromSource : Reading Cst := do
  keyword "from"
  filling "source" string

def moduleName (field : String) : Reading Cst :=
  filling field (anyName "identifier" <|> string)

/-- A name and the name it goes by on the other side. -/
def specifier (kind : String) : Reading Cst :=
  spanned kind (do
    let found ← moduleName "name"
    let renamed ← maybe (do keyword "as"; moduleName "alias")
    return found :: renamed.toList)

def namespaceImport : Reading Cst :=
  spanned "namespace_import" (do symbol "*"; keyword "as"; return [← name "identifier"])

def namedImports : Reading Cst :=
  spanned "named_imports" (bracketed "\x7b" "\x7d" (specifier "import_specifier"))

def importClause : Reading Cst :=
  spanned "import_clause" (
    (do return [← namespaceImport <|> namedImports]) <|>
    (do
      let main ← name "identifier"
      let others ← maybe (do symbol ","; namespaceImport <|> namedImports)
      return main :: others.toList))

def importStatement : Reading Cst :=
  spanned "import_statement" (do
    keyword "import"
    let parts ←
      (do return [← filling "source" string]) <|>
        (do return [← importClause, ← fromSource])
    semicolon
    return parts)

def exportedNames : Reading (List Cst) :=
  (do symbol "*"; return [← fromSource]) <|>
    (do
      let space ← spanned "namespace_export" (do symbol "*"; keyword "as"; return [← anyName "identifier" <|> string])
      return [space, ← fromSource]) <|>
    (do
      let clause ← spanned "export_clause" (bracketed "\x7b" "\x7d" (specifier "export_specifier"))
      let source ← maybe fromSource
      return clause :: source.toList)

def exportStatement (rules : Rules) : Reading Cst :=
  spanned "export_statement" (do
    keyword "export"
    (do let parts ← exportedNames; semicolon; return parts) <|>
      (do
        keyword "default"
        (do return [← filling "declaration" (functionDeclaration rules <|> classDeclaration rules)]) <|>
          (do let value ← filling "value" (rules .assignment); semicolon; return [value])) <|>
      (do return [← filling "declaration" (declaration rules)]))

/-- A statement that no word of its own introduces. -/
def plainStatement (rules : Rules) : Reading Cst :=
  functionDeclaration rules <|> labeledStatement rules <|> expressionStatement rules

/-- The statements by the words that introduce them. A word that may also start an expression has
that as its second choice. -/
def introduced (rules : Rules) : List (String × Reading Cst) := [
  ("if", ifStatement rules),
  ("for", forStatement rules),
  ("while", whileStatement rules),
  ("do", doStatement rules),
  ("switch", switchStatement rules),
  ("try", tryStatement rules),
  ("return", handing rules "return_statement" "return"),
  ("throw", handing rules "throw_statement" "throw"),
  ("break", jump "break_statement" "break"),
  ("continue", jump "continue_statement" "continue"),
  ("debugger", debuggerStatement),
  ("var", variableStatement rules),
  ("const", variableStatement rules),
  ("let", variableStatement rules <|> plainStatement rules),
  ("class", classDeclaration rules),
  ("function", functionDeclaration rules),
  ("import", importStatement <|> expressionStatement rules),
  ("export", exportStatement rules)]

/-- Any statement, known by its first token. -/
def statement (rules : Rules) : Reading Cst := do
  let start ← mark
  if looksAt "\x7b" start then
    block rules
  else if looksAt ";" start then
    emptyStatement
  else
    ((introduced rules).lookup (wordAt start)).getD (plainStatement rules)

end ScriptMetrics.Script
