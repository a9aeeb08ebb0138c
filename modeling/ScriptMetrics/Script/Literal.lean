import ScriptMetrics.Script.Reading

/-!
Names, literals and templates. The kinds of tree are those of the grammar that the metrics are
defined on.
-/

namespace ScriptMetrics.Script

/-- What can be read on the way of reading something else. -/
inductive Goal where
  | statement
  | sequence
  | assignment
  | unary
  | pattern
deriving DecidableEq, Repr

/-- How to read whatever a rule asks for. Rules are not recursive themselves. -/
abbrev Rules := Goal → Reading Cst

def anyName (kind : String) : Reading Cst := do
  let _ ← mark
  leaf kind wordLength

def name (kind : String) : Reading Cst := do
  when fun cursor => !reservedWords.contains (wordAt cursor)
  anyName kind

/-- A variable. One of them stands for no value and has a kind of its own. -/
def variableName : Reading Cst := do
  if ← peek (looksAtWord "undefined") then anyName "undefined" else name "identifier"

/-- A name that only its class can see. -/
def privateName : Reading Cst := do
  let _ ← mark
  leaf "private_property_identifier" fun text =>
    match text with
    | '#' :: rest => if wordLength rest = 0 then 0 else 1 + wordLength rest
    | _ => 0

def wordTree (word : String) : Reading Cst :=
  spanned word (do keyword word; return [])

def number : Reading Cst := do
  let _ ← mark
  leaf "number" fun text =>
    match text with
    | '.' :: digit :: _ => if digit.isDigit then numberLength text else 0
    | digit :: _ => if digit.isDigit then numberLength text else 0
    | [] => 0

/-- Reads a character right at the cursor. -/
def character (char : Char) : Reading Unit := do
  let cursor ← get
  match cursor.rest with
  | next :: rest => if next = char then set (cursor.step next rest) else failure
  | [] => failure

def escape : Reading Cst :=
  leaf "escape_sequence" fun text =>
    match text with
    | '\\' :: rest => escapeLength rest
    | _ => 0

def stringWith (quote : Char) : Reading Cst :=
  spanned "string" do
    character quote
    let parts ← many (leaf "string_fragment" (stringFragmentLength quote) <|> escape)
    character quote
    return parts

def string : Reading Cst :=
  stringWith '"' <|> stringWith '\''

def regex : Reading Cst :=
  spanned "regex" do
    character '/'
    let pattern ← filling "pattern" (leaf "regex_pattern" (patternLength false))
    character '/'
    let flags ← maybe (filling "flags" (leaf "regex_flags" flagsLength))
    return pattern :: flags.toList

def substitution (rules : Rules) : Reading Cst := do
  let start ← get
  character '$'
  character '\x7b'
  let inner ← rules .sequence
  symbol "\x7d"
  return tree "template_substitution" start (← get) [inner]

def template (rules : Rules) : Reading Cst :=
  spanned "template_string" do
    character '`'
    let parts ← many (leaf "string_fragment" templateFragmentLength <|> escape <|> substitution rules)
    character '`'
    return parts

def propertyName (rules : Rules) : Reading Cst :=
  anyName "property_identifier" <|> privateName <|> string <|> number <|>
    spanned "computed_property_name" (do
      symbol "["
      let inner ← rules .assignment
      symbol "]"
      return [inner])

def initializer (rules : Rules) (field : String) : Reading Cst := do
  symbol "="
  filling field (rules .assignment)

end ScriptMetrics.Script
