import ScriptMetrics.Syntax.Arena

/-!
The kinds of node that the metrics tell apart. Everything else about the grammar is left open: a
kind that no list names is carried along and means nothing in particular.
-/

namespace ScriptMetrics

namespace Kind

def declarations : List String :=
  ["function_declaration", "generator_function_declaration"]

/-- Function expressions end a message chain; arrow functions do not. -/
def functionExpressions : List String :=
  ["function_expression", "function", "generator_function"]

def decisions : List String :=
  ["if_statement", "for_statement", "while_statement", "for_in_statement", "do_statement"]

def identifiers : List String :=
  ["identifier", "property_identifier", "shorthand_property_identifier",
    "shorthand_property_identifier_pattern", "statement_identifier", "undefined"]

def memberAccesses : List String :=
  ["member_expression", "subscript_expression"]

/-- Literals: indexing by one of them is no link of a message chain. -/
def literals : List String :=
  ["number", "string", "true", "false", "null", "regex"]

def logicalOperators : List String :=
  ["&&", "||", "??"]

end Kind

namespace Node

def isDeclaration (node : Node) : Bool :=
  Kind.declarations.contains node.kind

def isFunctionExpression (node : Node) : Bool :=
  Kind.functionExpressions.contains node.kind

def isMemberAccess (node : Node) : Bool :=
  Kind.memberAccesses.contains node.kind

def isCall (node : Node) : Bool :=
  node.kind == "call_expression"

def isConditional (node : Node) : Bool :=
  node.kind == "if_statement"

/-- Conditionals and loops; running over the values of a collection is no decision. -/
def isDecision (node : Node) : Bool :=
  Kind.decisions.contains node.kind &&
    !(node.kind == "for_in_statement" && node.operator == some "of")

def isLogical (node : Node) : Bool :=
  node.kind == "binary_expression" && node.operator.any Kind.logicalOperators.contains

def isString (node : Node) : Bool :=
  node.kind == "string"

/-- The operator or name a node adds to the vocabulary. Empty ones add nothing. -/
def symbol? (node : Node) : Option String :=
  let operator := if node.kind == "binary_expression" then node.operator.filter (· ≠ "") else none
  let name := if Kind.identifiers.contains node.kind then node.text.filter (· ≠ "") else none
  operator <|> name

end Node

end ScriptMetrics
