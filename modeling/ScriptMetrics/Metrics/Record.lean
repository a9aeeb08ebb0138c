/-!
What is recorded about a function declaration and about a file.
-/

namespace ScriptMetrics

/-- The seven numbers measured on a function, in the order reports show them. -/
inductive Metric where
  | parameters
  | length
  | cyclomatic
  | halstead
  | nesting
  | conditions
  | chains
deriving DecidableEq, Repr

namespace Metric

def all : List Metric :=
  [parameters, length, cyclomatic, halstead, nesting, conditions, chains]

def name : Metric → String
  | parameters => "parameter_count"
  | length => "length"
  | cyclomatic => "cyclomatic_complexity"
  | halstead => "halstead"
  | nesting => "max_nesting_depth"
  | conditions => "max_conditions"
  | chains => "max_message_chains"

def ofName? (name : String) : Option Metric :=
  all.find? (·.name == name)

end Metric

/-- The metrics of one function declaration. A frozen record is complete. -/
structure FunctionRecord where
  fileName : String
  functionName : String
  startLine : Int := 0
  parameters : Int := 0
  length : Int := 0
  cyclomatic : Int := 1
  halstead : Int := 0
  nesting : Int := 0
  conditions : Int := 0
  chains : Int := 0
  frozen : Bool := false
deriving DecidableEq, Repr

namespace FunctionRecord

def value (record : FunctionRecord) : Metric → Int
  | .parameters => record.parameters
  | .length => record.length
  | .cyclomatic => record.cyclomatic
  | .halstead => record.halstead
  | .nesting => record.nesting
  | .conditions => record.conditions
  | .chains => record.chains

end FunctionRecord

structure FileRecord where
  fileName : String
  strings : Int := 0
  imports : Int := 0
  frozen : Bool := false
deriving DecidableEq, Repr

end ScriptMetrics
