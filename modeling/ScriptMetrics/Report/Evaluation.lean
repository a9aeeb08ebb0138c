import ScriptMetrics.Report.Severity

/-!
Rating a function: a severity for each metric, and a violation for each metric that goes beyond
its limit.
-/

namespace ScriptMetrics

structure Violation where
  functionName : String
  fileName : String
  startLine : Int
  metric : String
  value : Int
  severity : Option Severity
deriving DecidableEq, Repr

def limits : List (Metric × Int) :=
  [(.length, 100), (.nesting, 5), (.chains, 10)]

/-- Whether a value goes beyond the limit of a metric. A metric without a limit never does. -/
def exceedsLimit (metric : String) (value : Int) : Bool :=
  limits.any fun (limited, limit) => limited.name == metric && limit < value

structure Evaluation where
  record : FunctionRecord
  severity : Metric → Option Severity
  violations : List Violation

namespace FunctionRecord

def severity (record : FunctionRecord) (metric : Metric) : Option Severity :=
  Bands.standard.severity? metric.name (record.value metric)

def violation (record : FunctionRecord) (metric : Metric) : Violation where
  functionName := record.functionName
  fileName := record.fileName
  startLine := record.startLine
  metric := metric.name
  value := record.value metric
  severity := some ((record.severity metric).getD .low)

def violations (record : FunctionRecord) : List Violation :=
  let beyond := limits.map Prod.fst |>.filter fun metric => exceedsLimit metric.name (record.value metric)
  beyond.map record.violation

def evaluate (record : FunctionRecord) : Evaluation where
  record
  severity := record.severity
  violations := record.violations

end FunctionRecord

end ScriptMetrics
