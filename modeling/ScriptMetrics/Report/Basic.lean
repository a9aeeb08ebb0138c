import ScriptMetrics.Metrics.Collect
import ScriptMetrics.Report.Evaluation

/-!
The report of a run: files in the order they were analysed, all violations, and whether the run
passed.
-/

namespace ScriptMetrics

structure FileReport where
  file : FileRecord
  functions : List Evaluation := []

namespace FileReport

def hasFunctions (report : FileReport) : Bool :=
  !report.functions.isEmpty

def ofCollection (collection : Collection) : FileReport where
  file := collection.file
  functions := collection.functions.map FunctionRecord.evaluate

def violations (report : FileReport) : List Violation :=
  report.functions.flatMap Evaluation.violations

end FileReport

inductive Outcome where
  | passed
  | failed
deriving DecidableEq, Repr

namespace Outcome

def name : Outcome → String
  | passed => "passed"
  | failed => "failed"

def ofName? (name : String) : Option Outcome :=
  [passed, failed].find? (·.name == name)

def exitCode : Outcome → Nat
  | passed => 0
  | failed => 1

end Outcome

structure Report where
  files : List FileReport
  violations : List Violation
  outcome : Outcome

namespace Report

def functionCount (report : Report) : Nat :=
  (report.files.flatMap fun file => file.functions).length

/-- A run fails by its violations alone; files without functions never matter. -/
def ofFiles (files : List FileReport) : Report :=
  let violations := files.flatMap FileReport.violations
  { files, violations, outcome := if violations.isEmpty then .passed else .failed }

end Report

end ScriptMetrics
