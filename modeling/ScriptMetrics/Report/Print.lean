import ScriptMetrics.Report.Basic

/-!
The printed report: a block for each file, each function and each violation. Colour codes are laid
around some of the words and never change anything else.
-/

namespace ScriptMetrics

namespace Style

def escape (number : String) : String :=
  "\x1b[" ++ number ++ "m"

def reset : String := escape "0"
def bold : String := escape "1"
def underline : String := escape "4"
def red : String := escape "31"
def green : String := escape "32"
def yellow : String := escape "33"
def magenta : String := escape "35"
def cyan : String := escape "36"
def onRed : String := escape "41"
def onGreen : String := escape "42"
def onBlue : String := escape "44"
def onMagenta : String := escape "45"

end Style

/-- Lays codes around a text, where colour is wanted and there are any. -/
def paint (color : Bool) (codes : List String) (text : String) : String :=
  if color && !codes.isEmpty then String.join codes ++ text ++ Style.reset else text

def Severity.color : Severity → String
  | .low => Style.green
  | .medium => Style.yellow
  | .high => Style.red

def Metric.label : Metric → String
  | .parameters => "Parameters"
  | .length => "Length"
  | .cyclomatic => "Cyclomatic"
  | .halstead => "Halstead"
  | .nesting => "MaxNestingDepth"
  | .conditions => "MaxConditions"
  | .chains => "MaxMessageChains"

def printValue (color : Bool) (value : Int) (severity : Option Severity) : String :=
  match severity with
  | none => toString value
  | some severity => paint color [severity.color] (toString value)

def printHeading (color : Bool) (name : String) (line : Int) : String :=
  paint color [Style.cyan, Style.underline] name ++ "(): at line #" ++ toString line

namespace Evaluation

def printMetric (color : Bool) (evaluation : Evaluation) (metric : Metric) : String :=
  metric.label ++ ": " ++ printValue color (evaluation.record.value metric) (evaluation.severity metric)

/-- A function's block: its heading, then the metrics two to a line. -/
def print (color : Bool) (evaluation : Evaluation) : String :=
  let cell := evaluation.printMetric color
  printHeading color evaluation.record.functionName evaluation.record.startLine ++ "\n"
    ++ cell .parameters ++ "\t" ++ cell .length ++ "\n"
    ++ cell .cyclomatic ++ "\t" ++ cell .halstead ++ "\n"
    ++ cell .nesting ++ "\t" ++ cell .conditions ++ "\n"
    ++ cell .chains ++ "\n"

end Evaluation

namespace FileRecord

def print (color : Bool) (record : FileRecord) : String :=
  let counter := paint color [Style.magenta, Style.underline]
  paint color [Style.onMagenta] record.fileName ++ "\n"
    ++ counter ("Packages: " ++ toString record.imports) ++ "\n"
    ++ counter ("Strings " ++ toString record.strings) ++ "\n"

end FileRecord

def printNoFunctions (color : Bool) : String :=
  paint color [Style.onBlue] "No Function Declaration Nodes Found" ++ "\n"

/-- A violation of something that is no metric cannot be printed. -/
structure UnknownMetric where
  name : String
deriving DecidableEq, Repr

namespace Violation

def print (color : Bool) (violation : Violation) : Except UnknownMetric String :=
  match Metric.ofName? violation.metric with
  | none => .error ⟨violation.metric⟩
  | some metric => .ok (
      printHeading color violation.functionName violation.startLine ++ " in " ++ violation.fileName ++ "\n"
        ++ metric.label ++ ": " ++ printValue color violation.value violation.severity ++ "\n")

end Violation

def printViolations (color : Bool) (violations : List Violation) : Except UnknownMetric String := do
  match violations with
  | [] => return paint color [Style.onGreen, Style.bold] "NO VIOLATIONS FOUND"
  | _ =>
      let blocks ← violations.mapM (Violation.print color)
      return "\n".intercalate (paint color [Style.onRed, Style.bold] "VIOLATIONS" :: blocks)

namespace FileReport

def blocks (color : Bool) (report : FileReport) : List String :=
  report.file.print color ::
    (if report.hasFunctions then report.functions.map (Evaluation.print color) else [printNoFunctions color])

end FileReport

namespace Report

/-- The whole report, a line feed after each block. -/
def print (color : Bool) (report : Report) : Except UnknownMetric String := do
  let closing ← printViolations color report.violations
  let blocks := report.files.flatMap (FileReport.blocks color) ++ [closing]
  return String.join (blocks.map (·.push '\n'))

end Report

end ScriptMetrics
