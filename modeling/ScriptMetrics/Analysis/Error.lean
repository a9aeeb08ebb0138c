import ScriptMetrics.Files.Basic
import ScriptMetrics.Syntax.Arena

/-!
What breaks off an analysis: an error of the analyzer, which a run answers with a message and a status,
or something that the analyzer does not account for.
-/

namespace ScriptMetrics

inductive AnalysisError where
  /-- Nothing stands at the path to analyse. -/
  | missingPath (path : String)
  | unlistable (directory : String) (fault : PathFault)
  | unreadable (path : String) (fault : PathFault)
  | noGrammar (language cause : String)
deriving DecidableEq, Repr

namespace AnalysisError

def title : AnalysisError → String
  | missingPath _ => "AnalysisPathError"
  | unlistable _ _ => "AnalysisPathError"
  | unreadable _ _ => "SourceReadError"
  | noGrammar _ _ => "ParserUnavailableError"

def message : AnalysisError → String
  | missingPath path => "Path does not exist: " ++ path
  | unlistable directory fault => "Cannot list directory (" ++ fault.reason ++ "): " ++ directory
  | unreadable path fault => "Failed to read source file: " ++ path ++ " (" ++ fault.reason ++ ")"
  | noGrammar language cause =>
      "tree-sitter grammar for '" ++ language ++ "' is not available: " ++ cause

end AnalysisError

/-- What the analyzer does not account for. -/
inductive Breakdown where
  /-- It cannot be told whether anything stands at a path. -/
  | unseen (path : String) (fault : PathFault)
  /-- A tree cannot be walked to its end. -/
  | damagedTree (fault : Fault)
deriving DecidableEq, Repr

namespace Breakdown

def message : Breakdown → String
  | unseen path fault => fault.message (Path.tidyText path)
  | damagedTree .outOfRange => "tuple index out of range"
  | damagedTree .endless => "maximum recursion depth exceeded"

end Breakdown

inductive Interruption where
  | analysis (error : AnalysisError)
  | breakdown (cause : Breakdown)
deriving DecidableEq, Repr

end ScriptMetrics
