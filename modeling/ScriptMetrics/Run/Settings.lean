import ScriptMetrics.Files.Discovery
import ScriptMetrics.Text.Blank
import ScriptMetrics.Text.Elided

/-!
The settings of a run and their validation. Settings are given as named values; each field that
does not fit is reported, in the order of the fields.
-/

namespace ScriptMetrics

structure Settings where
  path : String := "."
  logLevel : Level := .warning
  logFile : Option String := none
  color : Bool := true
  search : Search := {}
deriving DecidableEq, Repr

inductive Problem where
  | notText
  | notFlag
  | unreadableFlag
  | notList
  | frozen
  /-- The value is of the right type and still refused. -/
  | refused (why : String)
deriving DecidableEq, Repr

namespace Problem

def code : Problem → String
  | notText => "string_type"
  | notFlag => "bool_type"
  | unreadableFlag => "bool_parsing"
  | notList => "tuple_type"
  | frozen => "frozen_instance"
  | refused _ => "value_error"

def message : Problem → String
  | notText => "Input should be a valid string"
  | notFlag => "Input should be a valid boolean"
  | unreadableFlag => "Input should be a valid boolean, unable to interpret input"
  | notList => "Input should be a valid tuple"
  | frozen => "Instance is frozen"
  | refused why => "Value error, " ++ why

end Problem

/-- A problem with a field, or with one position of a list in it, and the value that has it. -/
structure Issue where
  field : String
  position : Option Nat := none
  problem : Problem
  input : Value

namespace Issue

def location (issue : Issue) : String :=
  issue.field ++ issue.position.elim "" fun position => "." ++ toString position

/-- The value that has an issue, as messages show it. Command lines and environments hold only
texts, so nothing else needs to be shown. -/
def shown : Value → String
  | .text value => ", input_value=" ++ Text.elided (Text.quoted value) ++ ", input_type=str"
  | _ => ""

def text (issue : Issue) : String :=
  issue.location ++ "\n  " ++ issue.problem.message ++ " [type=" ++ issue.problem.code ++
    shown issue.input ++ "]"

def summary (issues : List Issue) : String :=
  let count := toString issues.length ++ " validation error" ++ (if issues.length == 1 then "" else "s")
  "\n".intercalate ((count ++ " for AnalyzerConfig") :: issues.map text)

end Issue

abbrev Checked (α : Type) := Except (List Issue) α

namespace Checked

/-- Both values, or all that is wrong with either. -/
def both {α β : Type} : Checked α → Checked β → Checked (α × β)
  | .ok a, .ok b => .ok (a, b)
  | .error a, .error b => .error (a ++ b)
  | .error a, .ok _ => .error a
  | .ok _, .error b => .error b

end Checked

namespace Settings

def checkText (field : String) : Value → Checked String
  | .text value => .ok value
  | input => .error [{ field, problem := .notText, input }]

def checkPath (value : Value) : Checked String := do
  let path ← checkText "path" value
  if Text.isBlankText path then
    throw [{ field := "path", problem := .refused "path must not be empty", input := value }]
  return path

def checkLogLevel (value : Value) : Checked Level := do
  let name ← checkText "log_level" value
  match Level.ofSetting? name with
  | some level => return level
  | none =>
      let why := "Invalid log level '" ++ name ++ "'. Must be one of DEBUG, INFO, WARNING, ERROR"
      throw [{ field := "log_level", problem := .refused why, input := value }]

def checkLogFile : Value → Checked (Option String)
  | .null => .ok none
  | value => some <$> checkText "log_file" value

def yes : List String :=
  ["1", "on", "t", "true", "y", "yes"]

def no : List String :=
  ["0", "off", "f", "false", "n", "no"]

/-- Flags are also read from zero, one, and the usual words in any case. -/
def checkColor : Value → Checked Bool
  | .flag value => .ok value
  | .number 0 => .ok false
  | .number 1 => .ok true
  | .text value =>
      let word := value.toLower
      if yes.contains word then .ok true
      else if no.contains word then .ok false
      else .error [{ field := "color", problem := .unreadableFlag, input := .text value }]
  | .number value => .error [{ field := "color", problem := .unreadableFlag, input := .number value }]
  | input => .error [{ field := "color", problem := .notFlag, input }]

/-- The texts of a list, or an issue for each item that is none, counted from the given position. -/
def checkItems (field : String) : Nat → List Value → Checked (List String)
  | _, [] => .ok []
  | position, .text value :: rest =>
      (checkItems field (position + 1) rest).map (value :: ·)
  | position, input :: rest =>
      let issue : Issue := { field, position := some position, problem := .notText, input }
      match checkItems field (position + 1) rest with
      | .ok _ => .error [issue]
      | .error issues => .error (issue :: issues)

def checkTexts (field : String) : Value → Checked (List String)
  | .list items => checkItems field 0 items
  | input => .error [{ field, problem := .notList, input }]

def given {α : Type} (fields : List (String × Value)) (name : String) (default : α)
    (check : Value → Checked α) : Checked α :=
  match fields.lookup name with
  | none => .ok default
  | some value => check value

/-- Settings from named values. Unknown names are passed over. -/
def validate (fields : List (String × Value)) : Checked Settings :=
  let base : Settings := {}
  let names := Checked.both (given fields "path" base.path checkPath)
    (given fields "log_level" base.logLevel checkLogLevel)
  let output := Checked.both (given fields "log_file" base.logFile checkLogFile)
    (given fields "color" base.color checkColor)
  let search := Checked.both (given fields "extensions" base.search.extensions (checkTexts "extensions"))
    (given fields "skip_directories" base.search.skipped (checkTexts "skip_directories"))
  (Checked.both names (Checked.both output search)).map
    fun ((path, logLevel), (logFile, color), (extensions, skipped)) =>
      { path, logLevel, logFile, color, search := { extensions, skipped } }

/-- Settings never change: setting any field is an issue. -/
def assign (field : String) (value : Value) : Issue :=
  { field, problem := .frozen, input := value }

end Settings

end ScriptMetrics
