import ScriptMetrics.Log.Event
import ScriptMetrics.Text.Quoted

/-!
The command line. Options may be abbreviated as long as only one is meant, and take their value
from the next argument or after an equals sign. The first other argument is the path. A bare double
dash makes whatever comes after it no option.

All arguments are classified before any takes effect, so an ambiguous option is refused even after
a request for help.
-/

namespace ScriptMetrics

namespace CommandLine

inductive Flag where
  | help
  | logLevel
  | logFile
  | noColor
deriving DecidableEq, Repr

namespace Flag

def title : Flag → String
  | help => "-h/--help"
  | logLevel => "--log-level"
  | logFile => "--log-file"
  | noColor => "--no-color"

end Flag

def spellings : List (String × Flag) :=
  [("-h", .help), ("--help", .help), ("--log-level", .logLevel), ("--log-file", .logFile),
    ("--no-color", .noColor)]

inductive Refusal where
  | ambiguous (typed : String) (meanings : List String)
  | unwantedValue (flag : Flag) (value : String)
  | missingValue (flag : Flag)
  | badLevel (value : String)
  | unrecognized (arguments : List String)
  /-- What the command line and the environment say together is not valid. -/
  | invalid (summary : String)
deriving DecidableEq, Repr

namespace Refusal

def choices : String :=
  ", ".intercalate (Level.settings.map fun (name, _) => Text.quoted name)

def message : Refusal → String
  | ambiguous typed meanings =>
      "ambiguous option: " ++ typed ++ " could match " ++ ", ".intercalate meanings
  | unwantedValue flag value =>
      "argument " ++ flag.title ++ ": ignored explicit argument " ++ Text.quoted value
  | missingValue flag => "argument " ++ flag.title ++ ": expected one argument"
  | badLevel value =>
      "argument " ++ Flag.logLevel.title ++ ": invalid choice: " ++ Text.quoted value ++
        " (choose from " ++ choices ++ ")"
  | unrecognized arguments => "unrecognized arguments: " ++ " ".intercalate arguments
  | invalid summary => summary

end Refusal

inductive Stop where
  | help
  | refused (why : Refusal)
deriving DecidableEq, Repr

inductive Token where
  /-- An option as typed, its spelling in full, and the value given with it. -/
  | option (flag : Flag) (spelling : String) (value : Option String)
  /-- Something that looks like an option and is none. -/
  | unknown (typed : String)
  | plain (text : String)
  | separator
deriving DecidableEq, Repr

/-- The name of an option and what comes after its first equals sign, if there is one. -/
def splitValue (typed : String) : String × Option String :=
  match typed.toList.span (· != '=') with
  | (_, []) => (typed, none)
  | (name, _ :: value) => (String.ofList name, some (String.ofList value))

/-- The options an argument may stand for. A single dash and letter may have a value right after
it; after two dashes any start of an option's name will do. -/
def meanings (typed : String) : List (String × Flag × Option String) :=
  if "--".toList.isPrefixOf typed.toList then
    let (name, value) := splitValue typed
    spellings.filterMap fun (spelling, flag) =>
      if name.toList.isPrefixOf spelling.toList then some (spelling, flag, value) else none
  else
    spellings.filterMap fun (spelling, flag) =>
      if spelling.toList == typed.toList.take 2 then
        some (spelling, flag, some (String.ofList (typed.toList.drop 2)))
      else if typed.toList.isPrefixOf spelling.toList then some (spelling, flag, none)
      else none

/-- A minus sign, digits, and possibly a fraction; a line end after them does not matter. -/
def isNegativeNumber (typed : String) : Bool :=
  let body := if typed.toList.getLast? == some '\n' then typed.toList.dropLast else typed.toList
  match body with
  | '-' :: digits =>
      match digits.span Char.isDigit with
      | ([], []) => false
      | (_, []) => true
      | (_, '.' :: fraction) => !fraction.isEmpty && fraction.all Char.isDigit
      | _ => false
  | _ => false

def classify (typed : String) : Except Refusal Token :=
  if typed.toList.head? != some '-' || typed == "-" then
    .ok (.plain typed)
  else
    match spellings.lookup typed with
    | some flag => .ok (.option flag typed none)
    | none =>
        let (name, value) := splitValue typed
        match spellings.lookup name, value with
        | some flag, some value => .ok (.option flag name (some value))
        | _, _ =>
            match meanings typed with
            | [(spelling, flag, value)] => .ok (.option flag spelling value)
            | [] =>
                if isNegativeNumber typed || typed.toList.contains ' ' then .ok (.plain typed)
                else .ok (.unknown typed)
            | many => .error (.ambiguous typed (many.map Prod.fst))

def tokens : List String → Except Refusal (List Token)
  | [] => .ok []
  | "--" :: rest => .ok (.separator :: rest.map .plain)
  | typed :: rest => do
      let first ← classify typed
      return first :: (← tokens rest)

end CommandLine

/-- What a command line says. A level or file that is not given is left to the environment. -/
structure Arguments where
  path : Option String := none
  logLevel : Option String := none
  logFile : Option String := none
  noColor : Bool := false
  /-- What is neither the path nor an option. -/
  extras : List String := []
deriving DecidableEq, Repr

namespace CommandLine

/-- Asking for help. Behind a single dash the letter may be repeated. -/
def askHelp (spelling : String) : Option String → Stop
  | none => .help
  | some value =>
      let rest := if spelling == "-h" then value.toList.dropWhile (· == 'h') else value.toList
      if rest.isEmpty && value != "" && spelling == "-h" then .help
      else .refused (.unwantedValue .help (String.ofList rest))

/-- A given value. A double dash stands for none. -/
def setValue (flag : Flag) (value : String) (arguments : Arguments) : Except Stop Arguments :=
  let given := if value == "--" then none else some value
  match flag with
  | .logLevel =>
      match given with
      | some name =>
          if Level.settings.any (·.1 == name) then .ok { arguments with logLevel := given }
          else .error (.refused (.badLevel name))
      | none => .ok { arguments with logLevel := none }
  | .logFile => .ok { arguments with logFile := given }
  | _ => .error (.refused (.unwantedValue flag value))

def take : List Token → Arguments → Except Stop Arguments
  | [], arguments => .ok arguments
  | .unknown typed :: rest, arguments =>
      take rest { arguments with extras := arguments.extras ++ [typed] }
  | .separator :: rest, arguments =>
      match arguments.path, rest with
      | none, .plain text :: rest => take rest { arguments with path := some text }
      | none, rest => take rest arguments
      | some _, rest => take rest { arguments with extras := arguments.extras ++ ["--"] }
  | .plain text :: rest, arguments =>
      match arguments.path, rest with
      | none, .separator :: rest => take rest { arguments with path := some text }
      | none, rest => take rest { arguments with path := some text }
      | some _, rest => take rest { arguments with extras := arguments.extras ++ [text] }
  | .option .help spelling value :: _, _ => .error (askHelp spelling value)
  | .option .noColor _ none :: rest, arguments => take rest { arguments with noColor := true }
  | .option .noColor _ (some value) :: _, _ => .error (.refused (.unwantedValue .noColor value))
  | .option flag _ (some value) :: rest, arguments => do take rest (← setValue flag value arguments)
  | .option flag _ none :: .plain value :: rest, arguments => do
      take rest (← setValue flag value arguments)
  | .option flag _ none :: _, _ => .error (.refused (.missingValue flag))

def parse (arguments : List String) : Except Stop Arguments :=
  match tokens arguments with
  | .error why => .error (.refused why)
  | .ok tokens =>
      match take tokens {} with
      | .error stop => .error stop
      | .ok taken =>
          if taken.extras.isEmpty then .ok taken
          else .error (.refused (.unrecognized taken.extras))

def usage : String :=
  "usage: js-static-analyzer [-h] [--log-level LEVEL] [--log-file PATH]\n" ++
  "                          [--no-color]\n" ++
  "                          [path]\n"

def helpText : String :=
  usage ++ "
Static complexity metrics for JavaScript source files

positional arguments:
  path               File or directory to analyze (default: current directory)

options:
  -h, --help         show this help message and exit
  --log-level LEVEL  Logging level (DEBUG, INFO, WARNING, ERROR). Can also be
                     set via LOG_LEVEL env var. Default: WARNING
  --log-file PATH    Path to log file (logs to stderr by default). Can also be
                     set via LOG_FILE env var.
  --no-color         Disable ANSI colors in the report. Can also be set via
                     NO_COLOR env var.

environment variables:
  LOG_LEVEL          Logging level: DEBUG, INFO, WARNING, ERROR (default: WARNING)
  LOG_FILE           Path to log file (logs to stderr by default)
  NO_COLOR           Disable ANSI colors when set to any value
  SENTRY_DSN         Report fatal errors to Sentry

exit status:
  0 no violations, 1 violations found, 2 analysis error
        \n"

def refusalText (why : Refusal) : String :=
  usage ++ "js-static-analyzer: error: " ++ why.message ++ "\n"

end CommandLine

end ScriptMetrics
