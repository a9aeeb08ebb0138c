import ScriptMetrics.Analysis.Error
import ScriptMetrics.Log.Event
import ScriptMetrics.Report.Basic
import ScriptMetrics.Syntax.Cst
import ScriptMetrics.Text.Lines

/-!
The workbench: where sources are parsed and analysed one after another. The grammar is loaded when
the first source needs it and kept from then on; an attempt that fails leaves the bench as it was,
so that the next source tries again.
-/

namespace ScriptMetrics

/-- What a grammar makes of a source. A source with errors still has a tree. -/
structure Parsed where
  tree : Cst
  hasErrors : Bool := false

/-- A grammar gives every source a tree. It is told how many sources it was given before, so that
recorded trees can be played back in order. -/
abbrev Grammar := Nat → String → Parsed

/-- The state of the work: the language, whether its grammar is loaded, how the load attempts to
come turn out (those not listed succeed), and what has been done. -/
structure Workbench where
  language : String := "javascript"
  ready : Bool := false
  loads : List (Option String) := []
  attempts : Array String := #[]
  parsed : Array String := #[]
  events : Array Event := #[]

/-- Work that may end an analysis. What was done until then stays done. -/
abbrev Work := EStateM Interruption Workbench

namespace Workbench

def note (event : Event) : Work Unit := fun bench =>
  .ok () { bench with events := bench.events.push event }

def parserEvent (level : Level) (name : String) (fields : List (String × Value)) : Event :=
  { component := "parser", level, name, fields }

/-- The outcome of the next load attempt: why it fails, if it does. -/
def nextLoad (bench : Workbench) : Option String :=
  bench.loads.head?.join

def load : Work Unit := fun bench =>
  if bench.ready then
    .ok () bench
  else
    let tried := { bench with loads := bench.loads.tail, attempts := bench.attempts.push bench.language }
    match bench.nextLoad with
    | none => .ok () { tried with ready := true }
    | some cause =>
        let event := parserEvent .error "grammar_load_failed"
          [("language", .text bench.language), ("error", .text cause)]
        .error (.analysis (.noGrammar bench.language cause)) { tried with events := bench.events.push event }

def parseSource (grammar : Grammar) (source path : String) : Work Arena := do
  load
  let bench ← get
  let parsed := grammar bench.parsed.size source
  set { bench with parsed := bench.parsed.push source }
  let arena := Arena.ofCst source.toUTF8 parsed.tree parsed.hasErrors
  if arena.hasErrors then
    note (parserEvent .warning "parse_recovered" [("file", .text path)])
  note (parserEvent .debug "parse_complete" [("file", .text path), ("nodes", .number arena.size)])
  return arena

end Workbench

namespace Files

/-- The text of a source file, with unified line ends and ill-formed parts replaced. -/
def readSource (files : Files) (path : String) : Except PathFault String := do
  let content ← files.read path
  return Text.unifyLineEnds (Utf8.decode content.data.toList)

end Files

namespace Workbench

/-- The arena of a source file. A file that cannot be read asks for no grammar. -/
def parseFile (files : Files) (grammar : Grammar) (path : String) : Work Arena := do
  match files.readSource path with
  | .error fault => throw (.analysis (.unreadable path fault))
  | .ok source => parseSource grammar source path

def functionEvent (record : FunctionRecord) : Event where
  component := "complexity.metrics"
  level := .debug
  name := "function_metrics_collected"
  fields := [
    ("file", .text record.fileName), ("function", .text record.functionName),
    ("start_line", .number record.startLine), ("cyclomatic", .number record.cyclomatic),
    ("nesting", .number record.nesting)]

def analyzeArena (arena : Arena) (path : String) : Work FileReport := do
  match arena.collect path with
  | .error fault => throw (.breakdown (.damagedTree fault))
  | .ok collection =>
      collection.functions.forM fun record => note (functionEvent record)
      return FileReport.ofCollection collection

def analyzeSource (grammar : Grammar) (source path : String) : Work FileReport := do
  analyzeArena (← parseSource grammar source path) path

def fileEvent (report : FileReport) (path : String) : Event where
  component := "complexity.analyze"
  level := .info
  name := "analyze_file_complete"
  fields := [
    ("file", .text path), ("functions", .number report.functions.length),
    ("strings", .number report.file.strings), ("imports", .number report.file.imports)]

def analyzeFile (files : Files) (grammar : Grammar) (path : String) : Work FileReport := do
  let report ← analyzeArena (← parseFile files grammar path) path
  note (fileEvent report path)
  return report

/-- Does some work as a bench would that has not loaded any grammar yet, and then goes on as before.
Load attempts count for both. -/
def apart {α : Type} (work : Work α) : Work α := fun bench =>
  let restore (after : Workbench) := { after with language := bench.language, ready := bench.ready }
  match work { bench with language := "javascript", ready := false } with
  | .ok result after => .ok result (restore after)
  | .error cause after => .error cause (restore after)

end Workbench

end ScriptMetrics
