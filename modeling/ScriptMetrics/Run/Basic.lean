import ScriptMetrics.Analysis.Workbench
import ScriptMetrics.Report.Print
import ScriptMetrics.Run.CommandLine
import ScriptMetrics.Run.Session
import ScriptMetrics.Run.Settings

/-!
A run from the command line: settle the settings, find the files, analyse them one after another,
print the report. An analysis that cannot be completed prints no report at all.
-/

namespace ScriptMetrics

/-- What a run goes by, from the command line first and the environment second. -/
def Arguments.settings (arguments : Arguments) (session : Session) : Checked Settings :=
  let nonEmpty (value : Option String) := value.filter (· != "")
  let level := (nonEmpty arguments.logLevel).getD ((session.env? "LOG_LEVEL").getD "WARNING")
  let file := (nonEmpty arguments.logFile).or (session.env? "LOG_FILE")
  let noColor := arguments.noColor || (nonEmpty (session.env? "NO_COLOR")).isSome
  Settings.validate [
    ("path", .text (arguments.path.getD ".")), ("log_level", .text level),
    ("log_file", file.elim .null .text), ("color", .flag !noColor)]

namespace Run

abbrev Settled := Except Nat Settings

def stop : CommandLine.Stop → Running Settled
  | .help => do
      Session.write CommandLine.helpText
      return .error 0
  | .refused why => do
      Session.complain (CommandLine.refusalText why)
      return .error 2

def configureLog (settings : Settings) : Running Unit := do
  Session.logging (Journal.configure settings.logLevel.setting settings.logFile)
  Session.emit {
    component := "config", level := .info, name := "config_resolved",
    fields := [
      ("path", .text settings.path), ("log_level", .text settings.logLevel.setting),
      ("color", .flag settings.color)] }

def settle (arguments : List String) : Running Settled := do
  match CommandLine.parse arguments with
  | .error why => stop why
  | .ok arguments =>
      match arguments.settings (← get) with
      | .error issues => stop (.refused (.invalid (Issue.summary issues)))
      | .ok settings =>
          configureLog settings
          return .ok settings

/-- Logs what some work has noted, and hands on what it came to. What the analyzer does not account for
ends the run. -/
def conclude {σ α : Type} (notes : σ → Array Event) :
    EStateM.Result Interruption σ α → Running (Except AnalysisError α × σ)
  | .ok result after => do
      Session.logging (Journal.emitAll (notes after).toList)
      return (.ok result, after)
  | .error (.analysis cause) after => do
      Session.logging (Journal.emitAll (notes after).toList)
      return (.error cause, after)
  | .error (.breakdown cause) after => do
      Session.logging (Journal.emitAll (notes after).toList)
      throw (.breakdown cause)

def discover (settings : Settings) : Running (Except AnalysisError (List String)) := do
  let files := (← get).journal.files
  let (found, _) ← conclude id (files.discover settings.search settings.path #[])
  return found

def analyzeNext (grammar : Grammar) (path : String) (bench : Workbench) :
    Running (Except AnalysisError FileReport × Workbench) := do
  let files := (← get).journal.files
  conclude Workbench.events (Workbench.analyzeFile files grammar path { bench with events := #[] })

/-- Analyses files in order up to the first that fails. -/
def analyzeAll (grammar : Grammar) :
    List String → Workbench → Running (Except AnalysisError (List FileReport) × Workbench)
  | [], bench => return (.ok [], bench)
  | path :: rest, bench => do
      match ← analyzeNext grammar path bench with
      | (.error cause, bench) => return (.error cause, bench)
      | (.ok report, bench) =>
          let (others, bench) ← analyzeAll grammar rest bench
          return (others.map (report :: ·), bench)

end Run

def Report.event (report : Report) : Event where
  component := "complexity.report"
  level := .info
  name := "report_complete"
  fields := [
    ("files", .number report.files.length), ("functions", .number report.functionCount),
    ("violations", .number report.violations.length), ("outcome", .text report.outcome.name)]

namespace Run

def analyze (settings : Settings) (grammar : Grammar) (bench : Workbench) :
    Running (Except AnalysisError Report × Workbench) := do
  match ← discover settings with
  | .error cause => return (.error cause, bench)
  | .ok paths =>
      match ← analyzeAll grammar paths bench with
      | (.error cause, bench) => return (.error cause, bench)
      | (.ok files, bench) =>
          let report := Report.ofFiles files
          Session.emit report.event
          return (.ok report, bench)

/-- Tells the log, the crash reporting service and standard error what ended an analysis. -/
def fail (settings : Settings) (cause : AnalysisError) : Running Nat := do
  Session.emit {
    component := "runner", level := .error, name := "analysis_failed",
    fields := [
      ("path", .text settings.path), ("error", .text cause.message), ("error_type", .text cause.title)] }
  Session.callCrashReporter (.capture cause.title settings.path)
  Session.complain ("ERROR: " ++ cause.message ++ "\n")
  return 2

def printReport (settings : Settings) (report : Report) : Running Unit :=
  match report.print settings.color with
  | .ok text => Session.write text
  | .error cause => throw (.rendering cause)

def settled (settings : Settings) (grammar : Grammar) (bench : Workbench) : Running (Nat × Workbench) := do
  let _ ← CrashReports.start serviceName
  Session.write "Parsing ast and running static analysis...\n"
  match ← analyze settings grammar bench with
  | (.error cause, bench) => return (← fail settings cause, bench)
  | (.ok report, bench) =>
      Session.write "Complete.\n\n"
      printReport settings report
      return (report.outcome.exitCode, bench)

end Run

/-- Runs a command line. Answers the exit status and the bench as the run leaves it. -/
def run (arguments : List String) (grammar : Grammar) (bench : Workbench) : Running (Nat × Workbench) := do
  match ← Run.settle arguments with
  | .error status => return (status, bench)
  | .ok settings => Run.settled settings grammar bench

end ScriptMetrics
