import ScriptMetrics.Analysis.Error
import ScriptMetrics.Log.Logging
import ScriptMetrics.Report.Print

/-!
The session of a run: the environment, the log with all that it can reach, and the crash reporting
service, of which nothing is known but that a call to it may fail.
-/

namespace ScriptMetrics

inductive CrashCall where
  | start (dsn environment : String) (debug attachStacktrace : Bool) (maxBreadcrumbs : Nat)
      (tracesSampleRate : String)
  | tag (key value : String)
  | capture (title path : String)
deriving DecidableEq, Repr

structure Session where
  environment : List (String × String) := []
  journal : Journal := {}
  crashCalls : Array CrashCall := #[]
  /-- Why the crash reporting service fails a call, if it does. -/
  crashFault : CrashCall → Option String := fun _ => none

inductive Escape where
  | logging (cause : LogError)
  | crashService (cause : String)
  | breakdown (cause : Breakdown)
  | rendering (cause : UnknownMetric)
deriving DecidableEq, Repr

namespace Escape

def message : Escape → String
  | logging cause => cause.message
  | crashService cause => cause
  | breakdown cause => cause.message
  | rendering cause => Text.quoted cause.name

end Escape

abbrev Running := EStateM Escape Session

namespace Session

def env? (session : Session) (name : String) : Option String :=
  session.environment.lookup name

def output (session : Session) : String :=
  session.journal.output

def logging {α : Type} (action : Journaled α) : Running α := fun session =>
  match action session.journal with
  | .ok result journal => .ok result { session with journal }
  | .error cause journal => .error (.logging cause) { session with journal }

def emit (event : Event) : Running Unit :=
  logging (Journal.emit event)

def write (text : String) : Running Unit :=
  modify fun session =>
    { session with journal := { session.journal with output := session.journal.output ++ text } }

def complain (text : String) : Running Unit :=
  modify fun session =>
    { session with journal := { session.journal with errors := session.journal.errors ++ text } }

def callCrashReporter (call : CrashCall) : Running Unit := fun session =>
  let called := { session with crashCalls := session.crashCalls.push call }
  match session.crashFault call with
  | none => .ok () called
  | some cause => .error (.crashService cause) called

end Session

def serviceName : String :=
  "js-static-analyzer"

namespace CrashReports

/-- What is attached to every crash report before it is sent: the service it comes from. -/
def tagReport (service : String) (members : List (String × Value)) : List (String × Value) :=
  let tags := match members.lookup "tags" with
    | some (.object tags) => tags
    | _ => []
  let tags := setMember (setMember tags "service" (.text service)) "component" (.text "cli")
  setMember members "tags" (.object tags)

/-- Starts crash reporting if the environment says where to. Answers whether it was started. -/
def start (service : String) : Running Bool := do
  let session ← get
  let dsn := (session.env? "SENTRY_DSN").getD ""
  if dsn == "" then
    return false
  let environment := (session.env? "SENTRY_ENVIRONMENT").getD "development"
  Session.callCrashReporter (.start dsn environment (environment == "development") true 50 "0.0")
  Session.callCrashReporter (.tag "service" service)
  Session.emit {
    component := "sentry", level := .info, name := "sentry_initialized",
    fields := [("service", .text service), ("environment", .text environment)] }
  return true

end CrashReports

end ScriptMetrics
