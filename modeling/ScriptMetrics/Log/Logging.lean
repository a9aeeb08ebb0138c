import ScriptMetrics.Files.Basic
import ScriptMetrics.Log.Event

/-!
The log of a session. Events from the configured level on are written as lines, to standard error
or to the end of a log file, which may be a device. Configuring the log closes the file of the
configuration before; where that fails, or the new file cannot be opened, that configuration stays
in force with its file closed. A line that the log file does not take is held back by it, and fails
again when the file is closed.
-/

namespace ScriptMetrics

inductive Sink where
  | standardError
  | file (place : Place)
  | closed
deriving DecidableEq, Repr

structure Logging where
  level : Level := .warning
  sink : Sink := .standardError
deriving DecidableEq, Repr

inductive LogError where
  | cannotOpen (path : String) (fault : PathFault)
  | closedFile
  | noSpace
deriving DecidableEq, Repr

namespace LogError

def message : LogError → String
  | cannotOpen path fault => fault.message path
  | closedFile => "I/O operation on closed file."
  | noSpace => "[Errno 28] No space left on device"

end LogError

/-- What a log line can reach: the files, standard output and standard error. -/
structure Journal where
  files : Files := {}
  output : String := ""
  errors : String := ""
  /-- The time that lines are stamped with. -/
  now : String := ""
  logging : Logging := {}
  /-- Where the log files stand that are open, the last opened first. -/
  opened : List Place := []
  /-- Whether the log file holds back what it did not take. -/
  stuck : Bool := false

abbrev Journaled := EStateM LogError Journal

namespace Journal

def hasOpenFile (journal : Journal) : Bool :=
  !journal.opened.isEmpty

def shut (journal : Journal) : Journal :=
  match journal.logging.sink with
  | .file place =>
      { journal with
        logging := { journal.logging with sink := .closed }
        opened := journal.opened.erase place
        stuck := false }
  | _ => journal

@[simp]
theorem shut_files (journal : Journal) : journal.shut.files = journal.files := by
  unfold shut
  split <;> rfl

@[simp]
theorem shut_output (journal : Journal) : journal.shut.output = journal.output := by
  unfold shut
  split <;> rfl

@[simp]
theorem shut_errors (journal : Journal) : journal.shut.errors = journal.errors := by
  unfold shut
  split <;> rfl

/-- Closes the log file, which fails if it still holds something back. -/
def close : Journaled Unit := fun journal =>
  if journal.stuck then .error .noSpace journal.shut else .ok () journal.shut

/-- Sets the level and the sink. A name that is no level means warnings. The old log file is closed
before the new one is opened. -/
def configure (level : String) (path : Option String) : Journaled Unit := do
  close
  fun shut =>
    let level := (Level.ofSetting? level).getD .warning
    match path with
    | none => .ok () { shut with logging := { level, sink := .standardError } }
    | some path =>
        match shut.files.openAppend path with
        | .error fault => .error (.cannotOpen path fault) shut
        | .ok (place, files) =>
            .ok () {
              shut with
              files
              logging := { level, sink := .file place }
              opened := place :: shut.opened }

def writeError (journal : Journal) (line : String) : Journal :=
  { journal with errors := journal.errors ++ line ++ "\n" }

/-- What is written at a place comes out at the device that stands there. -/
def echo (journal : Journal) (place : Place) (text : String) : Journal :=
  match journal.files.stored[place]? with
  | some (.device .output) => { journal with output := journal.output ++ text }
  | some (.device .errors) => { journal with errors := journal.errors ++ text }
  | _ => journal

def emit (event : Event) : Journaled Unit := fun journal =>
  if event.level.rank < journal.logging.level.rank then
    .ok () journal
  else
    let line := event.line journal.now
    match journal.logging.sink with
    | .standardError => .ok () (journal.writeError line)
    | .file place =>
        match journal.files.append place (line ++ "\n") with
        | none => .error .noSpace { journal with stuck := true }
        | some files => .ok () ({ journal with files }.echo place (line ++ "\n"))
    | .closed => .error .closedFile journal

def emitAll (events : List Event) : Journaled Unit :=
  events.forM emit

end Journal

end ScriptMetrics
