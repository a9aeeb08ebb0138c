import ScriptMetrics.Run.Basic
import ScriptMetrics.Script.Grammar
import Std.Time.Format

/-!
The command line. What a run can reach of the file system is taken into a store, the run works on
that store, and what it has written is then carried out. Crash reports are recorded and not sent.
-/

namespace ScriptMetrics.Host

def watched : List String :=
  ["LOG_LEVEL", "LOG_FILE", "NO_COLOR", "SENTRY_DSN", "SENTRY_ENVIRONMENT"]

def environment : IO (List (String × String)) := do
  let values ← watched.mapM fun name => return (← IO.getEnv name).map (name, ·)
  return values.filterMap id

/-- The place that a path names if no links are on its way. -/
def placeOf (working : Place) (path : String) : Place :=
  let start := if Path.isAbsolute path then [] else working
  (Path.tidy path).foldl (fun here name => if name == ".." then here.dropLast else here ++ [name]) start

def put (files : Files) (place : Place) (stored : Stored) : Files :=
  let enclosed := (List.range place.length).foldl
    (fun stored depth => stored.insert (place.take depth) .directory) files.stored
  { files with stored := enclosed.insert place stored }

def dangling : Stored :=
  .link "/\x00"

def putUnreadable (files : Files) (place : Place) : Files :=
  let files := put files place (.file .empty)
  { files with unreadable := place :: files.unreadable }

/-- Takes what a path leads to into a store, and what is below it. A link is taken for what it leads
to. Only files that are looked for are read, and names that are skipped are not followed. -/
partial def take (search : Search) (path : String) (place : Place) (files : Files) : IO Files := do
  let target := (← IO.currentDir) / path
  match ← target.metadata.toBaseIO with
  | .error (.noFileOrDirectory ..) => return put files place dangling
  | .error (.permissionDenied ..) => return putUnreadable files place
  | .error _ => return put files place (.link (place.getLastD ""))
  | .ok found =>
      if found.type == .dir then
        let files := put files place .directory
        match ← target.readDir.toBaseIO with
        | .error _ => return { files with unlistable := place :: files.unlistable }
        | .ok entries =>
            entries.foldlM (fun files entry =>
              let name := entry.fileName
              if search.skipped.contains name then
                return put files (place ++ [name]) .directory
              else
                take search (Path.join path name) (place ++ [name]) files) files
      else if search.accepts path then
        match ← (IO.FS.readBinFile target).toBaseIO with
        | .error _ => return putUnreadable files place
        | .ok content => return put files place (.file content)
      else
        return put files place (.file .empty)

/-- Takes in what stands where a log file is to be, without its content, or the directory that it is
to be made in. -/
def takeLog (working : Place) (path : String) (files : Files) : IO Files := do
  let place := placeOf working path
  let here ← IO.currentDir
  if (files.get? place).isSome then
    return files
  else if ← (here / path).isDir then
    return put files place .directory
  else if ← (here / path).pathExists then
    return put files place (.file .empty)
  else if ← (here / ("/" ++ "/".intercalate place.dropLast)).isDir then
    return put files place.dropLast .directory
  else
    return files

def timestamp : IO String := do
  let now := Std.Time.DateTime.ofTimestampWithZone (← Std.Time.Timestamp.now) .UTC
  return now.format "uuuu-MM-dd'T'HH:mm:ss.SSSSSS'Z'"

/-- Takes in the path to analyse. Where a directory on its way cannot be searched, that is what is taken. -/
def takePath (settings : Settings) (working : Place) (files : Files) : IO Files := do
  let place := placeOf working settings.path
  match ← ((← IO.currentDir) / settings.path).metadata.toBaseIO with
  | .ok _ => take settings.search settings.path place files
  | .error (.permissionDenied ..) =>
      let files := put files place.dropLast .directory
      return { files with unsearchable := place.dropLast :: files.unsearchable }
  | .error _ => return files

def filesFor (arguments : List String) (session : Session) (working : Place) : IO Files := do
  let files := put (.system working) working .directory
  match CommandLine.parse arguments with
  | .error _ => return files
  | .ok given =>
      match given.settings session with
      | .error _ => return files
      | .ok settings =>
          let files ← takePath settings working files
          match settings.logFile with
          | none => return files
          | some path => takeLog working path files

def contentAt (files : Files) (place : Place) : ByteArray :=
  match files.get? place with
  | some (.file content) => content
  | _ => .empty

def carryOut (before : Files) (session : Session) : IO Unit := do
  (← IO.getStderr).putStr session.journal.errors
  (← IO.getStdout).putStr session.output
  match session.journal.logging.sink with
  | .file place =>
      let content := contentAt session.journal.files place
      let added := content.extract (contentAt before place).size content.size
      if (before.get? place).isNone || !added.isEmpty then
        IO.FS.withFile ("/" ++ "/".intercalate place) .append (·.write added)
  | _ => return

end ScriptMetrics.Host

open ScriptMetrics in
/-- Runs a command line. A run that escapes ends with status 1. -/
def main (arguments : List String) : IO UInt32 := do
  let working := Path.tidy (← IO.currentDir).toString
  let start : Session := { environment := ← Host.environment }
  let files ← Host.filesFor arguments start working
  let journal : Journal := { files, now := ← Host.timestamp }
  match run arguments Script.grammar {} { start with journal } with
  | .ok (status, _) session =>
      Host.carryOut files session
      return status.toUInt32
  | .error cause session =>
      Host.carryOut files session
      (← IO.getStderr).putStrLn cause.message
      return 1
