import ScriptMetrics.Analysis.Error
import ScriptMetrics.Log.Event

/-!
Finding the source files under a path. Directories are listed depth first, names in order, and
names on the skip list are passed over at any depth. What happens on the way is noted as events.
-/

namespace ScriptMetrics

structure Search where
  extensions : List String := [".js"]
  skipped : List String := ["node_modules"]
deriving DecidableEq, Repr

namespace Search

def accepts (search : Search) (path : String) : Bool :=
  search.extensions.any fun extension => extension.toList.isSuffixOf path.toList

end Search

abbrev Noted := EStateM Interruption (Array Event)

namespace Noted

def note (event : Event) : Noted Unit := fun events => .ok () (events.push event)

end Noted

namespace Files

/-- How many directories deep a listing can go: between two links it stays within the deepest
place, and it follows no more links than one path may. -/
def deepest (files : Files) : Nat :=
  (files.linkLimit + 1) * ((files.stored.keys.map List.length).foldl max files.working.length + 1) + 1

def finderEvent (level : Level) (name : String) (fields : List (String × Value)) : Event :=
  { component := "complexity.file_finder", level, name, fields }

/-- The files in a directory and, within so many levels, in the directories below it. -/
def listFiles (files : Files) (search : Search) : Nat → String → Noted (List String)
  | 0, _ => pure []
  | levels + 1, directory =>
      match files.list directory with
      | .error fault => throw (.analysis (.unlistable directory fault))
      | .ok names => do
          let found ← (names.mergeSort (· ≤ ·)).mapM fun name => do
            let entry := Path.join directory name
            if search.skipped.contains name then
              Noted.note (finderEvent .debug "directory_skipped" [("directory", .text entry)])
              return []
            else if files.isDirectory entry then
              files.listFiles search levels entry
            else
              return [entry]
          return found.flatten

def discover (files : Files) (search : Search) (path : String) : Noted (List String) := do
  Noted.note (finderEvent .info "find_files_start"
    [("path", .text path), ("extensions", .list (search.extensions.map .text))])
  let all ← match files.look path with
    | .error fault => throw (.breakdown (.unseen path fault))
    | .ok none => throw (.analysis (.missingPath path))
    | .ok (some (.file _)) => pure [path]
    | .ok (some _) => files.listFiles search files.deepest path
  let found := all.filter search.accepts
  Noted.note (finderEvent .info "find_files_complete"
    [("total_found", .number all.length), ("after_filtering", .number found.length)])
  return found

end Files

end ScriptMetrics
