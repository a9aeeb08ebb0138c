import ScriptMetrics.Text.Quoted
import Std.Data.TreeMap

/-!
File stores: files, directories, symbolic links and devices under one root, with a working directory.

A path is resolved component by component from the working directory, or from the root if it is
absolute. Links are followed, up to a limit for the whole path; what resolution finds is a place,
the sequence of names from the root that leads there without links.
-/

namespace ScriptMetrics

abbrev Place := List String

/-- What writing to a device comes out at. Nothing is read from one. -/
inductive Device where
  | null
  | output
  | errors
deriving DecidableEq, Repr

inductive Stored where
  | file (content : ByteArray)
  | directory
  | link (target : String)
  | device (device : Device)

inductive PathFault where
  | missing
  | denied
  | notDirectory
  | isDirectory
  | nameTooLong
  | tooManyLinks
  | nullByte
deriving DecidableEq, Repr

namespace PathFault

/-- The system's number of a fault. A path with a null byte in it never gets to the system. -/
def number? : PathFault → Option Nat
  | missing => some 2
  | denied => some 13
  | notDirectory => some 20
  | isDirectory => some 21
  | nameTooLong => some 36
  | tooManyLinks => some 40
  | nullByte => none

def reason : PathFault → String
  | missing => "No such file or directory"
  | denied => "Permission denied"
  | notDirectory => "Not a directory"
  | isDirectory => "Is a directory"
  | nameTooLong => "File name too long"
  | tooManyLinks => "Too many levels of symbolic links"
  | nullByte => "embedded null byte"

def message (fault : PathFault) (path : String) : String :=
  match fault.number? with
  | some number => "[Errno " ++ toString number ++ "] " ++ fault.reason ++ ": " ++ Text.quoted path
  | none => fault.reason

/-- A fault on the way of a path that says that nothing stands at its end. The others leave that open. -/
def saysAbsent : PathFault → Bool
  | missing | notDirectory | tooManyLinks | nullByte => true
  | denied | isDirectory | nameTooLong => false

end PathFault

structure Rules where
  /-- Directories whose names cannot be read. -/
  unlistable : List Place := []
  /-- Directories that no path may go through. -/
  unsearchable : List Place := []
  unreadable : List Place := []
  /-- What cannot be opened for writing, and directories in which nothing can be made. -/
  unwritable : List Place := []
  /-- What can be opened for writing and then takes nothing. -/
  full : List Place := []
  /-- The most links followed on the way of one path. -/
  linkLimit : Nat := 40
  nameLimit : Nat := 255
  /-- A path has to be shorter than this, which leaves room for a mark at its end. -/
  pathLimit : Nat := 4096

/-- A file store. The root and the working directory need no entry to be directories. -/
structure Files extends Rules where
  stored : Std.TreeMap Place Stored := ∅
  working : Place := []
  /-- The order in which the directory that a path leads to gives its names. -/
  order : String → List String → List String := fun _ names => names
  order_perm : ∀ path names, (order path names).Perm names := by
    intro _ names
    exact List.Perm.refl names

inductive Found where
  | at (place : Place) (stored : Stored)
  | free (place : Place)

/-- Where one component takes a way: on to a place, to a link with components of its own, or to a free
place. -/
inductive Turn where
  | go (place : Place)
  | jump (place : Place) (target : List String)
  | free (place : Place)

namespace Path

def components (path : String) : List String :=
  (path.toList.splitOn '/').map String.ofList

def isAbsolute (path : String) : Bool :=
  path.toList.head? == some '/'

/-- The components that name something: neither empty nor a dot. -/
def tidy (path : String) : List String :=
  (components path).filter fun name => name != "" && name != "."

/-- Two slashes at the start of a path are kept; any other number of them becomes one. -/
def slashes (path : String) : Nat :=
  match path.toList with
  | '/' :: '/' :: '/' :: _ => 1
  | '/' :: '/' :: _ => 2
  | '/' :: _ => 1
  | _ => 0

def tidyText (path : String) : String :=
  let text := "".pushn '/' (slashes path) ++ "/".intercalate (tidy path)
  if text == "" then "." else text

def join (directory name : String) : String :=
  if directory == "" || directory.toList.getLast? == some '/' then directory ++ name
  else directory ++ "/" ++ name

end Path

namespace Rules

def pathFault? (rules : Rules) (path : String) : Option PathFault :=
  if path.toList.contains '\x00' then some .nullByte
  else if rules.pathLimit ≤ path.utf8ByteSize then some .nameTooLong
  else none

end Rules

namespace Files

def get? (files : Files) (place : Place) : Option Stored :=
  match files.stored[place]? with
  | some stored => some stored
  | none => if place = [] ∨ place = files.working then some .directory else none

/-- What one component does at a place. Every component needs a directory to stand in, and all but the
empty one need that directory to be searchable. -/
def turn (files : Files) (here : Place) (name : String) : Except PathFault Turn :=
  match files.get? here with
  | some .directory =>
      if name == "" then
        .ok (.go here)
      else if here ∈ files.unsearchable then
        .error .denied
      else if name == "." then
        .ok (.go here)
      else if name == ".." then
        .ok (.go here.dropLast)
      else if files.nameLimit < name.utf8ByteSize then
        .error .nameTooLong
      else
        match files.get? (here ++ [name]) with
        | some (.link target) =>
            .ok (.jump (if Path.isAbsolute target then [] else here) (Path.components target))
        | some _ => .ok (.go (here ++ [name]))
        | none => .ok (.free (here ++ [name]))
  | some _ => .error .notDirectory
  | none => .error .missing

/-- Follows components from a place, with so many links left. -/
def follow (files : Files) (links : Nat) (here : Place) : List String → Except PathFault Found
  | [] =>
      match files.get? here with
      | some stored => .ok (.at here stored)
      | none => .error .missing
  | name :: rest =>
      match files.turn here name with
      | .error fault => .error fault
      | .ok (.go next) => files.follow links next rest
      | .ok (.jump next target) =>
          if links = 0 then .error .tooManyLinks
          else files.follow (links - 1) next (target ++ rest)
      | .ok (.free place) => if rest.isEmpty then .ok (.free place) else .error .missing
termination_by components => (links, components.length)

def start (files : Files) (path : String) : Place :=
  if Path.isAbsolute path then [] else files.working

def resolve (files : Files) (path : String) : Except PathFault Found :=
  if path == "" then
    .error .missing
  else
    match files.pathFault? path with
    | some fault => .error fault
    | none => files.follow files.linkLimit (files.start path) (Path.components path)

/-- Where a path leads if only the components that name something count. -/
def resolveTidy (files : Files) (path : String) : Except PathFault Found :=
  match files.pathFault? (Path.tidyText path) with
  | some fault => .error fault
  | none => files.follow files.linkLimit (files.start path) (Path.tidy path)

def isDirectory (files : Files) (path : String) : Bool :=
  match files.resolve path with
  | .ok (.at _ .directory) => true
  | _ => false

/-- What a tidied path leads to, if anything, unless that cannot be told. -/
def look (files : Files) (path : String) : Except PathFault (Option Stored) :=
  match files.resolveTidy path with
  | .ok (.at _ stored) => .ok (some stored)
  | .ok (.free _) => .ok none
  | .error fault => if fault.saysAbsent then .ok none else .error fault

def namesIn (files : Files) (directory : Place) : List String :=
  files.stored.keys.filterMap fun place =>
    if place.dropLast = directory then place.getLast? else none

def list (files : Files) (path : String) : Except PathFault (List String) :=
  match files.resolve path with
  | .error fault => .error fault
  | .ok (.free _) => .error .missing
  | .ok (.at place .directory) =>
      if place ∈ files.unlistable then .error .denied else .ok (files.order path (files.namesIn place))
  | .ok (.at _ _) => .error .notDirectory

def read (files : Files) (path : String) : Except PathFault ByteArray :=
  match files.resolveTidy path with
  | .error fault => .error fault
  | .ok (.at place (.file content)) => if place ∈ files.unreadable then .error .denied else .ok content
  | .ok (.at place (.device _)) => if place ∈ files.unreadable then .error .denied else .ok .empty
  | .ok (.at _ .directory) => .error .isDirectory
  | .ok (.at _ (.link _)) => .error .tooManyLinks
  | .ok (.free _) => .error .missing

/-- Finds or makes what a path names, for writing at its end. A path that ends in a slash can only name a
directory. -/
def openAppend (files : Files) (path : String) : Except PathFault (Place × Files) :=
  let trailing := path.toList.getLast? == some '/'
  match files.resolve path, trailing with
  | .ok (.free place), false =>
      if place.dropLast ∈ files.unwritable ∨ place ∈ files.unwritable then .error .denied
      else .ok (place, { files with stored := files.stored.insert place (.file .empty) })
  | .ok (.at place (.file _)), false
  | .ok (.at place (.device _)), false =>
      if place ∈ files.unwritable then .error .denied else .ok (place, files)
  | .ok _, _ => .error .isDirectory
  | .error fault, false => .error fault
  | .error fault, true =>
      let names := (Path.components path).reverse.dropWhile (· == "") |>.reverse
      match files.pathFault? path, files.follow files.linkLimit (files.start path) (names.dropLast ++ ["."]) with
      | none, .ok _ => .error .isDirectory
      | _, _ => .error fault

/-- Writes text at the end of the file at a place, unless it takes nothing. A device keeps nothing of it. -/
def append (files : Files) (place : Place) (text : String) : Option Files :=
  if place ∈ files.full then
    none
  else
    match files.stored[place]? with
    | some (.file content) =>
        some { files with stored := files.stored.insert place (.file (content ++ text.toUTF8)) }
    | _ => some files

def system (working : Place) : Files where
  working
  full := [["dev", "full"]]
  stored := ((∅ : Std.TreeMap Place Stored).insert ["dev"] .directory).insert ["dev", "full"] (.device .null)
    |>.insert ["dev", "null"] (.device .null) |>.insert ["dev", "stdout"] (.device .output)
    |>.insert ["dev", "stderr"] (.device .errors)

end Files

end ScriptMetrics
