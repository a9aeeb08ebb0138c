import ScriptMetrics.Report.Attribute
import ScriptMetrics.Report.Evaluation
import ScriptMetrics.Text.Quoted

/-!
Ledgers of named records that are filled in attribute by attribute and then frozen. A record has a
value for each attribute its kind declares and may be given further ones until it is frozen; violations
never change at all.
-/

namespace ScriptMetrics

inductive SheetKind where
  | function
  | file
  | violation
deriving DecidableEq, Repr

namespace SheetKind

def title : SheetKind → String
  | function => "FunctionRecord"
  | file => "FileRecord"
  | violation => "Violation"

def declared : SheetKind → List (String × Option Atom)
  | function => [
      ("file_name", none), ("function_name", none), ("start_line", some (.number 0)),
      ("parameter_count", some (.number 0)), ("length", some (.number 0)),
      ("cyclomatic_complexity", some (.number 1)), ("halstead", some (.number 0)),
      ("max_nesting_depth", some (.number 0)), ("max_conditions", some (.number 0)),
      ("max_message_chains", some (.number 0))]
  | file => [("file_name", none), ("string_literal_count", some (.number 0)), ("import_count", some (.number 0))]
  | violation => [
      ("function_name", none), ("file_name", none), ("start_line", none), ("metric_name", none),
      ("metric_value", none), ("severity", none)]

end SheetKind

inductive LedgerError where
  | unknownRecord (name : String)
  | noAttribute (title key : String)
  | frozen (title key : String)
  | unchangeable (key : String)
  | derived (title key : String)
  | unexpected (title key : String)
  | missing (title : String) (keys : List String)
  | ofType (fault : TypeFault)
deriving DecidableEq, Repr

namespace LedgerError

def listed : List String → String
  | [] => ""
  | [key] => "'" ++ key ++ "'"
  | [first, second] => "'" ++ first ++ "' and '" ++ second ++ "'"
  | [first, second, third] => "'" ++ first ++ "', '" ++ second ++ "', and '" ++ third ++ "'"
  | first :: rest => "'" ++ first ++ "', " ++ listed rest

def message : LedgerError → String
  | unknownRecord name => Text.quoted name
  | noAttribute title key => "'" ++ title ++ "' object has no attribute '" ++ key ++ "'"
  | frozen title key => title ++ " is frozen; cannot set '" ++ key ++ "'"
  | unchangeable key => "cannot assign to field " ++ Text.quoted key
  | derived title key => "property '" ++ key ++ "' of '" ++ title ++ "' object has no setter"
  | unexpected title key => title ++ ".__init__() got an unexpected keyword argument '" ++ key ++ "'"
  | missing title keys =>
      let argument := if keys.length = 1 then "argument" else "arguments"
      title ++ ".__init__() missing " ++ toString keys.length ++ " required positional " ++ argument ++ ": " ++
        listed keys
  | ofType fault => fault.message

end LedgerError

/-- A record in the making: the declared attributes, others set on it, and whether it is closed. -/
structure Sheet where
  kind : SheetKind
  cells : List (String × Cell)
  extras : List (String × Cell) := []
  closed : Bool := false
deriving DecidableEq, Repr

namespace Sheet

def new (kind : SheetKind) (given : List (String × Cell)) : Except LedgerError Sheet :=
  let value (key : String) (default : Option Atom) : Option Cell := (given.lookup key).or (default.map .atom)
  match given.find? fun (key, _) => !kind.declared.any (·.1 == key) with
  | some (key, _) => .error (.unexpected kind.title key)
  | none =>
      match kind.declared.filter fun (key, default) => (value key default).isNone with
      | [] => .ok { kind, cells := kind.declared.filterMap fun (key, default) => (value key default).map (key, ·) }
      | missing => .error (.missing kind.title (missing.map Prod.fst))

/-- What an attribute holds. Violations do not tell whether they are closed. -/
def get? (sheet : Sheet) (key : String) : Option Cell :=
  if key == "frozen" && sheet.kind != .violation then some (.atom (.flag sheet.closed))
  else (sheet.cells.lookup key).or (sheet.extras.lookup key)

def get (sheet : Sheet) (key : String) : Except LedgerError Cell :=
  match sheet.get? key with
  | some cell => .ok cell
  | none => .error (.noAttribute sheet.kind.title key)

def replace (cells : List (String × Cell)) (key : String) (value : Cell) : List (String × Cell) :=
  cells.map fun (name, old) => (name, if name == key then value else old)

/-- Sets a declared attribute, or any other. Being frozen cannot be set. -/
def set (sheet : Sheet) (key : String) (value : Cell) : Except LedgerError Sheet :=
  if sheet.kind = .violation then
    .error (.unchangeable key)
  else if sheet.closed then
    .error (.frozen sheet.kind.title key)
  else if key == "frozen" then
    .error (.derived sheet.kind.title key)
  else if sheet.cells.any (·.1 == key) then
    .ok { sheet with cells := replace sheet.cells key value }
  else
    .ok { sheet with extras := (key, value) :: sheet.extras }

def close (sheet : Sheet) : Sheet :=
  { sheet with closed := true }

def freeze (sheet : Sheet) : Except LedgerError Sheet :=
  if sheet.kind = .violation then .error (.noAttribute sheet.kind.title "freeze") else .ok sheet.close

/-- Equal if the kinds and the declared attributes are, frozen or not. -/
def equal (lists : Lists) (a b : Sheet) : Bool :=
  a.kind == b.kind &&
    (a.cells.map (lists.read ·.2)).isEqv (b.cells.map (lists.read ·.2)) Content.same

def metrics (sheet : Sheet) : Except LedgerError (List (Metric × Cell)) :=
  match sheet.kind with
  | .function => Metric.all.mapM fun metric => return (metric, ← sheet.get metric.name)
  | _ => .error (.noAttribute sheet.kind.title "metrics")

/-- The severity of a value. Only a metric with bands has it compared with their cutoffs, of which there
is always one. -/
def rate (metric : Metric) (value : Content) : Except LedgerError (Option Severity) :=
  match (Bands.standard.lookup metric.name), value.number? with
  | none, _ => .ok none
  | some _, some number => .ok (Bands.standard.severity? metric.name number)
  | some _, none => .error (.ofType (.notComparable value.type))

def violation (sheet : Sheet) (metric : Metric) (value : Cell) (severity : Option Severity) :
    Except LedgerError Sheet := do
  return {
    kind := .violation
    cells := [
      ("function_name", ← sheet.get "function_name"), ("file_name", ← sheet.get "file_name"),
      ("start_line", ← sheet.get "start_line"), ("metric_name", .atom (.text metric.name)),
      ("metric_value", value), ("severity", .atom (.level (severity.getD .low)))] }

end Sheet

structure Rating where
  sheet : Sheet
  severities : List (Metric × Option Severity)
  violations : List Sheet

namespace Sheet

/-- The violation of a metric that is beyond its limit. A metric with a limit has bands as well, so its
value has been found to be a number before. -/
def violation? (lists : Lists) (sheet : Sheet) (metric : Metric) : Except LedgerError (Option Sheet) := do
  let value ← sheet.get metric.name
  match (lists.read value).number? with
  | some number =>
      if exceedsLimit metric.name number then
        some <$> sheet.violation metric value (Bands.standard.severity? metric.name number)
      else
        return none
  | none => return none

def evaluate (lists : Lists) (sheet : Sheet) : Except LedgerError Rating := do
  let metrics ← sheet.metrics
  let severities ← metrics.mapM fun (metric, value) => return (metric, ← rate metric (lists.read value))
  let violations ← (limits.map Prod.fst).mapM (sheet.violation? lists)
  return { sheet, severities, violations := violations.reduceOption }

end Sheet

/-- Named records, the latest under a name in front, and the lists they hold. -/
structure Ledger where
  lists : Lists := []
  sheets : List (String × Sheet) := []

namespace Ledger

/-- Where a value comes from: it is written out, or it is what an attribute holds. A list that is written
out is a new one; one that is held is the same list and no copy. -/
inductive Source where
  | written (value : Content)
  | held (name key : String)

/-- How an attribute is given a value: outright, as the sum with what it reads, or by adding to it in place,
which makes a list longer before it is set to itself. -/
inductive Assignment where
  | set
  | add
  | extend
deriving DecidableEq, Repr

inductive Change where
  | new (kind : SheetKind) (given : List (String × Source))
  | assign (how : Assignment) (key : String) (source : Source)
  | freeze

inductive Query where
  | get (name key : String)
  | metrics (name : String)
  | equal (name other : String)
  | evaluate (name : String)

inductive Step where
  | change (name : String) (change : Change)
  | ask (query : Query)

inductive Answer where
  | sheet (sheet : Sheet)
  | value (value : Content)
  | metrics (metrics : List (Metric × Content))
  | truth (value : Bool)
  | rating (rating : Rating)

def find (ledger : Ledger) (name : String) : Except LedgerError Sheet :=
  match ledger.sheets.lookup name with
  | some sheet => .ok sheet
  | none => .error (.unknownRecord name)

def put (ledger : Ledger) (name : String) (sheet : Sheet) (lists : Lists) : Ledger where
  lists
  sheets := (name, sheet) :: ledger.sheets.filter (·.1 != name)

def holding (ledger : Ledger) (name key : String) : Except LedgerError Cell := do
  (← ledger.find name).get key

def read (ledger : Ledger) (name key : String) : Except LedgerError Content :=
  ledger.lists.read <$> ledger.holding name key

def equal (ledger : Ledger) (name other : String) : Except LedgerError Bool := do
  return (← ledger.find name).equal ledger.lists (← ledger.find other)

def readSource (ledger : Ledger) : Source → Except LedgerError Content
  | .written value => .ok value
  | .held name key => ledger.read name key

def take (ledger : Ledger) : Source → Except LedgerError (Cell × Lists)
  | .written value => .ok (ledger.lists.enter value)
  | .held name key => do return (← ledger.holding name key, ledger.lists)

def takeAll (ledger : Ledger) : List (String × Source) → Except LedgerError (List (String × Cell) × Lists)
  | [] => .ok ([], ledger.lists)
  | (key, source) :: rest => do
      let (cell, lists) ← ledger.take source
      let (cells, lists) ← takeAll { ledger with lists } rest
      return ((key, cell) :: cells, lists)

def sum (ledger : Ledger) (sign name key : String) (source : Source) : Except LedgerError (Cell × Lists) := do
  let old ← ledger.read name key
  match old.plus sign (← ledger.readSource source) with
  | .ok sum => return ledger.lists.enter sum
  | .error fault => throw (.ofType fault)

def value (ledger : Ledger) (name : String) (how : Assignment) (key : String) (source : Source) :
    Except LedgerError (Cell × Lists) :=
  match how with
  | .set => ledger.take source
  | .add => ledger.sum "+" name key source
  | .extend => do
      match ← ledger.holding name key with
      | .list number => return (.list number, ledger.lists)
      | .atom _ => ledger.sum "+=" name key source

def revise (ledger : Ledger) (name : String) : Change → Except LedgerError (Sheet × Lists)
  | .new kind given => do
      let (cells, lists) ← ledger.takeAll given
      return (← Sheet.new kind cells, lists)
  | .assign how key source => do
      let (value, lists) ← ledger.value name how key source
      return (← (← ledger.find name).set key value, lists)
  | .freeze => do return (← (← ledger.find name).freeze, ledger.lists)

/-- The list that a change makes longer before anything else, and by which items. -/
def growth (ledger : Ledger) (name : String) : Change → Except LedgerError (Option (Nat × List Atom))
  | .assign .extend key source => do
      match ← ledger.holding name key with
      | .list number =>
          match (← ledger.readSource source).items with
          | .ok items => return some (number, items)
          | .error fault => throw (.ofType fault)
      | .atom _ => return none
  | _ => .ok none

def grow (ledger : Ledger) : Option (Nat × List Atom) → Ledger
  | some (number, items) => { ledger with lists := ledger.lists.extend number items }
  | none => ledger

def answer (ledger : Ledger) : Query → Except LedgerError Answer
  | .get name key => .value <$> ledger.read name key
  | .metrics name => do
      let metrics ← (← ledger.find name).metrics
      return .metrics (metrics.map fun (metric, cell) => (metric, ledger.lists.read cell))
  | .equal name other => .truth <$> ledger.equal name other
  | .evaluate name => do return .rating (← (← ledger.find name).evaluate ledger.lists)

/-- Takes a step. One that is refused changes no record, but a list that has been added to in place stays
longer. -/
def step : Step → EStateM LedgerError Ledger Answer
  | .ask query => fun ledger =>
      match ledger.answer query with
      | .ok answer => .ok answer ledger
      | .error cause => .error cause ledger
  | .change name change => fun ledger =>
      match ledger.growth name change with
      | .error cause => .error cause ledger
      | .ok growth =>
          let grown := ledger.grow growth
          match grown.revise name change with
          | .error cause => .error cause grown
          | .ok (sheet, lists) => .ok (.sheet sheet) (grown.put name sheet lists)

end Ledger

end ScriptMetrics
