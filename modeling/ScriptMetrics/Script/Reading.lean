import ScriptMetrics.Script.Lexeme
import ScriptMetrics.Syntax.Cst

/-!
Reading a script piece by piece. A reading takes some of what a cursor has left, or fails and takes
nothing. Trees cover what was read from the first of their tokens to the last.
-/

namespace ScriptMetrics.Script

abbrev Reading := StateT Cursor Option

variable {α : Type}

/-- The cursor at the next token, which becomes the current one. -/
def mark : Reading Cursor := do
  modify Cursor.skipTrivia
  get

def peek (look : Cursor → α) : Reading α := do
  return look (← get).skipTrivia

def when (look : Cursor → Bool) : Reading Unit := do
  if ← peek look then pure () else failure

def maybe (reading : Reading α) : Reading (Option α) :=
  (some <$> reading) <|> pure none

/-- Repeats a step for as long as it succeeds and takes something. -/
def iterate (step : α → Reading α) (value : α) (cursor : Cursor) : α × Cursor :=
  match step value cursor with
  | none => (value, cursor)
  | some (next, after) =>
      if after.left < cursor.left then iterate step next after else (value, cursor)
termination_by cursor.left

def extend (step : α → Reading α) (value : α) : Reading α := fun cursor =>
  some (iterate step value cursor)

def many (reading : Reading α) : Reading (List α) := do
  let found ← extend (fun found => do return found.push (← reading)) #[]
  return found.toList

def looksAt (sign : String) (cursor : Cursor) : Bool :=
  punctuator? cursor.rest == some sign

def symbol (sign : String) : Reading Unit := do
  let start ← mark
  if looksAt sign start then set (start.advance sign.length) else failure

def wordAt (cursor : Cursor) : String :=
  String.ofList (cursor.rest.take (wordLength cursor.rest))

/-- Whether a token goes on with what the line before it left open. Only what cannot start a
statement, or would rather be an operator, does. -/
def continues (cursor : Cursor) : Bool :=
  match cursor.rest with
  | '.' :: next :: _ => !next.isDigit
  | '+' :: next :: _ => next != '+'
  | '-' :: next :: _ => next != '-'
  | '!' :: next :: _ => next == '='
  | first :: _ => "`,:;*%<>=[(?^|&/".toList.contains first || ["in", "instanceof"].contains (wordAt cursor)
  | [] => false

/-- Whether a line ends before the next token and nothing goes on after it. -/
def breaksOff (cursor : Cursor) : Bool :=
  cursor.atLineEnd && !continues cursor.skipTrivia

def looksAtWord (word : String) (cursor : Cursor) : Bool :=
  wordAt cursor == word

def keyword (word : String) : Reading Unit := do
  let start ← mark
  if looksAtWord word start then set (start.advance word.length) else failure

def operatorAt (cursor : Cursor) : String :=
  (punctuator? cursor.rest).getD (wordAt cursor)

def tree (kind : String) (start stop : Cursor) (kids : List Cst) : Cst :=
  .node { kind, firstRow := start.row, lastRow := stop.row, start := start.offset, stop := stop.offset } kids

def spanned (kind : String) (parts : Reading (List Cst)) : Reading Cst := do
  let start ← mark
  let kids ← parts
  return tree kind start (← get) kids

/-- Reads so many characters as a tree without parts. -/
def leaf (kind : String) (length : List Char → Nat) : Reading Cst := do
  let start ← get
  let count := length start.rest
  if count = 0 then failure
  let stop := start.advance count
  set stop
  return tree kind start stop []

/-- A tree around one read before, with the parts read after it. -/
def around (kind : String) (first : Cst) (others : Reading (List Cst)) : Reading Cst := do
  let kids ← others
  let stop ← get
  let head := first.head
  return .node { kind, firstRow := head.firstRow, lastRow := stop.row, start := head.start, stop := stop.offset }
    (first :: kids)

end ScriptMetrics.Script

namespace ScriptMetrics.Cst

def inField (field : String) : Cst → Cst
  | node head kids => node { head with field := some field } kids

end ScriptMetrics.Cst

namespace ScriptMetrics.Script

def filling (field : String) (reading : Reading Cst) : Reading Cst :=
  Cst.inField field <$> reading

def anyOperator (signs : List String) : Reading Cst := do
  let start ← mark
  let sign := operatorAt start
  if !signs.contains sign then failure
  let stop := start.advance sign.length
  set stop
  return .node { kind := sign, named := false, field := some "operator", firstRow := start.row,
                 lastRow := start.row, start := start.offset, stop := stop.offset } []

/-- Reads things with commas between them. Places may be empty and a comma may come last. -/
def commaList (item : Reading Cst) : Reading (List Cst) := do
  let first ← maybe item
  let others ← many (do symbol ","; maybe item)
  return (first :: others).filterMap id

def bracketed (opening closing : String) (item : Reading Cst) : Reading (List Cst) := do
  symbol opening
  let items ← commaList item
  symbol closing
  return items

end ScriptMetrics.Script
