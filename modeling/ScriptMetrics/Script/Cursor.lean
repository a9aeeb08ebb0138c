import ScriptMetrics.Text.Blank

/-!
Cursors into a script: what is left to read, and the byte and row it starts at. Blanks and comments
stand between tokens and are skipped as one.
-/

namespace ScriptMetrics.Script

/-- A position in a script. The number of characters left is kept beside them. -/
structure Cursor where
  rest : List Char
  left : Nat
  offset : Nat := 0
  row : Nat := 0

namespace Cursor

def ofText (text : String) : Cursor :=
  { rest := text.toList, left := text.length }

/-- Only a line feed starts a new row. -/
def step (cursor : Cursor) (char : Char) (rest : List Char) : Cursor where
  rest
  left := cursor.left - 1
  offset := cursor.offset + char.utf8Size
  row := if char = '\n' then cursor.row + 1 else cursor.row

def advance (cursor : Cursor) : Nat → Cursor
  | 0 => cursor
  | count + 1 =>
      match cursor.rest with
      | [] => cursor
      | char :: rest => (cursor.step char rest).advance count

end Cursor

/-- Characters that separate tokens, the invisible ones among them. -/
def isSpace (char : Char) : Bool :=
  Text.isBlank char && !(0x1C ≤ char.toNat && char.toNat ≤ 0x1F) ||
    char.toNat == 0xFEFF || char.toNat == 0x2060 || char.toNat == 0x200B

def isLineEnd (char : Char) : Bool :=
  char == '\n' || char == '\r' || char.toNat == 0x2028 || char.toNat == 0x2029

inductive Comment where
  | none
  | line
  | block
deriving DecidableEq, Repr

def triviaLength : Comment → List Char → Nat
  | _, [] => 0
  | .none, '/' :: '/' :: rest => 2 + triviaLength .line rest
  | .none, '/' :: '*' :: rest => 2 + triviaLength .block rest
  | .none, char :: rest => if isSpace char then 1 + triviaLength .none rest else 0
  | .line, char :: rest =>
      if isLineEnd char then 1 + triviaLength .none rest else 1 + triviaLength .line rest
  | .block, '*' :: '/' :: rest => 2 + triviaLength .none rest
  | .block, _ :: rest => 1 + triviaLength .block rest

namespace Cursor

def skipTrivia (cursor : Cursor) : Cursor :=
  cursor.advance (triviaLength .none cursor.rest)

def atLineEnd (cursor : Cursor) : Bool :=
  cursor.row < cursor.skipTrivia.row

end Cursor

end ScriptMetrics.Script
