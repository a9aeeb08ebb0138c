import ScriptMetrics.Text.Quoted

/-!
Values as log lines and settings carry them, and their form as JSON text. The text is pure ASCII:
characters beyond it are written as escaped UTF-16 units.
-/

namespace ScriptMetrics

inductive Value where
  | null
  | flag (value : Bool)
  | number (value : Int)
  | text (value : String)
  | list (items : List Value)
  | object (members : List (String × Value))
deriving Repr, Inhabited

namespace Value

/-- The UTF-16 units of a character, each as an escape. -/
def jsonEscape (char : Char) : String :=
  let code := char.toNat
  if code < 0x10000 then
    "\\u" ++ Text.hex 4 code
  else
    let offset := code - 0x10000
    "\\u" ++ Text.hex 4 (0xD800 + offset / 0x400) ++ "\\u" ++ Text.hex 4 (0xDC00 + offset % 0x400)

def jsonChar (char : Char) : String :=
  if char = '"' then "\\\""
  else if char = '\\' then "\\\\"
  else if char = '\n' then "\\n"
  else if char = '\r' then "\\r"
  else if char = '\t' then "\\t"
  else if char = '\x08' then "\\b"
  else if char = '\x0c' then "\\f"
  else if 0x20 ≤ char.toNat ∧ char.toNat < 0x7F then char.toString
  else jsonEscape char

def jsonText (text : String) : String :=
  "\"" ++ String.join (text.toList.map jsonChar) ++ "\""

mutual

def json : Value → String
  | null => "null"
  | flag value => if value then "true" else "false"
  | number value => toString value
  | text value => jsonText value
  | list items => "[" ++ ", ".intercalate (jsonItems items) ++ "]"
  | object members => "\x7b" ++ ", ".intercalate (jsonMembers members) ++ "\x7d"

def jsonItems : List Value → List String
  | [] => []
  | item :: rest => json item :: jsonItems rest

def jsonMembers : List (String × Value) → List String
  | [] => []
  | (name, value) :: rest => (jsonText name ++ ": " ++ json value) :: jsonMembers rest

end

end Value

/-- The members of an object with one of them set, in its old place if it has one. -/
def setMember (members : List (String × Value)) (name : String) (value : Value) :
    List (String × Value) :=
  if members.any (·.1 == name) then
    members.map fun (other, old) => (other, if other == name then value else old)
  else
    members ++ [(name, value)]

end ScriptMetrics
