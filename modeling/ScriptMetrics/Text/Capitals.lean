/-!
Capital forms, as far as they are spelled with ASCII letters. Names compared without regard to
case are all ASCII here, so any other capital form could not make a difference.
-/

namespace ScriptMetrics.Text

/-- The capital form of a character if ASCII letters spell it, else the character itself. -/
def capital (char : Char) : List Char :=
  match char.toNat with
  | 0x00DF => ['S', 'S']
  | 0x0131 => ['I']
  | 0x017F => ['S']
  | 0xFB00 => ['F', 'F']
  | 0xFB01 => ['F', 'I']
  | 0xFB02 => ['F', 'L']
  | 0xFB03 => ['F', 'F', 'I']
  | 0xFB04 => ['F', 'F', 'L']
  | 0xFB05 => ['S', 'T']
  | 0xFB06 => ['S', 'T']
  | _ => [char.toUpper]

def capitals (text : String) : String :=
  String.ofList (text.toList.flatMap capital)

end ScriptMetrics.Text
