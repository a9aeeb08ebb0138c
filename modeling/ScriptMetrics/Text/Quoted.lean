import ScriptMetrics.Text.Printable

/-!
Quoted text, as messages show it: single quotes unless the text holds single quotes only, and
escapes for the quote, the backslash and whatever does not print.
-/

namespace ScriptMetrics.Text

def hex (digits : Nat) (value : Nat) : String :=
  let shown := Nat.toDigits 16 value
  String.ofList (List.replicate (digits - shown.length) '0' ++ shown)

def quoteChar (quote char : Char) : String :=
  if char = quote ∨ char = '\\' then "\\".push char
  else if char = '\t' then "\\t"
  else if char = '\n' then "\\n"
  else if char = '\r' then "\\r"
  else if isPrintable char then char.toString
  else if char.toNat ≤ 0xFF then "\\x" ++ hex 2 char.toNat
  else if char.toNat ≤ 0xFFFF then "\\u" ++ hex 4 char.toNat
  else "\\U" ++ hex 8 char.toNat

/-- Double quotes are taken only where they save escaping single ones. -/
def quoteMark (text : String) : Char :=
  if text.toList.contains '\'' && !text.toList.contains '"' then '"' else '\''

def quoted (text : String) : String :=
  let mark := quoteMark text
  (String.singleton mark ++ String.join (text.toList.map (quoteChar mark))).push mark

end ScriptMetrics.Text
