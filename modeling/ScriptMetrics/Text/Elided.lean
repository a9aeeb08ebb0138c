/-!
Long texts in messages: where a text is too long, its middle is left out.
-/

namespace ScriptMetrics.Text

def takeBytes : Nat → List Char → List Char
  | _, [] => []
  | budget, char :: rest =>
      if char.utf8Size ≤ budget then char :: takeBytes (budget - char.utf8Size) rest else []

/-- Of a text of more than fifty bytes, what fits into the first twenty-five and the last
twenty-four. -/
def elided (text : String) : String :=
  if text.utf8ByteSize ≤ 50 then
    text
  else
    String.ofList (takeBytes 25 text.toList) ++ "..." ++
      String.ofList (takeBytes 24 text.toList.reverse).reverse

end ScriptMetrics.Text
