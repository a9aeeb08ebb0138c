/-!
Line endings. Sources are read with every line ending as a single line feed, whichever of the
three conventions each line of the file uses.
-/

namespace ScriptMetrics.Text

/-- The text written so far, and whether its last line feed stands for a carriage return. -/
structure LineEnds where
  text : String := ""
  afterReturn : Bool := false
deriving DecidableEq, Repr

namespace LineEnds

/-- A carriage return is written as a line feed, and a line feed right after one not at all. -/
def step (ends : LineEnds) (char : Char) : LineEnds :=
  if char = '\r' then { text := ends.text.push '\n', afterReturn := true }
  else if char = '\n' && ends.afterReturn then { text := ends.text }
  else { text := ends.text.push char }

end LineEnds

def unifyLineEnds (text : String) : String :=
  (text.toList.foldl LineEnds.step {}).text

end ScriptMetrics.Text
