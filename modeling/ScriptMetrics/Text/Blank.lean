/-!
Blank characters: white space in the wide sense, the separators of the first control block
included, but neither the zero-width space nor the byte order mark.
-/

namespace ScriptMetrics.Text

def isBlank (char : Char) : Bool :=
  let code := char.toNat
  (0x09 ≤ code && code ≤ 0x0D) || (0x1C ≤ code && code ≤ 0x20) || code == 0x85 || code == 0xA0 ||
    code == 0x1680 || (0x2000 ≤ code && code ≤ 0x200A) || code == 0x2028 || code == 0x2029 ||
    code == 0x202F || code == 0x205F || code == 0x3000

def isBlankText (text : String) : Bool :=
  text.toList.all isBlank

end ScriptMetrics.Text
