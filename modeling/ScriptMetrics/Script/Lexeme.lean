import ScriptMetrics.Script.Cursor

/-!
The lexemes of a script. Each function here says how many characters at the start of a text belong
to a lexeme; none of them looks at what came before. Where a slash stands for a regular expression
and where for a division is left to the grammar.
-/

namespace ScriptMetrics.Script

/-- The punctuators, those with a longer one that starts the same after it. -/
def punctuators : List String := [
  ">>>=", "...", "===", "!==", "**=", "<<=", ">>=", ">>>", "&&=", "||=", "??=",
  "=>", "==", "!=", "<=", ">=", "++", "--", "**", "<<", ">>", "&&", "||", "??", "?.",
  "+=", "-=", "*=", "/=", "%=", "&=", "|=", "^=",
  "\x7b", "\x7d", "(", ")", "[", "]", ";", ",", "<", ">", "+", "-", "*", "/", "%", "&", "|", "^",
  "!", "~", "?", ":", "=", "."]

/-- The punctuator a text starts with. A question mark before a fraction is no optional chain. -/
def punctuator? (text : List Char) : Option String :=
  let fraction : Bool := match text with
    | '?' :: '.' :: digit :: _ => digit.isDigit
    | _ => false
  if fraction then some "?" else punctuators.find? fun sign => sign.toList.isPrefixOf text

def wordBreaks : List Char :=
  ":;`\"'@#.,|^&<=>+-*/\\%?!~()[]\x7b\x7d".toList

def isWordChar (char : Char) : Bool :=
  0x20 < char.toNat && !wordBreaks.contains char && !isSpace char

/-- The length of the word a text starts with, escapes included. In braces, a code point is spelled
out. -/
def wordTail (inBraces : Bool) : List Char → Nat
  | [] => 0
  | '\\' :: 'u' :: '\x7b' :: rest => if inBraces then 0 else 3 + wordTail true rest
  | '\\' :: 'u' :: rest => if inBraces then 0 else 2 + wordTail false rest
  | char :: rest =>
      if inBraces then 1 + wordTail (char != '\x7d') rest
      else if isWordChar char then 1 + wordTail false rest
      else 0

def wordLength (text : List Char) : Nat :=
  match text with
  | char :: _ => if char.isDigit then 0 else wordTail false text
  | [] => 0

def reservedWords : List String := [
  "await", "break", "case", "catch", "class", "const", "continue", "debugger", "default", "delete",
  "do", "else", "enum", "export", "extends", "false", "finally", "for", "function", "if", "import",
  "in", "instanceof", "new", "null", "return", "super", "switch", "this", "throw", "true", "try",
  "typeof", "var", "void", "while", "with", "yield"]

def digitRun (text : List Char) : Nat :=
  (text.takeWhile fun char => char.isDigit || char == '_').length

def exponentLength : List Char → Nat
  | mark :: rest =>
      if mark == 'e' || mark == 'E' then
        let sign := match rest with
          | '+' :: _ => 1
          | '-' :: _ => 1
          | _ => 0
        let digits := digitRun (rest.drop sign)
        if digits = 0 then 0 else 1 + sign + digits
      else 0
  | [] => 0

def fractionLength : List Char → Nat
  | '.' :: rest => 1 + digitRun rest
  | _ => 0

def numberLength (text : List Char) : Nat :=
  let based : Bool := match text with
    | '0' :: mark :: _ => "xXoObB".toList.contains mark
    | _ => false
  if based then
    2 + ((text.drop 2).takeWhile fun char => char.isAlphanum || char == '_').length
  else
    let whole := digitRun text
    let fraction := fractionLength (text.drop whole)
    let exponent := exponentLength (text.drop (whole + fraction))
    let length := whole + fraction + exponent
    match text.drop length with
    | 'n' :: _ => length + 1
    | _ => length

def isHex (char : Char) : Bool :=
  char.isDigit || ('a' ≤ char && char ≤ 'f') || ('A' ≤ char && char ≤ 'F')

def isOctal (char : Char) : Bool :=
  '0' ≤ char && char ≤ '7'

/-- The length of an escape, given what stands after its backslash. -/
def escapeLength : List Char → Nat
  | 'u' :: '\x7b' :: rest => 3 + (rest.takeWhile isHex).length + 1
  | 'u' :: _ => 6
  | 'x' :: _ => 4
  | '\r' :: '\n' :: _ => 3
  | char :: rest =>
      if isOctal char then 2 + ((rest.take 2).takeWhile isOctal).length else 2
  | [] => 1

def stringFragmentLength (quote : Char) (text : List Char) : Nat :=
  (text.takeWhile fun char => char != quote && char != '\\' && char != '\n' && char != '\r').length

def templateFragmentLength : List Char → Nat
  | [] => 0
  | '$' :: '\x7b' :: _ => 0
  | char :: rest => if char == '`' || char == '\\' then 0 else 1 + templateFragmentLength rest

/-- The length of a regular expression up to the slash that ends it. In a class a slash ends
nothing. -/
def patternLength (inClass : Bool) : List Char → Nat
  | [] => 0
  | '\\' :: _ :: rest => 2 + patternLength inClass rest
  | char :: rest =>
      if char == '/' && !inClass || char == '\n' then 0
      else
        let inClass := if char == '[' then true else if char == ']' then false else inClass
        1 + patternLength inClass rest

def flagsLength (text : List Char) : Nat :=
  (text.takeWhile Char.isLower).length

end ScriptMetrics.Script
