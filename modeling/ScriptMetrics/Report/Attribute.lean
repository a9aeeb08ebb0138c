import ScriptMetrics.Report.Severity

/-!
Values of attributes. Most never change, but a list can be held by several attributes at once, and what is
added to it in place shows in all of them; so attributes hold the number of a list, and its items are kept
apart.
-/

namespace ScriptMetrics

inductive TypeFault where
  | notAdded (sign left right : String)
  | notJoined (left right : String)
  | notIterable (type : String)
  | notComparable (type : String)
deriving DecidableEq, Repr

namespace TypeFault

def message : TypeFault → String
  | notAdded sign left right =>
      "unsupported operand type(s) for " ++ sign ++ ": '" ++ left ++ "' and '" ++ right ++ "'"
  | notJoined left right => "can only concatenate " ++ left ++ " (not \"" ++ right ++ "\") to " ++ left
  | notIterable type => "'" ++ type ++ "' object is not iterable"
  | notComparable type => "'<=' not supported between instances of 'int' and '" ++ type ++ "'"

end TypeFault

/-- A value that never changes. -/
inductive Atom where
  | null
  | flag (value : Bool)
  | number (value : Int)
  | text (value : String)
  | level (value : Severity)
deriving DecidableEq, Repr

namespace Atom

def type : Atom → String
  | null => "NoneType"
  | flag _ => "bool"
  | number _ => "int"
  | text _ => "str"
  | level _ => "Severity"

/-- Flags count as numbers. -/
def number? : Atom → Option Int
  | flag value => some (if value then 1 else 0)
  | number value => some value
  | null | text _ | level _ => none

/-- Severities pass for their names. -/
def text? : Atom → Option String
  | text value => some value
  | level value => some value.name
  | null | flag _ | number _ => none

/-- Equal if they count as one number, pass for one text or are both nothing. -/
def same (a b : Atom) : Bool :=
  a.number? == b.number? && a.text? == b.text?

end Atom

/-- A value as it reads: a list by its items. -/
inductive Content where
  | atom (value : Atom)
  | list (items : List Atom)
deriving DecidableEq, Repr

namespace Content

def type : Content → String
  | atom value => value.type
  | list _ => "list"

def number? : Content → Option Int
  | atom value => value.number?
  | list _ => none

def text? : Content → Option String
  | atom value => value.text?
  | list _ => none

def same : Content → Content → Bool
  | atom a, atom b => a.same b
  | list as, list bs => as.isEqv bs Atom.same
  | _, _ => false

def plus (sign : String) (left right : Content) : Except TypeFault Content :=
  match left, right with
  | list as, list bs => .ok (list (as ++ bs))
  | list _, atom b => .error (.notJoined "list" b.type)
  | atom a, _ =>
      match a.text?, right.text? with
      | some text, some more => .ok (atom (.text (text ++ more)))
      | some _, none => .error (.notJoined "str" right.type)
      | none, _ =>
          match a.number?, right.number? with
          | some m, some n => .ok (atom (.number (m + n)))
          | _, _ => .error (.notAdded sign a.type right.type)

def items : Content → Except TypeFault (List Atom)
  | list items => .ok items
  | atom value =>
      value.text?.elim (.error (.notIterable value.type)) fun text =>
        .ok (text.toList.map fun char => .text (String.singleton char))

end Content

/-- What an attribute holds: a list is held by its number. -/
inductive Cell where
  | atom (value : Atom)
  | list (number : Nat)
deriving DecidableEq, Repr

abbrev Lists := List (List Atom)

namespace Lists

def read (lists : Lists) : Cell → Content
  | .atom value => .atom value
  | .list number => .list (lists[number]?.getD [])

def enter (lists : Lists) : Content → Cell × Lists
  | .atom value => (.atom value, lists)
  | .list items => (.list lists.length, lists ++ [items])

def extend (lists : Lists) (number : Nat) (items : List Atom) : Lists :=
  lists.modify number (· ++ items)

end Lists

end ScriptMetrics
