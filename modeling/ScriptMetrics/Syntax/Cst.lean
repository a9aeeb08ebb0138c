import ScriptMetrics.Syntax.Arena
import ScriptMetrics.Text.Utf8

/-!
Concrete syntax trees and the arenas made from them. A concrete tree has a node for every token;
an arena keeps the named ones without the comments. The text of names and literals and the
operators are copied onto the items, so that an arena can be read without its source.

Positions are handed out in pre-order by a stack of trees still to be placed. A tree is linked from
its parent's draft when it is placed, long after the parent was.
-/

namespace ScriptMetrics

/-- A grammar node: its kind, the rows (counted from zero) and bytes it covers, whether it is named
or a mere token, the field it fills in its parent, and its parts in source order. -/
structure CstHead where
  kind : String
  firstRow : Int := 0
  lastRow : Int := 0
  start : Nat := 0
  stop : Nat := 0
  named : Bool := true
  field : Option String := none
deriving DecidableEq, Repr, Inhabited

inductive Cst where
  | node (head : CstHead) (kids : List Cst)
deriving Repr, Inhabited

namespace Cst

def head : Cst → CstHead
  | node head _ => head

def kids : Cst → List Cst
  | node _ kids => kids

mutual

def size : Cst → Nat
  | node _ kids => 1 + sizes kids

def sizes : List Cst → Nat
  | [] => 0
  | kid :: rest => kid.size + sizes rest

end

def comments : List String :=
  ["comment", "html_comment"]

def texts : List String :=
  ["identifier", "property_identifier", "shorthand_property_identifier",
    "shorthand_property_identifier_pattern", "statement_identifier", "private_property_identifier",
    "string", "string_fragment", "number", "regex", "undefined"]

def operators : List String :=
  ["binary_expression", "for_in_statement", "unary_expression", "update_expression",
    "augmented_assignment_expression"]

def isKept (tree : Cst) : Bool :=
  tree.head.named && !comments.contains tree.head.kind

def kept (tree : Cst) : List Cst :=
  tree.kids.filter isKept

/-- The kind of the first part, named or not, that fills the operator field. -/
def operator? (tree : Cst) : Option String :=
  (tree.kids.find? (·.head.field == some "operator")).map (·.head.kind)

/-- The text of a range of bytes. A range reaches at most to the end of the source; characters that
it cuts are replaced. -/
def slice (source : ByteArray) (start stop : Nat) : String :=
  Utf8.decode (source.extract start stop).data.toList

end Cst

/-- A placed tree with the positions and fields of the parts placed so far. -/
structure Draft where
  tree : Cst
  links : Array (Nat × Option String) := #[]
deriving Inhabited

namespace Draft

def addField (fields : List (String × List Nat)) (name : String) (child : Nat) :
    List (String × List Nat) :=
  if fields.any (·.1 == name) then
    fields.map fun (other, children) => (other, if other == name then children ++ [child] else children)
  else
    fields ++ [(name, [child])]

/-- Adds a link to its field. A field without a name is none. -/
def addLink (fields : List (String × List Nat)) (link : Nat × Option String) :
    List (String × List Nat) :=
  match link.2 with
  | none => fields
  | some name => if name == "" then fields else addField fields name link.1

def fieldsOf (links : List (Nat × Option String)) : List (String × List Nat) :=
  links.foldl addLink []

def item (source : ByteArray) (draft : Draft) : Item :=
  let head := draft.tree.head
  { kind := head.kind
    firstLine := head.firstRow + 1
    lastLine := head.lastRow + 1
    children := draft.links.toList.map Prod.fst
    fields := fieldsOf draft.links.toList
    text := if Cst.texts.contains head.kind then some (Cst.slice source head.start head.stop) else none
    operator := if Cst.operators.contains head.kind then draft.tree.operator? else none }

end Draft

/-- A tree to be placed, and the position of its parent unless it is the root. -/
structure Seedling where
  tree : Cst
  parent : Option Nat

namespace Cst

theorem sizes_append (front back : List Cst) : sizes (front ++ back) = sizes front + sizes back := by
  induction front with
  | nil => simp [sizes]
  | cons kid rest ih => simp [sizes, ih, Nat.add_assoc]

theorem sizes_filter_le (keep : Cst → Bool) (kids : List Cst) : sizes (kids.filter keep) ≤ sizes kids := by
  induction kids with
  | nil => simp
  | cons kid rest ih =>
      by_cases h : keep kid <;> simp [h, sizes] <;> omega

theorem sizes_kept_lt (tree : Cst) : sizes tree.kept < tree.size := by
  cases tree with
  | node head kids =>
      have := sizes_filter_le isKept kids
      simp only [kept, Cst.kids, size]
      omega

/-- Links a tree that gets the given position from its parent's draft. -/
def linkParent (drafts : Array Draft) (seedling : Seedling) (position : Nat) : Array Draft :=
  match seedling.parent with
  | none => drafts
  | some parent =>
      drafts.modify parent fun draft =>
        { draft with links := draft.links.push (position, seedling.tree.head.field) }

/-- Places all trees of a stack, each with everything below it. -/
def place : List Seedling → Array Draft → Array Draft
  | [], drafts => drafts
  | seedling :: rest, drafts =>
      let position := drafts.size
      let below := seedling.tree.kept.map (⟨·, some position⟩)
      place (below ++ rest) ((linkParent drafts seedling position).push { tree := seedling.tree })
termination_by stack => sizes (stack.map Seedling.tree)
decreasing_by
  have := sizes_kept_lt seedling.tree
  simp [sizes_append, sizes, Function.comp_def]
  omega

theorem size_linkParent (drafts : Array Draft) (seedling : Seedling) (position : Nat) :
    (linkParent drafts seedling position).size = drafts.size := by
  unfold linkParent
  split <;> simp

theorem size_le_place (stack : List Seedling) (drafts : Array Draft) :
    drafts.size ≤ (place stack drafts).size := by
  fun_induction place stack drafts with
  | case1 => simp
  | case2 drafts seedling rest position below ih =>
      simp only [Array.size_push, size_linkParent] at ih
      omega

theorem size_place_pos (root : Seedling) (rest : List Seedling) :
    0 < (place (root :: rest) #[]).size := by
  rw [place]
  have := size_le_place (root.tree.kept.map (⟨·, some 0⟩) ++ rest)
    ((linkParent #[] root 0).push { tree := root.tree })
  simp only [Array.size_push, size_linkParent] at this
  exact Nat.lt_of_lt_of_le (by omega) this

end Cst

namespace Arena

def ofCst (source : ByteArray) (tree : Cst) (hasErrors : Bool) : Arena where
  items := (Cst.place [⟨tree, none⟩] #[]).map (Draft.item source)
  hasErrors
  hasRoot := by simpa using Cst.size_place_pos ⟨tree, none⟩ []

end Arena

end ScriptMetrics
