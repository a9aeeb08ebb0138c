import ScriptMetrics.Syntax.Cst

/-!
Outlines, and the arena of a concrete tree as the layout of its outline. An outline is what is left
of a concrete tree without its tokens and comments. Its layout numbers it in pre-order by recursion
on the tree; the stack loop that places a concrete tree and links each part long after its parent
is shown to produce the same items.
-/

namespace ScriptMetrics

/-- What a node says about itself, its links apart. -/
structure Label where
  kind : String
  firstLine : Int
  lastLine : Int
  text : Option String
  operator : Option String
deriving DecidableEq, Repr

/-- A labelled tree without tokens and comments. Every part knows the field it fills in its parent,
and the parts stand in source order. -/
inductive Outline where
  | node (label : Label) (field : Option String) (parts : List Outline)

namespace Item

def label (item : Item) : Label where
  kind := item.kind
  firstLine := item.firstLine
  lastLine := item.lastLine
  text := item.text
  operator := item.operator

end Item

namespace Label

/-- The item that carries a label and links the given positions with their fields. -/
def item (label : Label) (links : List (Nat × Option String)) : Item where
  kind := label.kind
  firstLine := label.firstLine
  lastLine := label.lastLine
  children := links.map Prod.fst
  fields := Draft.fieldsOf links
  text := label.text
  operator := label.operator

end Label

namespace Outline

def field : Outline → Option String
  | node _ field _ => field

mutual

def size : Outline → Nat
  | node _ _ parts => 1 + sizes parts

def sizes : List Outline → Nat
  | [] => 0
  | part :: rest => part.size + sizes rest

end

/-- The links to consecutive outlines, the first of which stands at the given position. -/
def links (position : Nat) : List Outline → List (Nat × Option String)
  | [] => []
  | part :: rest => (position, part.field) :: links (position + part.size) rest

mutual

/-- The items of an outline in pre-order, its root at the given position. -/
def layout (position : Nat) : Outline → List Item
  | node label _ parts => label.item (links (position + 1) parts) :: layouts (position + 1) parts

def layouts (position : Nat) : List Outline → List Item
  | [] => []
  | part :: rest => part.layout position ++ layouts (position + part.size) rest

end

@[elab_as_elim]
theorem induct {motive : Outline → Prop}
    (node : ∀ label field parts, (∀ part ∈ parts, motive part) → motive (.node label field parts)) :
    ∀ outline, motive outline
  | .node label field parts => node label field parts fun part _ => induct node part

mutual

theorem length_layout (position : Nat) (outline : Outline) :
    (outline.layout position).length = outline.size := by
  cases outline with
  | node label field parts => simp [layout, size, length_layouts, Nat.add_comm]

theorem length_layouts (position : Nat) (outlines : List Outline) :
    (layouts position outlines).length = sizes outlines := by
  cases outlines with
  | nil => rfl
  | cons part rest => simp [layouts, sizes, length_layout, length_layouts]

end

end Outline

namespace Cst

/-- What a tree says about itself: lines count from one, and only some kinds keep their text or
their operator. -/
def label (source : ByteArray) (tree : Cst) : Label where
  kind := tree.head.kind
  firstLine := tree.head.firstRow + 1
  lastLine := tree.head.lastRow + 1
  text :=
    if texts.contains tree.head.kind then some (slice source tree.head.start tree.head.stop) else none
  operator := if operators.contains tree.head.kind then tree.operator? else none

mutual

/-- A tree without the subtrees that an arena drops. The root always stays. -/
def outline (source : ByteArray) : Cst → Outline
  | node head kids => .node (label source (node head kids)) head.field (outlines source kids)

def outlines (source : ByteArray) : List Cst → List Outline
  | [] => []
  | kid :: rest =>
      if kid.isKept then kid.outline source :: outlines source rest else outlines source rest

end

@[simp]
theorem field_outline (source : ByteArray) (tree : Cst) :
    (tree.outline source).field = tree.head.field := by
  cases tree with
  | node head kids => rfl

mutual

/-- The drafts of a tree in pre-order when everything below it has been placed. -/
def drafts (source : ByteArray) (position : Nat) : Cst → List Draft
  | node head kids =>
      { tree := node head kids, links := (Outline.links (position + 1) (outlines source kids)).toArray }
        :: draftsBelow source (position + 1) kids

def draftsBelow (source : ByteArray) (position : Nat) : List Cst → List Draft
  | [] => []
  | kid :: rest =>
      if kid.isKept then
        kid.drafts source position ++ draftsBelow source (position + (kid.outline source).size) rest
      else
        draftsBelow source position rest

end

mutual

theorem map_item_drafts (source : ByteArray) (position : Nat) (tree : Cst) :
    (tree.drafts source position).map (Draft.item source) = (tree.outline source).layout position := by
  cases tree with
  | node head kids =>
      simp only [drafts, outline, Outline.layout, List.map_cons, map_item_draftsBelow]
      rfl

theorem map_item_draftsBelow (source : ByteArray) (position : Nat) (kids : List Cst) :
    (draftsBelow source position kids).map (Draft.item source) =
      Outline.layouts position (outlines source kids) := by
  cases kids with
  | nil => rfl
  | cons kid rest =>
      by_cases keep : kid.isKept
      · simp [draftsBelow, outlines, Outline.layouts, keep, map_item_drafts, map_item_draftsBelow]
      · simp [draftsBelow, outlines, keep, map_item_draftsBelow]

end

theorem length_drafts (source : ByteArray) (position : Nat) (tree : Cst) :
    (tree.drafts source position).length = (tree.outline source).size := by
  rw [← Outline.length_layout position, ← map_item_drafts, List.length_map]

def addLinks (drafts : Array Draft) (parent : Nat) (links : List (Nat × Option String)) : Array Draft :=
  drafts.modify parent fun draft => { draft with links := draft.links ++ links.toArray }

theorem addLinks_nil (drafts : Array Draft) (parent : Nat) : addLinks drafts parent [] = drafts := by
  apply Array.ext_getElem?
  intro position
  simp only [addLinks, Array.getElem?_modify]
  split <;> simp

/-- Links go on arriving at a parent after more drafts have been placed behind it. -/
theorem addLinks_linkParent (drafts block : Array Draft) (parent : Nat) (tree : Cst) (position : Nat)
    (links : List (Nat × Option String)) (known : parent < drafts.size) :
    addLinks (linkParent drafts ⟨tree, some parent⟩ position ++ block) parent links =
      addLinks drafts parent ((position, tree.head.field) :: links) ++ block := by
  apply Array.ext_getElem?
  intro place
  simp only [addLinks, linkParent, Array.getElem?_modify, Array.getElem?_append, Array.size_modify]
  by_cases same : parent = place
  · subst same
    simp [known]
  · by_cases early : place < drafts.size <;> simp [same, early]

theorem addLinks_push (drafts : Array Draft) (tree : Cst) (links : List (Nat × Option String)) :
    addLinks (drafts.push { tree }) drafts.size links =
      drafts ++ [({ tree, links := links.toArray } : Draft)].toArray := by
  apply Array.ext_getElem?
  intro place
  simp only [addLinks, Array.getElem?_modify, Array.getElem?_push, Array.getElem?_append]
  by_cases last : drafts.size = place
  · subst last
    simp
  · by_cases early : place < drafts.size
    · simp [last, early, Ne.symm last]
    · have beyond : place - drafts.size ≠ 0 := by omega
      simp [last, early, Ne.symm last, beyond]

theorem place_nil (placed : Array Draft) : place [] placed = placed := by
  rw [place]

mutual

/-- Placing a tree from the top of the stack links it from its parent and appends all its drafts,
whatever waits below it on the stack. -/
theorem place_tree (source : ByteArray) (tree : Cst) (parent : Option Nat) (rest : List Seedling)
    (placed : Array Draft) :
    place (⟨tree, parent⟩ :: rest) placed =
      place rest (linkParent placed ⟨tree, parent⟩ placed.size ++
        (tree.drafts source placed.size).toArray) := by
  cases tree with
  | node head kids =>
      let linked := linkParent placed ⟨node head kids, parent⟩ placed.size
      have size : linked.size = placed.size := size_linkParent _ _ _
      have below := place_kids source kids placed.size rest (linked.push { tree := node head kids })
        (by simp [size])
      rw [place]
      simp only [kept, Cst.kids] at below ⊢
      -- The tree's own draft is the last one when its kids begin to link themselves.
      rw [below, Array.size_push, size, ← size, addLinks_push, size]
      simp [linked, drafts]

/-- Placing the parts of one parent adds their links to it, in order, and appends their drafts. -/
theorem place_kids (source : ByteArray) (kids : List Cst) (parent : Nat) (rest : List Seedling)
    (placed : Array Draft) (known : parent < placed.size) :
    place ((kids.filter isKept).map (⟨·, some parent⟩) ++ rest) placed =
      place rest (addLinks placed parent (Outline.links placed.size (outlines source kids)) ++
        (draftsBelow source placed.size kids).toArray) := by
  cases kids with
  | nil => simp [outlines, Outline.links, draftsBelow, addLinks_nil]
  | cons kid others =>
      by_cases keep : kid.isKept
      -- The kid is placed with everything below it before its parent links the next one.
      · let next := linkParent placed ⟨kid, some parent⟩ placed.size ++
          (kid.drafts source placed.size).toArray
        have size : next.size = placed.size + (kid.outline source).size := by
          simp [next, size_linkParent, length_drafts]
        have tail := place_kids source others parent rest next (by omega)
        simp only [List.filter_cons, keep, ↓reduceIte, List.map_cons, List.cons_append]
        rw [place_tree source kid, tail, size, addLinks_linkParent _ _ _ _ _ _ known]
        simp [outlines, Outline.links, draftsBelow, keep]
      · simpa [List.filter_cons, outlines, draftsBelow, keep] using
          place_kids source others parent rest placed known

end

end Cst

namespace Arena

/-- The arena of a concrete tree is the layout of its outline. -/
theorem items_ofCst (source : ByteArray) (tree : Cst) (hasErrors : Bool) :
    (ofCst source tree hasErrors).items = ((tree.outline source).layout 0).toArray := by
  have placed := Cst.place_tree source tree none [] #[]
  rw [Cst.place_nil] at placed
  simp only [ofCst, placed, Cst.linkParent, Array.empty_append, List.size_toArray, List.length_nil]
  rw [← Cst.map_item_drafts, List.map_toArray]

end Arena

end ScriptMetrics
