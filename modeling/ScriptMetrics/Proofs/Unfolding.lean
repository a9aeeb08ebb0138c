import Mathlib.Data.List.Forall2
import ScriptMetrics.Proofs.Association
import ScriptMetrics.Proofs.Outline

/-!
What the arena of a concrete tree says. Unfolding an arena from a position follows the links of the
item found there; the arena of a concrete tree unfolds to the outline of that tree. Links only lead
forward, and each position but the first is linked exactly once.
-/

namespace ScriptMetrics

namespace Draft

def filling (links : List (Nat × Option String)) (name : String) : List Nat :=
  (links.filter (·.2 == some name)).map Prod.fst

theorem lookup_addField (fields : List (String × List Nat)) (name other : String) (child : Nat) :
    (addField fields name child).lookup other =
      if other = name then some ((fields.lookup name).getD [] ++ [child]) else fields.lookup other := by
  unfold addField
  rw [any_eq_isSome_lookup]
  cases found : fields.lookup name with
  | some children =>
      simp only [Option.isSome_some, ↓reduceIte]
      rw [lookup_map fun key children => if key == name then children ++ [child] else children]
      by_cases same : other = name
      · simp [same, found]
      · simp [same]
  | none =>
      simp only [Option.isSome_none, Bool.false_eq_true, ↓reduceIte, List.lookup_append,
        List.lookup_cons]
      by_cases same : other = name
      · simp [same, found]
      · simp [same, beq_eq_false_iff_ne.mpr same]

theorem keys_addField (fields : List (String × List Nat)) (name : String) (child : Nat)
    (distinct : (fields.map Prod.fst).Nodup) :
    ((addField fields name child).map Prod.fst).Nodup := by
  unfold addField
  by_cases known : fields.any (·.1 == name)
  · simpa [known, Function.comp_def] using distinct
  · simp only [known, Bool.false_eq_true, ↓reduceIte, List.map_append, List.nodup_append]
    refine ⟨distinct, by simp, ?_⟩
    intro key member other last same
    simp only [List.map_cons, List.map_nil, List.mem_singleton] at last
    obtain ⟨field, inside, rfl⟩ := List.mem_map.mp member
    exact known (List.any_eq_true.mpr ⟨field, inside, by simp [same, last]⟩)

theorem lookup_addLink (fields : List (String × List Nat)) (link : Nat × Option String) (name : String) :
    (addLink fields link).lookup name =
      if link.2 = some name ∧ name ≠ "" then some ((fields.lookup name).getD [] ++ [link.1])
      else fields.lookup name := by
  obtain ⟨child, field⟩ := link
  cases field with
  | none => simp [addLink]
  | some other =>
      by_cases blank : other = ""
      · subst blank
        have never : ¬ ("" = name ∧ name ≠ "") := fun ⟨same, named⟩ => named same.symm
        simp only [addLink, beq_self_eq_true, ↓reduceIte, Option.some.injEq, never]
      · simp only [addLink, beq_eq_false_iff_ne.mpr blank, Bool.false_eq_true, ↓reduceIte,
          lookup_addField, Option.some.injEq]
        by_cases same : name = other
        · simp [same, blank]
        · simp [same, Ne.symm same]

theorem keys_addLink (fields : List (String × List Nat)) (link : Nat × Option String)
    (distinct : (fields.map Prod.fst).Nodup) : ((addLink fields link).map Prod.fst).Nodup := by
  unfold addLink
  split
  · exact distinct
  · split
    · exact distinct
    · exact keys_addField fields _ link.1 distinct

theorem lookup_foldl_addLink (links : List (Nat × Option String)) (fields : List (String × List Nat))
    (name : String) :
    (links.foldl addLink fields).lookup name =
      if name = "" ∨ filling links name = [] then fields.lookup name
      else some ((fields.lookup name).getD [] ++ filling links name) := by
  induction links generalizing fields with
  | nil => simp [filling]
  | cons link rest ih =>
      rw [List.foldl_cons, ih, lookup_addLink]
      by_cases blank : name = ""
      · simp [blank]
      · by_cases same : link.2 = some name
        · have head : filling (link :: rest) name = link.1 :: filling rest name := by
            simp [filling, same]
          by_cases last : filling rest name = [] <;> simp [blank, same, head, last]
        · have skip : filling (link :: rest) name = filling rest name := by
            simp [filling, same]
          simp [blank, same, skip]

theorem keys_foldl_addLink (links : List (Nat × Option String)) (fields : List (String × List Nat))
    (distinct : (fields.map Prod.fst).Nodup) :
    ((links.foldl addLink fields).map Prod.fst).Nodup := by
  induction links generalizing fields with
  | nil => exact distinct
  | cons link rest ih => exact ih (addLink fields link) (keys_addLink fields link distinct)

/-- A map of fields that sends each name to the positions linked under it, in order. Names that no
link carries and the empty name have no entry. -/
structure Indexes (fields : List (String × List Nat)) (links : List (Nat × Option String)) : Prop where
  distinct : (fields.map Prod.fst).Nodup
  lookup : ∀ name, fields.lookup name =
    if name = "" ∨ filling links name = [] then none else some (filling links name)

theorem indexes_fieldsOf (links : List (Nat × Option String)) : Indexes (fieldsOf links) links where
  distinct := keys_foldl_addLink links [] (by simp)
  lookup name := by simpa [fieldsOf] using lookup_foldl_addLink links [] name

end Draft

namespace Outline

theorem size_pos (outline : Outline) : 0 < outline.size := by
  cases outline with
  | node label field parts =>
      rw [size]
      omega

theorem zip_links (position : Nat) (parts : List Outline) :
    ((links position parts).map Prod.fst).zip (parts.map field) = links position parts := by
  induction parts generalizing position with
  | nil => rfl
  | cons part rest ih => simp [links, ih]

theorem links_bounds (position : Nat) (parts : List Outline) :
    ∀ child ∈ (links position parts).map Prod.fst, position ≤ child ∧ child < position + sizes parts := by
  induction parts generalizing position with
  | nil => simp [links]
  | cons part rest ih =>
      intro child member
      have room := part.size_pos
      simp only [links, List.map_cons, List.mem_cons] at member
      simp only [sizes]
      rcases member with here | later
      · omega
      · have bounds := ih (position + part.size) child later
        omega

mutual

theorem layout_bounds (position : Nat) (outline : Outline) (place : Nat) (item : Item)
    (found : (outline.layout position)[place]? = some item) :
    ∀ child ∈ item.children, position + place < child ∧ child < position + outline.size := by
  cases outline with
  | node label field parts =>
      intro child member
      simp only [layout, size] at found ⊢
      cases place with
      | zero =>
          simp only [List.getElem?_cons_zero, Option.some.injEq] at found
          subst found
          have bounds := links_bounds (position + 1) parts child member
          omega
      | succ place =>
          have bounds := layouts_bounds (position + 1) parts place item (by simpa using found)
            child member
          omega

theorem layouts_bounds (position : Nat) (parts : List Outline) (place : Nat) (item : Item)
    (found : (layouts position parts)[place]? = some item) :
    ∀ child ∈ item.children, position + place < child ∧ child < position + sizes parts := by
  cases parts with
  | nil => simp [layouts] at found
  | cons part rest =>
      intro child member
      simp only [layouts, List.getElem?_append, length_layout] at found
      simp only [sizes]
      split at found
      · have bounds := layout_bounds position part place item found child member
        omega
      · have bounds := layouts_bounds (position + part.size) rest _ item found child member
        omega

end

mutual

/-- The links of a layout are all its positions but the first, each once. -/
theorem children_layout (position : Nat) (outline : Outline) :
    ((outline.layout position).flatMap (·.children)).Perm
      (List.range' (position + 1) (outline.size - 1)) := by
  cases outline with
  | node label field parts =>
      have below := children_layouts (position + 1) parts
      simpa [layout, size, Label.item] using below

/-- The roots of consecutive layouts and the links inside them are all their positions. -/
theorem children_layouts (position : Nat) (parts : List Outline) :
    ((links position parts).map Prod.fst ++ (layouts position parts).flatMap (·.children)).Perm
      (List.range' position (sizes parts)) := by
  cases parts with
  | nil => simp [links, layouts, sizes]
  | cons part rest =>
      have first := children_layout position part
      have others := children_layouts (position + part.size) rest
      have room := part.size_pos
      have start : position :: List.range' (position + 1) (part.size - 1) =
          List.range' position part.size := by
        rw [← List.range'_succ, Nat.sub_add_cancel room]
      simp only [links, layouts, sizes, List.map_cons, List.flatMap_append, List.cons_append]
      rw [← List.range'_append_1, ← start, List.cons_append]
      -- The first part's own position is a link here; the rest of its positions are links inside it.
      apply List.Perm.cons
      exact (List.perm_append_comm_assoc _ _ _).trans (first.append others)

end

end Outline

namespace Arena

/-- A position unfolds to an outline if its node carries the outline's label, its children unfold to
the outline's parts, in order, and its fields name the children whose parts fill them. -/
inductive Unfolds (arena : Arena) : Nat → Outline → Prop where
  | node {position : Nat} {label : Label} {field : Option String} {parts : List Outline} (node : Node)
      (found : arena.node? position = some node)
      (labelled : node.label = label)
      (indexed : Draft.Indexes node.fields (node.children.zip (parts.map Outline.field)))
      (below : List.Forall₂ arena.Unfolds node.children parts) :
      arena.Unfolds position (.node label field parts)

def Spans (arena : Arena) (position : Nat) (items : List Item) : Prop :=
  ∀ place item, items[place]? = some item → arena.items[position + place]? = some item

theorem Spans.head {arena : Arena} {position : Nat} {item : Item} {rest : List Item}
    (spans : arena.Spans position (item :: rest)) : arena.items[position]? = some item :=
  spans 0 item rfl

theorem Spans.tail {arena : Arena} {position : Nat} {item : Item} {rest : List Item}
    (spans : arena.Spans position (item :: rest)) : arena.Spans (position + 1) rest := by
  intro place other found
  rw [Nat.add_assoc, Nat.add_comm 1]
  exact spans (place + 1) other (by simpa using found)

theorem Spans.left {arena : Arena} {position : Nat} {front back : List Item}
    (spans : arena.Spans position (front ++ back)) : arena.Spans position front := by
  intro place item found
  apply spans
  have inside := (List.getElem?_eq_some_iff.mp found).1
  rw [List.getElem?_append_left inside, found]

theorem Spans.right {arena : Arena} {position : Nat} {front back : List Item}
    (spans : arena.Spans position (front ++ back)) : arena.Spans (position + front.length) back := by
  intro place item found
  rw [Nat.add_assoc]
  apply spans
  rw [List.getElem?_append_right (Nat.le_add_right _ _), Nat.add_sub_cancel_left, found]

theorem unfolds_each (arena : Arena) (parts : List Outline)
    (each : ∀ part ∈ parts, ∀ position, arena.Spans position (part.layout position) →
      arena.Unfolds position part)
    (position : Nat) (spans : arena.Spans position (Outline.layouts position parts)) :
    List.Forall₂ arena.Unfolds ((Outline.links position parts).map Prod.fst) parts := by
  induction parts generalizing position with
  | nil => exact List.Forall₂.nil
  | cons part rest ih =>
      rw [Outline.layouts] at spans
      have others := spans.right
      rw [Outline.length_layout] at others
      exact List.Forall₂.cons (each part List.mem_cons_self position spans.left)
        (ih (fun other member => each other (List.mem_cons_of_mem part member)) _ others)

/-- Where an arena holds the layout of an outline, it unfolds to that outline. -/
theorem unfolds_of_spans (arena : Arena) (outline : Outline) (position : Nat)
    (spans : arena.Spans position (outline.layout position)) : arena.Unfolds position outline := by
  induction outline using Outline.induct generalizing position with
  | node label field parts ih =>
      rw [Outline.layout] at spans
      let item := label.item (Outline.links (position + 1) parts)
      refine .node { item with index := position } ?_ rfl ?_ ?_
      · simp [node?, spans.head, item]
      · simp only [item, Label.item, Outline.zip_links]
        exact Draft.indexes_fieldsOf _
      · exact unfolds_each arena parts ih (position + 1) spans.tail

theorem spans_items (arena : Arena) : arena.Spans 0 arena.items.toList := by
  intro place item found
  simpa using found

theorem children_nodes (arena : Arena) :
    arena.nodes.flatMap (·.children) = arena.items.toList.flatMap (·.children) := by
  rw [← items_of_nodes, List.flatMap_map]

theorem size_ofCst (source : ByteArray) (tree : Cst) (hasErrors : Bool) :
    (ofCst source tree hasErrors).size = (tree.outline source).size := by
  rw [size, items_ofCst, List.size_toArray, Outline.length_layout]

theorem ofCst_links_forward (source : ByteArray) (tree : Cst) (hasErrors : Bool) :
    ∀ node ∈ (ofCst source tree hasErrors).nodes, ∀ child ∈ node.children,
      node.index < child ∧ child < (ofCst source tree hasErrors).size := by
  intro node member child linked
  rw [mem_nodes, node?, items_ofCst] at member
  obtain ⟨item, found, same⟩ := Option.map_eq_some_iff.mp member
  rw [← same] at linked
  have bounds := Outline.layout_bounds 0 (tree.outline source) node.index item (by simpa using found)
    child linked
  rw [size_ofCst]
  omega

theorem ofCst_links_once (source : ByteArray) (tree : Cst) (hasErrors : Bool) (position : Nat) :
    ((ofCst source tree hasErrors).nodes.flatMap (·.children)).count position =
      if 0 < position ∧ position < (ofCst source tree hasErrors).size then 1 else 0 := by
  rw [children_nodes, items_ofCst, size_ofCst,
    (Outline.children_layout 0 (tree.outline source)).count_eq]
  have room := (tree.outline source).size_pos
  rw [List.count_range_1']
  congr 1
  apply propext
  omega

/-- The arena of a concrete tree is faithful to it. Nodes stand at their own index, links lead
forward and inside the arena, every position but the root's is linked exactly once, and unfolding
the root gives the tree without what an arena drops. -/
theorem ofCst_faithful (source : ByteArray) (tree : Cst) (hasErrors : Bool) :
    let arena := ofCst source tree hasErrors
    (∀ (position : Nat) (node : Node), arena.nodes[position]? = some node → node.index = position) ∧
      (∀ node ∈ arena.nodes, ∀ child ∈ node.children, node.index < child ∧ child < arena.size) ∧
      (∀ position, (arena.nodes.flatMap (·.children)).count position =
        if 0 < position ∧ position < arena.size then 1 else 0) ∧
      arena.Unfolds 0 (tree.outline source) := by
  intro arena
  refine ⟨?_, ofCst_links_forward source tree hasErrors, ofCst_links_once source tree hasErrors, ?_⟩
  · intro position node found
    rw [getElem?_nodes] at found
    exact arena.index_of_node? position node found
  · have spans := arena.spans_items
    rw [items_ofCst, List.toList_toArray] at spans
    exact unfolds_of_spans arena _ 0 spans

end Arena

end ScriptMetrics
