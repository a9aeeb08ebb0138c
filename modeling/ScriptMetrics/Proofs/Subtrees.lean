import Mathlib.Data.List.Forall2
import ScriptMetrics.Proofs.Totality
import ScriptMetrics.Proofs.Unfolding

/-!
The subtrees of a concrete tree and the nodes that stand for them. The arena of a concrete tree is
complete and no position in it has two parents; walking it from a node meets one node for each kept
subtree of the tree that the node stands for, in pre-order.
-/

namespace ScriptMetrics

namespace Draft

theorem Indexes.inside {fields : List (String × List Nat)} {links : List (Nat × Option String)}
    (indexes : Indexes fields links) (field : String × List Nat) (member : field ∈ fields) (index : Nat)
    (listed : index ∈ field.2) : index ∈ links.map Prod.fst := by
  obtain ⟨name, children⟩ := field
  obtain ⟨front, back, rfl⟩ := List.append_of_mem member
  -- No key comes twice, so looking the name up finds this very entry.
  have found : (front ++ (name, children) :: back).lookup name = some children := by
    refine List.lookup_eq_some_iff.mpr ⟨front, back, rfl, ?_⟩
    intro earlier before
    have distinct := indexes.distinct
    rw [List.map_append, List.nodup_append] at distinct
    have apart := distinct.2.2 earlier.1 (List.mem_map_of_mem before) name List.mem_cons_self
    exact bne_iff_ne.mpr (Ne.symm apart)
  rw [indexes.lookup] at found
  split at found
  · cases found
  · cases found
    obtain ⟨link, filled, rfl⟩ := List.mem_map.mp listed
    exact List.mem_map_of_mem (List.mem_filter.mp filled).1

end Draft

namespace Arena

/-- A complete arena in which no position has two parents. -/
structure Treelike (arena : Arena) : Prop extends Complete arena where
  once : ∀ index, arena.listings index ≤ 1

theorem fieldsInside_ofCst (source : ByteArray) (tree : Cst) (hasErrors : Bool) :
    ∀ node ∈ (ofCst source tree hasErrors).nodes, ∀ field ∈ node.fields, ∀ index ∈ field.2,
      index < (ofCst source tree hasErrors).size := by
  intro node member field declared index listed
  apply (ofCst_links_forward source tree hasErrors node member index ?_).2
  rw [mem_nodes] at member
  obtain ⟨item, found, same⟩ := Option.map_eq_some_iff.mp member
  rw [ofCst, Array.getElem?_map] at found
  obtain ⟨draft, _, rfl⟩ := Option.map_eq_some_iff.mp found
  rw [← same] at declared ⊢
  exact (Draft.indexes_fieldsOf draft.links.toList).inside field declared index listed

theorem ofCst_treelike (source : ByteArray) (tree : Cst) (hasErrors : Bool) :
    (ofCst source tree hasErrors).Treelike where
  inside node member child listed := (ofCst_links_forward source tree hasErrors node member child listed).2
  acyclic := acyclic_of_forward _ fun node member child listed =>
    (ofCst_links_forward source tree hasErrors node member child listed).1
  fieldsInside := fieldsInside_ofCst source tree hasErrors
  once index := by
    rw [listings, ofCst_links_once]
    split <;> omega

theorem unfolds_ofCst (source : ByteArray) (tree : Cst) (hasErrors : Bool) :
    (ofCst source tree hasErrors).Unfolds 0 (tree.outline source) := by
  have spans := (ofCst source tree hasErrors).spans_items
  rw [items_ofCst, List.toList_toArray] at spans
  exact unfolds_of_spans _ _ 0 spans

end Arena

namespace Cst

mutual

/-- The subtrees that an arena keeps, in pre-order, the tree itself first. -/
def subtrees : Cst → List Cst
  | node head kids => node head kids :: subtreesBelow kids

def subtreesBelow : List Cst → List Cst
  | [] => []
  | kid :: rest => if kid.isKept then kid.subtrees ++ subtreesBelow rest else subtreesBelow rest

end

def isDeclaration (tree : Cst) : Bool :=
  Kind.declarations.contains tree.head.kind

/-- The declarations that an arena keeps, in pre-order. -/
def declarations (tree : Cst) : List Cst :=
  tree.subtrees.filter isDeclaration

end Cst

namespace Arena

/-- A node that stands for a subtree. -/
structure StandsFor (arena : Arena) (source : ByteArray) (node : Node) (tree : Cst) : Prop where
  member : node ∈ arena.nodes
  unfolds : arena.Unfolds node.index (tree.outline source)

theorem StandsFor.kind {arena : Arena} {source : ByteArray} {node : Node} {tree : Cst}
    (stands : arena.StandsFor source node tree) : node.kind = tree.head.kind := by
  obtain ⟨member, unfolds⟩ := stands
  cases tree with
  | node head kids =>
      rw [Cst.outline] at unfolds
      cases unfolds with
      | node found located labelled _ _ =>
          rw [(arena.mem_nodes node).mp member] at located
          cases located
          exact congrArg Label.kind labelled

section Standing

variable (arena : Arena) (acyclic : arena.Acyclic) (source : ByteArray)

mutual

-- The nodes below a position stand for the kept subtrees of the tree it unfolds to, one for one.
theorem preorder_stands (tree : Cst) (index : Nat) (unfolds : arena.Unfolds index (tree.outline source)) :
    List.Forall₂ (arena.StandsFor source) (arena.preorder acyclic index) tree.subtrees := by
  cases tree with
  | node head kids =>
      have top := unfolds
      rw [Cst.outline] at unfolds
      cases unfolds with
      | node node found labelled indexed below =>
          have same := arena.index_of_node? index node found
          subst same
          rw [arena.preorder_node? acyclic node.index node found, Cst.subtrees]
          exact .cons ⟨(arena.mem_nodes node).mpr found, top⟩ (preorder_standsBelow kids _ below)

theorem preorder_standsBelow (kids : List Cst) (indices : List Nat)
    (unfold : List.Forall₂ arena.Unfolds indices (Cst.outlines source kids)) :
    List.Forall₂ (arena.StandsFor source) (indices.flatMap (arena.preorder acyclic))
      (Cst.subtreesBelow kids) := by
  cases kids with
  | nil =>
      rw [Cst.outlines] at unfold
      cases unfold
      rw [Cst.subtreesBelow]
      exact .nil
  | cons kid rest =>
      rw [Cst.outlines] at unfold
      rw [Cst.subtreesBelow]
      by_cases keep : kid.isKept
      · rw [if_pos keep] at unfold ⊢
        cases unfold with
        | cons first others =>
            rw [List.flatMap_cons]
            exact List.rel_append (preorder_stands kid _ first) (preorder_standsBelow rest _ others)
      · rw [if_neg keep] at unfold ⊢
        exact preorder_standsBelow rest indices unfold

end

end Standing

end Arena

end ScriptMetrics
