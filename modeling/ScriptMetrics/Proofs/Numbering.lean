import ScriptMetrics.Proofs.Likeness
import ScriptMetrics.Proofs.Subtrees

/-!
Numbers of nodes. A node of a concrete tree is told from its equals by its address, the way down to it.
Placing a tree numbers the kept addresses in pre-order, and a walk over the arena meets the numbers in
increasing order: from any node the numbers of its own subtree, one after another. The parents that a
walk of the whole arena records are the parents of the concrete tree.
-/

namespace ScriptMetrics

namespace Cst

mutual

/-- The addresses of the nodes that an arena keeps, in pre-order. An address gives the number of the part
to take at each step down from the root. -/
def addresses : Cst → List (List Nat)
  | node _ kids => [] :: addressesFrom 0 kids

def addressesFrom (number : Nat) : List Cst → List (List Nat)
  | [] => []
  | kid :: rest =>
      if kid.isKept then kid.addresses.map (number :: ·) ++ addressesFrom (number + 1) rest
      else addressesFrom (number + 1) rest

end

/-- The subtree at an address, if an arena keeps the whole way down to it. -/
def at? : Cst → List Nat → Option Cst
  | tree, [] => some tree
  | tree, number :: rest => (tree.kids[number]?.filter isKept).bind (·.at? rest)

mutual

theorem length_addresses (source : ByteArray) (tree : Cst) :
    tree.addresses.length = (tree.outline source).size := by
  cases tree with
  | node head kids =>
      simp [addresses, outline, Outline.size, length_addressesFrom source 0 kids, Nat.add_comm]

theorem length_addressesFrom (source : ByteArray) (number : Nat) (kids : List Cst) :
    (addressesFrom number kids).length = Outline.sizes (outlines source kids) := by
  cases kids with
  | nil => rfl
  | cons kid rest =>
      have others := length_addressesFrom source (number + 1) rest
      by_cases keep : kid.isKept
      · simp [addressesFrom, outlines, Outline.sizes, keep, others, length_addresses source kid]
      · simp [addressesFrom, outlines, keep, others]

end

mutual

theorem map_at?_addresses (tree : Cst) : tree.addresses.map tree.at? = tree.subtrees.map some := by
  cases tree with
  | node head kids =>
      rw [addresses, subtrees, List.map_cons, List.map_cons]
      exact congrArg _ (map_at?_addressesFrom head [] kids)

theorem map_at?_addressesFrom (head : CstHead) (before kids : List Cst) :
    (addressesFrom before.length kids).map (node head (before ++ kids)).at? =
      (subtreesBelow kids).map some := by
  cases kids with
  | nil => rfl
  | cons kid rest =>
      have others := map_at?_addressesFrom head (before ++ [kid]) rest
      rw [List.append_assoc, List.length_append] at others
      by_cases keep : kid.isKept
      · have inside : ∀ address, (node head (before ++ kid :: rest)).at? (before.length :: address) =
            kid.at? address := by
          intro address
          simp [at?, Cst.kids, Option.filter, keep]
        simp only [addressesFrom, subtreesBelow, keep, ↓reduceIte, List.map_append, List.map_map]
        rw [← map_at?_addresses kid]
        exact congrArg₂ _ (List.map_congr_left fun address _ => inside address) others
      · simpa [addressesFrom, subtreesBelow, keep] using others

end

theorem length_subtrees (tree : Cst) : tree.subtrees.length = tree.addresses.length := by
  have lengths := congrArg List.length tree.map_at?_addresses
  rwa [List.length_map, List.length_map, eq_comm] at lengths

theorem getElem?_addresses (tree : Cst) (index : Nat) :
    tree.addresses[index]?.bind tree.at? = tree.subtrees[index]? := by
  have listed := congrArg (·[index]?) tree.map_at?_addresses
  simp only [List.getElem?_map] at listed
  cases here : tree.addresses[index]? <;> cases there : tree.subtrees[index]? <;> simp_all

theorem addressesFrom_below (number : Nat) (kids : List Cst) :
    ∀ address ∈ addressesFrom number kids, ∃ step rest, address = step :: rest ∧ number ≤ step := by
  induction kids generalizing number with
  | nil => simp [addressesFrom]
  | cons kid rest ih =>
      intro address listed
      have later : address ∈ addressesFrom (number + 1) rest →
          ∃ step rest, address = step :: rest ∧ number ≤ step := by
        intro behind
        obtain ⟨step, below, same, beyond⟩ := ih (number + 1) address behind
        exact ⟨step, below, same, by omega⟩
      rw [addressesFrom] at listed
      split at listed
      · rcases List.mem_append.mp listed with here | behind
        · obtain ⟨below, _, rfl⟩ := List.mem_map.mp here
          exact ⟨number, below, rfl, Nat.le_refl number⟩
        · exact later behind
      · exact later listed

mutual

/-- Pre-order is the lexicographic order of addresses. -/
theorem addresses_increasing (tree : Cst) : tree.addresses.Pairwise (· < ·) := by
  cases tree with
  | node head kids =>
      rw [addresses, List.pairwise_cons]
      constructor
      · intro address listed
        obtain ⟨step, rest, rfl, _⟩ := addressesFrom_below 0 kids address listed
        exact List.nil_lt_cons step rest
      · exact addressesFrom_increasing 0 kids

theorem addressesFrom_increasing (number : Nat) (kids : List Cst) :
    (addressesFrom number kids).Pairwise (· < ·) := by
  cases kids with
  | nil => exact List.Pairwise.nil
  | cons kid rest =>
      have others := addressesFrom_increasing (number + 1) rest
      rw [addressesFrom]
      split
      · rw [List.pairwise_append, List.pairwise_map]
        refine ⟨?_, others, ?_⟩
        · apply (addresses_increasing kid).imp
          intro upper lower less
          exact List.cons_lt_cons_iff.mpr (Or.inr ⟨rfl, less⟩)
        · intro here listed there behind
          obtain ⟨below, _, rfl⟩ := List.mem_map.mp listed
          obtain ⟨step, others, rfl, beyond⟩ := addressesFrom_below (number + 1) rest there behind
          exact List.cons_lt_cons_iff.mpr (Or.inl (by omega))
      · exact others

end

theorem addresses_nodup (tree : Cst) : tree.addresses.Nodup := by
  apply (addresses_increasing tree).imp
  rintro upper _ less rfl
  exact List.lt_irrefl upper less

/-- The lower of two entries of a row of addresses is one step further down than the upper. -/
def StepsDown (addresses : List (List Nat)) (upper lower : Nat) : Prop :=
  ∃ address number, addresses[upper]? = some address ∧ addresses[lower]? = some (address ++ [number])

section StepsDown

variable {addresses : List (List Nat)} {upper lower : Nat}

theorem StepsDown.append_left (steps : StepsDown addresses upper lower) (more : List (List Nat)) :
    StepsDown (addresses ++ more) upper lower := by
  obtain ⟨address, number, above, below⟩ := steps
  refine ⟨address, number, ?_, ?_⟩
  · rw [List.getElem?_append_left (List.getElem?_eq_some_iff.mp above).1, above]
  · rw [List.getElem?_append_left (List.getElem?_eq_some_iff.mp below).1, below]

theorem StepsDown.append_right (steps : StepsDown addresses upper lower) (front : List (List Nat)) :
    StepsDown (front ++ addresses) (front.length + upper) (front.length + lower) := by
  obtain ⟨address, number, above, below⟩ := steps
  refine ⟨address, number, ?_, ?_⟩
  · rw [List.getElem?_append_right (by omega), Nat.add_sub_cancel_left, above]
  · rw [List.getElem?_append_right (by omega), Nat.add_sub_cancel_left, below]

theorem StepsDown.map_cons (steps : StepsDown addresses upper lower) (step : Nat) :
    StepsDown (addresses.map (step :: ·)) upper lower := by
  obtain ⟨address, number, above, below⟩ := steps
  refine ⟨step :: address, number, ?_, ?_⟩
  · rw [List.getElem?_map, above, Option.map_some]
  · rw [List.getElem?_map, below, Option.map_some, List.cons_append]

end StepsDown

-- The roots of a row of parts are one step below their common parent.
theorem links_step (source : ByteArray) (position number : Nat) (kids : List Cst) :
    ∀ child ∈ (Outline.links position (outlines source kids)).map Prod.fst,
      ∃ lower step, child = position + lower ∧ (addressesFrom number kids)[lower]? = some [step] := by
  induction kids generalizing position number with
  | nil => simp [outlines, Outline.links]
  | cons kid rest ih =>
      intro child listed
      rw [outlines] at listed
      rw [addressesFrom]
      by_cases keep : kid.isKept
      · rw [if_pos keep] at listed ⊢
        rw [Outline.links, List.map_cons, List.mem_cons] at listed
        rcases listed with rfl | later
        · cases kid with
          | node head below => exact ⟨0, number, rfl, by simp [addresses]⟩
        · obtain ⟨lower, step, rfl, found⟩ := ih _ (number + 1) child later
          refine ⟨kid.addresses.length + lower, step, ?_, ?_⟩
          · rw [length_addresses source, Nat.add_assoc]
          · rw [List.getElem?_append_right (by simp), List.length_map, Nat.add_sub_cancel_left, found]
      · rw [if_neg keep] at listed ⊢
        exact ih position (number + 1) child listed

mutual

/-- Links of a layout lead one step down. -/
theorem layout_steps (source : ByteArray) (position : Nat) (tree : Cst) (place : Nat) (item : Item)
    (found : ((tree.outline source).layout position)[place]? = some item) :
    ∀ child ∈ item.children, ∃ lower, child = position + lower ∧ StepsDown tree.addresses place lower := by
  cases tree with
  | node head kids =>
      intro child listed
      rw [outline, Outline.layout] at found
      rw [addresses]
      cases place with
      | zero =>
          rw [List.getElem?_cons_zero, Option.some.injEq] at found
          subst found
          obtain ⟨lower, step, rfl, there⟩ := links_step source (position + 1) 0 kids child listed
          exact ⟨lower + 1, by omega, [], step, rfl, there⟩
      | succ place =>
          rw [List.getElem?_cons_succ] at found
          obtain ⟨lower, rfl, steps⟩ := layouts_steps source (position + 1) 0 kids place item found
            child listed
          refine ⟨lower + 1, by omega, ?_⟩
          simpa [Nat.add_comm] using steps.append_right [[]]

theorem layouts_steps (source : ByteArray) (position number : Nat) (kids : List Cst) (place : Nat)
    (item : Item) (found : (Outline.layouts position (outlines source kids))[place]? = some item) :
    ∀ child ∈ item.children,
      ∃ lower, child = position + lower ∧ StepsDown (addressesFrom number kids) place lower := by
  cases kids with
  | nil => simp [outlines, Outline.layouts] at found
  | cons kid rest =>
      intro child listed
      rw [outlines] at found
      rw [addressesFrom]
      by_cases keep : kid.isKept
      · rw [if_pos keep] at found ⊢
        rw [Outline.layouts, List.getElem?_append, Outline.length_layout] at found
        split at found
        · obtain ⟨lower, rfl, steps⟩ := layout_steps source position kid place item found child listed
          exact ⟨lower, rfl, (steps.map_cons number).append_left _⟩
        · next beyond =>
            obtain ⟨lower, rfl, steps⟩ := layouts_steps source _ (number + 1) rest _ item found child
              listed
            refine ⟨(kid.outline source).size + lower, by omega, ?_⟩
            have shifted := steps.append_right (kid.addresses.map (number :: ·))
            rw [List.length_map, length_addresses source,
              Nat.add_sub_cancel' (Nat.le_of_not_lt beyond)] at shifted
            exact shifted
      · rw [if_neg keep] at found ⊢
        exact layouts_steps source position (number + 1) rest place item found child listed

end

end Cst

namespace ParentTable

theorem size_eq_length (table : ParentTable) (children : List Nat) (distinct : children.Nodup)
    (domain : ∀ child, child ∈ children ↔ ∃ parent, table.parent? child = some parent) :
    table.size = children.length := by
  have same : table.entries.keys.Perm children := by
    rw [List.perm_ext_iff_of_nodup Std.TreeMap.nodup_keys distinct]
    intro child
    rw [domain, Std.TreeMap.mem_keys, ← Std.TreeMap.isSome_getElem?_iff_mem, Option.isSome_iff_exists]
    rfl
  rw [← same.length_eq, Std.TreeMap.length_keys, size]

end ParentTable

namespace Arena

/-- The records of a walk with an empty table are the links below the start, where no position has two
parents. -/
theorem Treelike.recorded_iff {arena : Arena} (treelike : arena.Treelike) (top : Node)
    (member : top ∈ arena.nodes) (child parent : Nat) :
    (ParentTable.empty.adoptAll (arena.preorder treelike.acyclic top.index)).parent? child =
        some parent ↔ arena.Reaches top.index parent ∧ arena.Links parent child := by
  have rooted := (arena.rooted_adoptAll treelike.toSound top member .empty top.index .top).2
  have recorded : ∀ upper, arena.Reaches top.index upper → arena.Links upper child →
      (ParentTable.empty.adoptAll (arena.preorder treelike.acyclic top.index)).parent? child =
        some upper := by
    intro upper reached linked
    cases rooted child (reached.tail linked) with
    | top => exact absurd (Relation.TransGen.tail' reached linked) (treelike.acyclic _)
    | child below recorded otherLinked _ =>
        rwa [arena.parent_unique _ _ child (treelike.once child) otherLinked linked] at recorded
  constructor
  · intro found
    by_cases listed : ∃ node ∈ arena.preorder treelike.acyclic top.index, child ∈ node.children
    · obtain ⟨node, visited, inside⟩ := listed
      obtain ⟨nodeMember, reached⟩ := (arena.mem_preorder treelike.acyclic _ node).mp visited
      have linked := (arena.links_iff node nodeMember child).mpr inside
      rw [recorded node.index reached linked, Option.some.injEq] at found
      subst found
      exact ⟨reached, linked⟩
    · rw [ParentTable.parent?_adoptAll_outside] at found
      · simp at found
      · intro node visited inside
        exact listed ⟨node, visited, inside⟩
  · rintro ⟨reached, linked⟩
    exact recorded parent reached linked

section Spanning

variable (arena : Arena) (acyclic : arena.Acyclic)

theorem indices_each (parts : List Outline)
    (each : ∀ part ∈ parts, ∀ position, arena.Spans position (part.layout position) →
      (arena.preorder acyclic position).map Node.index = List.range' position part.size)
    (position : Nat) (spans : arena.Spans position (Outline.layouts position parts)) :
    (((Outline.links position parts).map Prod.fst).flatMap (arena.preorder acyclic)).map Node.index =
      List.range' position (Outline.sizes parts) := by
  induction parts generalizing position with
  | nil => rfl
  | cons part rest ih =>
      rw [Outline.layouts] at spans
      have others := spans.right
      rw [Outline.length_layout] at others
      have first := each part List.mem_cons_self position spans.left
      have later := ih (fun other member => each other (List.mem_cons_of_mem part member)) _ others
      rw [Outline.links, Outline.sizes, List.map_cons, List.flatMap_cons, List.map_append, first, later,
        List.range'_append_1]

/-- Where an arena holds the layout of an outline, the pre-order meets its positions in order. -/
theorem indices_of_spans (outline : Outline) (position : Nat)
    (spans : arena.Spans position (outline.layout position)) :
    (arena.preorder acyclic position).map Node.index = List.range' position outline.size := by
  induction outline using Outline.induct generalizing position with
  | node label field parts ih =>
      rw [Outline.layout] at spans
      have below := arena.indices_each acyclic parts ih (position + 1) spans.tail
      have found : arena.node? position =
          some { label.item (Outline.links (position + 1) parts) with index := position } := by
        simp [node?, spans.head]
      rw [arena.preorder_node? acyclic position _ found, List.map_cons, Outline.size, Nat.add_comm 1,
        List.range'_succ]
      exact congrArg _ below

end Spanning

theorem attendAll_silent {σ : Type} (visit : Visitor σ) (silent : visit.Silent) (nodes : List Node)
    (walk after : Walk σ) (run : attendAll visit nodes walk = .ok () after) :
    after.parents = walk.parents.adoptAll nodes := by
  induction nodes generalizing walk with
  | nil =>
      obtain ⟨_, rfl⟩ := EStateM.Result.ok.inj run
      rfl
  | cons node rest ih =>
      rw [attendAll_cons] at run
      cases called : visit node walk with
      | error fault failed => simp [called] at run
      | ok _ visited =>
          simp only [called] at run
          rw [ih _ run, silent node walk visited called]
          rfl

section Numbers

variable (source : ByteArray) (tree : Cst) (hasErrors : Bool)

theorem indices_ofCst (acyclic : (ofCst source tree hasErrors).Acyclic) :
    ((ofCst source tree hasErrors).preorder acyclic 0).map Node.index =
      List.range' 0 (ofCst source tree hasErrors).size := by
  have spans := (ofCst source tree hasErrors).spans_items
  rw [items_ofCst, List.toList_toArray] at spans
  rw [size_ofCst]
  exact indices_of_spans _ acyclic (tree.outline source) 0 spans

theorem preorder_ofCst (acyclic : (ofCst source tree hasErrors).Acyclic) :
    (ofCst source tree hasErrors).preorder acyclic 0 = (ofCst source tree hasErrors).nodes := by
  let arena := ofCst source tree hasErrors
  apply List.ext_getElem?
  intro index
  rw [getElem?_nodes]
  have entry := congrArg (·[index]?) (indices_ofCst source tree hasErrors acyclic)
  simp only [List.getElem?_map] at entry
  cases found : (arena.preorder acyclic 0)[index]? with
  | none =>
      rw [found, Option.map_none] at entry
      have outside := List.getElem?_eq_none_iff.mp entry.symm
      rw [List.length_range'] at outside
      exact ((arena.node?_eq_none index).mpr outside).symm
  | some node =>
      have member := ((arena.mem_preorder acyclic 0 node).mp (List.mem_of_getElem? found)).1
      rw [found, Option.map_some] at entry
      obtain ⟨_, number⟩ := List.getElem?_eq_some_iff.mp entry.symm
      rw [List.getElem_range', Nat.zero_add, Nat.one_mul] at number
      rw [number]
      exact ((arena.mem_nodes node).mp member).symm

-- The pre-order of a node is a stretch of the whole pre-order, and so are its numbers.
theorem indices_block (acyclic : (ofCst source tree hasErrors).Acyclic) (start : Node)
    (member : start ∈ (ofCst source tree hasErrors).nodes) :
    ((ofCst source tree hasErrors).preorder acyclic start.index).map Node.index =
      List.range' start.index ((ofCst source tree hasErrors).preorder acyclic start.index).length := by
  let arena := ofCst source tree hasErrors
  have reached : arena.Reaches 0 start.index := by
    have listed := member
    rw [← preorder_ofCst source tree hasErrors acyclic, mem_preorder] at listed
    exact listed.2
  obtain ⟨front, back, split⟩ :=
    (arena.preorder_infix acyclic 0 start.index reached).map Node.index
  rw [indices_ofCst, List.append_assoc, eq_comm, List.range'_eq_append_iff] at split
  obtain ⟨skipped, _, _, rest⟩ := split
  rw [eq_comm, List.range'_eq_append_iff] at rest
  obtain ⟨count, enough, block, _⟩ := rest
  have length := congrArg List.length block
  rw [List.length_map, List.length_range'] at length
  rw [block, length]
  rw [arena.preorder_eq acyclic start member, List.map_cons] at block
  cases count with
  | zero => simp at block
  | succ count =>
      rw [List.range'_succ, List.cons.injEq] at block
      rw [block.1]

theorem nodes_stand : List.Forall₂ ((ofCst source tree hasErrors).StandsFor source)
    (ofCst source tree hasErrors).nodes tree.subtrees := by
  have acyclic := (ofCst_treelike source tree hasErrors).acyclic
  rw [← preorder_ofCst source tree hasErrors acyclic]
  exact preorder_stands _ acyclic source tree 0 (unfolds_ofCst source tree hasErrors)

theorem exists_parent (child : Nat) (below : 0 < child)
    (inside : child < (ofCst source tree hasErrors).size) :
    ∃ parent, (ofCst source tree hasErrors).Links parent child := by
  have once := ofCst_links_once source tree hasErrors child
  rw [if_pos ⟨below, inside⟩] at once
  have listed := List.count_pos_iff.mp (Nat.lt_of_lt_of_eq Nat.zero_lt_one once.symm)
  obtain ⟨node, member, linked⟩ := List.mem_flatMap.mp listed
  exact ⟨node.index, node, member, rfl, linked⟩

/-- The links of an arena are the steps down of the concrete tree. -/
theorem links_ofCst_iff (parent child : Nat) :
    (ofCst source tree hasErrors).Links parent child ↔ Cst.StepsDown tree.addresses parent child := by
  let arena := ofCst source tree hasErrors
  have forward : ∀ upper, arena.Links upper child → Cst.StepsDown tree.addresses upper child := by
    rintro upper ⟨node, member, rfl, listed⟩
    rw [mem_nodes, node?, items_ofCst] at member
    obtain ⟨item, found, same⟩ := Option.map_eq_some_iff.mp member
    rw [← same] at listed
    obtain ⟨lower, rfl, steps⟩ := Cst.layout_steps source 0 tree node.index item (by simpa using found)
      child listed
    rwa [Nat.zero_add]
  constructor
  · exact forward parent
  · rintro ⟨address, number, above, below⟩
    have lower : 0 < child := by
      apply Nat.pos_of_ne_zero
      rintro rfl
      cases tree with
      | node head kids => simp [Cst.addresses] at below
    have inside : child < arena.size := by
      rw [size_ofCst, ← Cst.length_addresses]
      exact (List.getElem?_eq_some_iff.mp below).1
    obtain ⟨upper, linked⟩ := exists_parent source tree hasErrors child lower inside
    obtain ⟨other, last, there, same⟩ := forward upper linked
    -- The two ways up from the child are one, and no address is listed twice.
    rw [below, Option.some.injEq] at same
    obtain ⟨rfl, _⟩ := List.append_inj' same rfl
    rw [← there] at above
    have known := (List.getElem?_eq_some_iff.mp there).1
    rwa [(List.getElem?_inj known tree.addresses_nodup).mp above.symm] at linked

theorem recorded_ofCst_iff (parent child : Nat) :
    (ParentTable.empty.adoptAll (ofCst source tree hasErrors).nodes).parent? child = some parent ↔
      (ofCst source tree hasErrors).Links parent child := by
  have treelike := ofCst_treelike source tree hasErrors
  have all := preorder_ofCst source tree hasErrors treelike.acyclic
  have recorded := treelike.recorded_iff (root _) (root_mem _) child parent
  rw [show (ofCst source tree hasErrors).root.index = 0 from rfl, all] at recorded
  rw [recorded]
  constructor
  · exact And.right
  · intro linked
    obtain ⟨node, member, rfl, listed⟩ := id linked
    rw [← all, mem_preorder] at member
    exact ⟨member.2, linked⟩

theorem exists_recorded_iff (child : Nat) :
    (∃ parent, (ParentTable.empty.adoptAll (ofCst source tree hasErrors).nodes).parent? child =
        some parent) ↔ 0 < child ∧ child < (ofCst source tree hasErrors).size := by
  simp only [recorded_ofCst_iff]
  constructor
  · rintro ⟨_, node, member, _, listed⟩
    have bounds := ofCst_links_forward source tree hasErrors node member child listed
    exact ⟨Nat.zero_lt_of_lt bounds.1, bounds.2⟩
  · rintro ⟨below, inside⟩
    exact exists_parent source tree hasErrors child below inside

theorem size_records :
    (ParentTable.empty.adoptAll (ofCst source tree hasErrors).nodes).size + 1 =
      (ofCst source tree hasErrors).size := by
  have room := (ofCst source tree hasErrors).hasRoot
  rw [ParentTable.size_eq_length _ (List.range' 1 ((ofCst source tree hasErrors).size - 1))]
  · rw [List.length_range']
    exact Nat.sub_add_cancel room
  · exact List.nodup_range'
  · intro child
    rw [exists_recorded_iff, List.mem_range'_1]
    change 0 < size _ at room
    omega

end Numbers

/-- Numbering and walking agree. The node at a position stands for the subtree that has this number, and
a walk from it meets its own number and those after it, as many as the subtree has kept nodes. A walk
from the root meets all numbers, each once, and leaves one record for each node but the root: the number
of its parent in the concrete tree. -/
theorem walk_ofCst_consecutive (source : ByteArray) (tree : Cst) (hasErrors : Bool) :
    let arena := ofCst source tree hasErrors
    (∀ start ∈ arena.nodes, ∃ address subtree, tree.addresses[start.index]? = some address ∧
        tree.at? address = some subtree ∧ arena.StandsFor source start subtree ∧
        ∃ order : List Node, order.map Node.index = List.range' start.index subtree.addresses.length ∧
          (∀ table, ∃ after, arena.walk Visitor.note start ⟨table, #[]⟩ = .ok () ⟨after, order.toArray⟩) ∧
          ∀ (σ : Type) (visit : Visitor σ) (walk : Walk σ),
            arena.walk visit start walk = attendAll visit order walk) ∧
      arena.nodes.map Node.index = List.range arena.size ∧
      ∃ records : ParentTable,
        arena.walk Visitor.note arena.root ⟨.empty, #[]⟩ = .ok () ⟨records, arena.nodes.toArray⟩ ∧
        (∀ (σ : Type) (visit : Visitor σ) (state : σ) (after : Walk σ), visit.Silent →
          arena.walk visit arena.root ⟨.empty, state⟩ = .ok () after → after.parents = records) ∧
        records.size + 1 = arena.size ∧
        (∀ child, records.contains child = true ↔ 0 < child ∧ child < arena.size) ∧
        ∀ child parent, records.parent? child = some parent ↔ Cst.StepsDown tree.addresses parent child := by
  intro arena
  have treelike := ofCst_treelike source tree hasErrors
  have all := preorder_ofCst source tree hasErrors treelike.acyclic
  refine ⟨?_, ?_, ?_⟩
  · intro start member
    obtain ⟨subtree, listed, stands⟩ := forall₂_getElem? (nodes_stand source tree hasErrors) start.index start
      (by rw [getElem?_nodes, ← mem_nodes]; exact member)
    rw [← Cst.getElem?_addresses] at listed
    obtain ⟨address, numbered, there⟩ := Option.bind_eq_some_iff.mp listed
    have count : (arena.preorder treelike.acyclic start.index).length = subtree.addresses.length := by
      rw [← subtree.length_subtrees]
      exact (preorder_stands arena treelike.acyclic source subtree start.index stands.unfolds).length_eq
    refine ⟨address, subtree, numbered, there, stands, arena.preorder treelike.acyclic start.index, ?_, ?_, ?_⟩
    · rw [← count]
      exact indices_block source tree hasErrors treelike.acyclic start member
    · intro table
      exact ⟨_, by rw [arena.walk_eq_attendAll treelike.toSound _ start member, attendAll_note]⟩
    · intro σ visit walk
      exact arena.walk_eq_attendAll treelike.toSound visit start member walk
  · rw [← all, indices_ofCst, List.range_eq_range']
  · have walked {σ : Type} (visit : Visitor σ) (walk : Walk σ) :
        arena.walk visit arena.root walk = attendAll visit arena.nodes walk := by
      rw [arena.walk_eq_attendAll treelike.toSound visit arena.root arena.root_mem, ← all]
      rfl
    refine ⟨ParentTable.empty.adoptAll arena.nodes, ?_, ?_, size_records source tree hasErrors, ?_, ?_⟩
    · rw [walked, attendAll_note]
    · intro σ visit state after silent run
      rw [walked] at run
      exact attendAll_silent visit silent _ _ after run
    · intro child
      rw [ParentTable.contains_eq_isSome, Option.isSome_iff_exists, exists_recorded_iff]
    · intro child parent
      rw [recorded_ofCst_iff, links_ofCst_iff]

/-- A string below a decision and the same string beside it. -/
def twins : Cst :=
  .node { kind := "program" } [
    .node { kind := "comment" } [.node { kind := "string" } []],
    .node { kind := "if_statement" } [
      .node { kind := "(", named := false } [], .node { kind := "string" } []],
    .node { kind := "string" } []]

theorem twins_numbered :
    (∃ start after order, start ∈ (ofCst .empty twins false).nodes ∧
        (ofCst .empty twins false).walk Visitor.note start ⟨.empty, #[]⟩ = .ok () ⟨after, order⟩ ∧
        order.toList.map Node.index = [1, 2]) ∧
      ∃ records nodes, (ofCst .empty twins false).walk Visitor.note (ofCst .empty twins false).root
          ⟨.empty, #[]⟩ = .ok () ⟨records, nodes⟩ ∧
        records.size = 3 ∧ records.parent? 2 = some 1 ∧ records.parent? 3 = some 0 := by
  have size : (ofCst .empty twins false).size = 4 := size_ofCst _ _ _
  obtain ⟨start, member, position⟩ := (ofCst .empty twins false).exists_node 1 (by omega)
  obtain ⟨each, _, records, walked, _, count, _, parents⟩ := walk_ofCst_consecutive .empty twins false
  obtain ⟨address, subtree, numbered, there, _, order, indices, visited, _⟩ := each start member
  obtain ⟨after, walk⟩ := visited .empty
  rw [position] at numbered indices
  cases numbered
  cases there
  refine ⟨⟨start, after, _, member, walk, ?_⟩, records, _, walked, by omega, ?_, ?_⟩
  · rw [List.toList_toArray, indices]
    rfl
  · exact (parents 2 1).mpr ⟨[1], 1, rfl, rfl⟩
  · exact (parents 3 0).mpr ⟨[], 2, rfl, rfl⟩

end Arena

end ScriptMetrics
