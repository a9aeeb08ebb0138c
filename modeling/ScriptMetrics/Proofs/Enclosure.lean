import ScriptMetrics.Proofs.Locality

/-!
Nesting depth by recursion. A position is as deep as the deepest of its children, and one deeper if
it is itself a decision without an alternative. Climbing from every leaf to the function and taking
the largest count comes to the same, in an arena in which no position has two parents: a climb
never counts more than the recursion allows, and one that starts below the deepest child of each
node on its way counts exactly that.
-/

namespace ScriptMetrics

/-- The largest of some numbers, zero if there are none. -/
def largest (values : List Nat) : Nat :=
  values.max?.getD 0

theorem le_largest {values : List Nat} {value : Nat} (member : value ∈ values) :
    value ≤ largest values := by
  unfold largest
  cases found : values.max? with
  | none => simp [List.max?_eq_none_iff.mp found] at member
  | some top => exact (List.max?_eq_some_iff.mp found).2 value member

theorem largest_mem {values : List Nat} (given : values ≠ []) : largest values ∈ values := by
  unfold largest
  cases found : values.max? with
  | none => exact absurd (List.max?_eq_none_iff.mp found) given
  | some top => exact (List.max?_eq_some_iff.mp found).1

theorem largest_eq {values : List Nat} {value : Nat} (bound : ∀ other ∈ values, other ≤ value)
    (member : value ∈ values) : largest values = value := by
  have bounded := bound (largest values) (largest_mem (List.ne_nil_of_mem member))
  exact Nat.le_antisymm bounded (le_largest member)

theorem foldl_max_eq_largest (values : List Nat) : values.foldl max 0 = largest values := by
  rw [List.foldl_max, Nat.zero_max, largest]

theorem largest_le {values : List Nat} {bound : Nat} (each : ∀ value ∈ values, value ≤ bound) :
    largest values ≤ bound := by
  by_cases none : values = []
  · simp [none, largest]
  · exact each _ (largest_mem none)

theorem largest_mono {values others : List Nat} (inside : values ⊆ others) :
    largest values ≤ largest others :=
  largest_le fun _ member => le_largest (inside member)

theorem largest_append (values others : List Nat) :
    largest (values ++ others) = max (largest values) (largest others) := by
  apply Nat.le_antisymm
  · apply largest_le
    intro value member
    rcases List.mem_append.mp member with here | there
    · exact Nat.le_trans (le_largest here) (Nat.le_max_left _ _)
    · exact Nat.le_trans (le_largest there) (Nat.le_max_right _ _)
  · exact Nat.max_le.mpr
      ⟨largest_mono (List.subset_append_left _ _), largest_mono (List.subset_append_right _ _)⟩

theorem largest_flatMap {α : Type} (items : List α) (f : α → List Nat) :
    largest (items.flatMap f) = largest (items.map fun item => largest (f item)) := by
  induction items with
  | nil => rfl
  | cons item rest ih =>
      rw [List.flatMap_cons, largest_append, ih, List.map_cons, ← List.singleton_append, largest_append]
      rfl

theorem largest_perm {values others : List Nat} (perm : values.Perm others) : largest values = largest others :=
  Nat.le_antisymm (largest_mono perm.subset) (largest_mono perm.symm.subset)

/-- A decision without an alternative. -/
def Node.isNesting (node : Node) : Bool :=
  node.isDecision && (node.fieldIndex? "alternative").isNone

namespace Arena

/-- How deep the leaves below and including a position are nested, counted from that position. -/
def depth (arena : Arena) (acyclic : arena.Acyclic) (index : Nat) : Nat :=
  match _found : arena.node? index with
  | none => 0
  | some node =>
      (if node.isNesting then 1 else 0) +
        largest (node.children.attach.map fun child => arena.depth acyclic child.val)
termination_by (arena.reach index).card
decreasing_by
  exact arena.card_reach_lt acyclic index _ (arena.links_of_node? index _ node _found child.property)

theorem depth_eq (arena : Arena) (acyclic : arena.Acyclic) (node : Node) (member : node ∈ arena.nodes) :
    arena.depth acyclic node.index =
      (if node.isNesting then 1 else 0) + largest (node.children.map (arena.depth acyclic)) := by
  rw [mem_nodes] at member
  rw [depth]
  split
  · simp_all
  · next other found =>
      obtain rfl : other = node := by simp_all
      simp

theorem depth_outside (arena : Arena) (acyclic : arena.Acyclic) (index : Nat)
    (outside : arena.node? index = none) : arena.depth acyclic index = 0 := by
  rw [depth]
  split <;> simp_all

theorem Complete.nests_eq {arena : Arena} (complete : arena.Complete) {node : Node}
    (member : node ∈ arena.nodes) : arena.nests node = .ok node.isNesting := by
  obtain ⟨branch, fetched, _⟩ := complete.field?_ok member "alternative"
  have present : branch.isNone = (node.fieldIndex? "alternative").isNone := by
    unfold field? at fetched
    cases given : node.fieldIndex? "alternative" with
    | none =>
        rw [given] at fetched
        cases fetched
        rfl
    | some index =>
        rw [given, Option.mapM_some] at fetched
        cases found : arena.node index <;> rw [found] at fetched <;> cases fetched
        rfl
  unfold nests Node.isNesting
  cases node.isDecision with
  | false => rfl
  | true => simp [fetched, present, bind, Except.bind, pure, Except.pure]

section Climbs

variable {arena : Arena} {top node : Node} {chain : List Node}

/-- A climb counts no more than what the recursion allows from the top on. -/
theorem Ascent.count_le (acyclic : arena.Acyclic) (ascent : arena.Ascent top node chain) :
    chain.countP Node.isNesting + largest (node.children.map (arena.depth acyclic)) ≤
      largest (top.children.map (arena.depth acyclic)) := by
  induction ascent with
  | top => simp
  | @step node parent chain member below listed above ih =>
      have within : arena.depth acyclic node.index ≤ largest (parent.children.map (arena.depth acyclic)) :=
        le_largest (List.mem_map_of_mem listed)
      rw [arena.depth_eq acyclic node member] at within
      rw [List.countP_cons]
      omega

-- Down to a leaf along children that are as deep as any of their siblings.
theorem Ascent.exists_deepest (sound : arena.Sound) (topMember : top ∈ arena.nodes)
    (ascent : arena.Ascent top node chain) :
    ∃ leaf way, leaf.isLeaf ∧ arena.Ascent top leaf way ∧
      way.countP Node.isNesting =
        chain.countP Node.isNesting + largest (node.children.map (arena.depth sound.acyclic)) := by
  generalize position : node.index = index
  induction index using sound.acyclic.descent generalizing node chain with
  | step parent ih =>
      subst position
      have member := ascent.member topMember
      by_cases childless : node.children = []
      · refine ⟨node, chain, ?_, ascent, ?_⟩
        · simp [Node.isLeaf, childless]
        · simp [childless, largest]
      · have given : node.children.map (arena.depth sound.acyclic) ≠ [] := by simpa using childless
        obtain ⟨index, listed, deepest⟩ := List.mem_map.mp (largest_mem given)
        obtain ⟨child, childMember, rfl⟩ := arena.exists_node index (sound.inside node member index listed)
        have linked := (arena.links_iff node member child.index).mpr listed
        have apart : child ≠ top := by
          rintro rfl
          exact sound.acyclic child.index (.tail' (ascent.between topMember).1 linked)
        obtain ⟨leaf, way, ends, climbs, counted⟩ :=
          ih child.index linked (.step childMember apart listed ascent) rfl
        refine ⟨leaf, way, ends, climbs, ?_⟩
        rw [counted, ← deepest, arena.depth_eq sound.acyclic child childMember, List.countP_cons]
        omega

/-- The way up from a node passes exactly what stands strictly below the top and above the node. -/
theorem Ascent.mem_iff (tree : arena.Treelike) (topMember : top ∈ arena.nodes)
    (ascent : arena.Ascent top node chain) (other : Node) :
    other ∈ chain ↔ other ∈ arena.nodes ∧ Relation.TransGen arena.Links top.index other.index ∧
      arena.Reaches other.index node.index := by
  induction ascent with
  | top =>
      constructor
      · intro listed
        cases listed
      · rintro ⟨_, below, back⟩
        exact absurd (below.trans_left back) (tree.acyclic top.index)
  | @step node parent chain member below listed above ih =>
      have linked := (arena.links_iff parent (above.member topMember) node.index).mpr listed
      have fromTop := (above.between topMember).1
      constructor
      · intro passed
        rcases List.mem_cons.mp passed with rfl | higher
        · exact ⟨member, .tail' fromTop linked, .refl⟩
        · obtain ⟨otherMember, strictly, toParent⟩ := ih.mp higher
          exact ⟨otherMember, strictly, toParent.tail linked⟩
      · rintro ⟨otherMember, strictly, toNode⟩
        rcases Relation.ReflTransGen.cases_tail toNode with same | ⟨last, toLast, lastLinked⟩
        · rw [arena.eq_of_index_eq node other member otherMember same]
          exact List.mem_cons_self
        -- The step before the last is the parent's, as the node has no other.
        · have only := arena.parent_unique last parent.index node.index (tree.once _) lastLinked linked
          subst only
          exact List.mem_cons_of_mem node (ih.mpr ⟨otherMember, strictly, toLast⟩)

end Climbs

section Leaves

variable {arena : Arena} {function : Node}

theorem Complete.leafDepth_eq (complete : arena.Complete) (member : function ∈ arena.nodes) {leaf : Node}
    {chain : List Node} (ascent : arena.Ascent function leaf chain) {table : ParentTable}
    (climbed : arena.ancestors table leaf function = .ok chain) :
    arena.leafDepth table function leaf = .ok (chain.countP Node.isNesting) := by
  have answered : chain.mapM arena.nests = .ok (chain.map Node.isNesting) :=
    mapM_eq_map fun step passed => complete.nests_eq ((ascent.between member).2 step passed).1
  unfold leafDepth
  simp [climbed, answered, bind, Except.bind, pure, Except.pure, List.count, List.countP_map,
    Function.comp_def]

theorem Treelike.leafDepth_eq (tree : arena.Treelike) (member : function ∈ arena.nodes) {leaf : Node}
    {chain : List Node} (ascent : arena.Ascent function leaf chain) (table : ParentTable) :
    arena.leafDepth (table.adoptAll (arena.preorder tree.acyclic function.index)) function leaf =
      .ok (chain.countP Node.isNesting) :=
  tree.toComplete.leafDepth_eq member ascent (tree.ancestors_eq member (ascent.member member) ascent table)

theorem Treelike.exists_ascent (tree : arena.Treelike) (member : function ∈ arena.nodes) {leaf : Node}
    (leafMember : leaf ∈ arena.nodes) (reached : arena.Reaches function.index leaf.index) :
    ∃ chain, arena.Ascent function leaf chain := by
  have rooted := (arena.rooted_adoptAll tree.toSound function member .empty _ .top).2 leaf.index reached
  obtain ⟨chain, _, ascent, _⟩ :=
    arena.traceable_of_rooted tree.acyclic _ function leaf member leafMember rooted
  exact ⟨chain, ascent⟩

theorem Treelike.nesting_eq (tree : arena.Treelike) (member : function ∈ arena.nodes)
    (table : ParentTable) :
    arena.nesting function table =
      .ok (largest (function.children.map (arena.depth tree.acyclic)))
        (table.adoptAll (arena.preorder tree.acyclic function.index)) := by
  let after := table.adoptAll (arena.preorder tree.acyclic function.index)
  let leaves := (arena.preorder tree.acyclic function.index).filter Node.isLeaf
  let deepest := largest (function.children.map (arena.depth tree.acyclic))
  obtain ⟨depths, measured, bound⟩ := mapM_ok (arena.leafDepth after function) (· ≤ deepest) leaves <| by
    intro leaf listed
    obtain ⟨leafMember, reached⟩ :=
      (arena.mem_preorder tree.acyclic _ leaf).mp (List.mem_filter.mp listed).1
    obtain ⟨chain, ascent⟩ := tree.exists_ascent member leafMember reached
    exact ⟨_, tree.leafDepth_eq member ascent table,
      Nat.le_trans (Nat.le_add_right _ _) (ascent.count_le tree.acyclic)⟩
  have attained : deepest ∈ depths := by
    obtain ⟨leaf, way, ends, ascent, deep⟩ :=
      Ascent.exists_deepest tree.toSound member (.top : arena.Ascent function function [])
    have listed : leaf ∈ leaves :=
      List.mem_filter.mpr ⟨(arena.mem_preorder tree.acyclic _ leaf).mpr
        ⟨ascent.member member, (ascent.between member).1⟩, ends⟩
    have counted := tree.leafDepth_eq member ascent table
    rw [deep, List.countP_nil, Nat.zero_add] at counted
    exact mem_of_mapM measured listed counted
  unfold nesting
  rw [arena.leaves_eq tree.toSound function member]
  simp only [leaves, after] at measured
  simp only [measured, foldl_max_eq_largest, largest_eq bound attained, deepest]

end Leaves

/-- Nesting depth is what the recursion says, whatever table the walk is given. The function itself
is never counted, and for each leaf whatever nests strictly below the function and encloses the
leaf, or is the leaf, is counted exactly once. -/
theorem nesting_eq_depth (arena : Arena) (tree : arena.Treelike) (function : Node)
    (member : function ∈ arena.nodes) (table : ParentTable) :
    let depth := arena.depth tree.acyclic
    (∀ node ∈ arena.nodes,
      depth node.index = (if node.isNesting then 1 else 0) + largest (node.children.map depth)) ∧
    ∃ after, arena.nesting function table = .ok (largest (function.children.map depth)) after ∧
      ∀ leaf ∈ arena.nodes, arena.Reaches function.index leaf.index →
        ∃ enclosing : List Node, enclosing.Nodup ∧
          (∀ node, node ∈ enclosing ↔ node ∈ arena.nodes ∧
            Relation.TransGen arena.Links function.index node.index ∧
            arena.Reaches node.index leaf.index) ∧
          arena.leafDepth after function leaf = .ok (enclosing.countP Node.isNesting) := by
  intro depth
  refine ⟨arena.depth_eq tree.acyclic, _, tree.nesting_eq member table, ?_⟩
  intro leaf leafMember reached
  obtain ⟨chain, ascent⟩ := tree.exists_ascent member leafMember reached
  exact ⟨chain, ascent.nodup tree.acyclic member, ascent.mem_iff tree member,
    tree.leafDepth_eq member ascent table⟩

/-- A decision whose condition is a leaf, around one that has an alternative with a bare loop in it. -/
def guarded : Arena where
  items := #[
    { kind := "function_declaration", children := [1] },
    { kind := "if_statement", children := [2, 3], fields := [("condition", [2]), ("consequence", [3])] },
    { kind := "identifier" },
    { kind := "if_statement", children := [4, 5], fields := [("condition", [4]), ("alternative", [5])] },
    { kind := "identifier" },
    { kind := "else_clause", children := [6] },
    { kind := "while_statement" }]
  hasRoot := by decide

theorem guarded_treelike : guarded.Treelike where
  inside := by decide
  acyclic := guarded.acyclic_of_forward (by decide)
  fieldsInside := by decide
  once := by
    intro index
    have counted : guarded.listings index = [1, 2, 3, 4, 5, 6].count index := rfl
    rw [counted]
    exact List.nodup_iff_count.mp (by decide) index

theorem guarded_nesting : ∃ after, guarded.nesting guarded.root astray = .ok 2 after := by
  obtain ⟨unfolds, after, measured, _⟩ :=
    nesting_eq_depth guarded guarded_treelike guarded.root guarded.root_mem astray
  let depth := guarded.depth guarded_treelike.acyclic
  let position (index : Nat) := guarded.nodes.getD index guarded.root
  have loop : depth 6 = 1 + largest [] := unfolds (position 6) (by decide)
  have branch : depth 5 = 0 + largest [depth 6] := unfolds (position 5) (by decide)
  have test : depth 4 = 0 + largest [] := unfolds (position 4) (by decide)
  have inner : depth 3 = 0 + largest [depth 4, depth 5] := unfolds (position 3) (by decide)
  have condition : depth 2 = 0 + largest [] := unfolds (position 2) (by decide)
  have outer : depth 1 = 1 + largest [depth 2, depth 3] := unfolds (position 1) (by decide)
  have two : largest [depth 1] = 2 := by
    rw [outer, condition, inner, test, branch, loop]
    rfl
  exact ⟨after, measured.trans (congrArg (EStateM.Result.ok · after) two)⟩

end Arena

end ScriptMetrics
