import Mathlib.Algebra.Order.Ring.Int
import Mathlib.Data.Finset.Option
import Mathlib.Data.Finset.Union
import ScriptMetrics.Proofs.Segments

/-!
Measures by recursion. In a complete arena each measure is a value of the pre-order below a node: a
number of nodes, the peak of what the nodes contribute, or the set of their symbols. The pre-order of a
node is the node and then the pre-orders of its children, so the measure of a node follows from what the
node contributes and from the same measure of its children, however often these are listed elsewhere.
-/

namespace ScriptMetrics

section Lists

theorem filterMap_cons_toList {α β : Type} (f : α → Option β) (first : α) (rest : List α) :
    (first :: rest).filterMap f = (f first).toList ++ rest.filterMap f := by
  rw [List.filterMap_cons]
  cases f first <;> rfl

theorem nodup_eraseDups (values : List String) : values.eraseDups.Nodup := by
  match values with
  | [] => simp
  | value :: rest =>
      rw [List.eraseDups_cons, List.nodup_cons]
      constructor
      · simp [List.mem_eraseDups]
      · exact nodup_eraseDups (rest.filter fun other => !other == value)
termination_by values.length
decreasing_by exact Nat.lt_succ_of_le (List.length_filter_le _ _)

theorem length_eraseDups (values : List String) : values.eraseDups.length = values.toFinset.card := by
  rw [← List.toFinset_card_of_nodup (nodup_eraseDups values)]
  congr 1
  ext value
  simp [List.mem_eraseDups]

end Lists

namespace Arena

section Values

variable (arena : Arena) (acyclic : arena.Acyclic)

/-- How many decisions stand at or below a position. -/
def decisions (index : Nat) : Nat :=
  (arena.preorder acyclic index).countP Node.isDecision

/-- The symbols that occur at or below a position. -/
def vocabulary (index : Nat) : Finset String :=
  ((arena.preorder acyclic index).filterMap Node.symbol?).toFinset

/-- The largest of what the nodes at or below a position contribute, zero if none contributes. -/
def peak (own : Node → Option Nat) (index : Nat) : Nat :=
  largest ((arena.preorder acyclic index).filterMap own)

/-- One more than the number of logical operators below the condition. -/
def conditions (conditional : Node) : Nat :=
  1 + (arena.part? conditional "condition").elim 0 fun test =>
    (arena.preorder acyclic test.index).countP Node.isLogical

/-- A conditional contributes the conditions that it joins. -/
def conditions? (node : Node) : Option Nat :=
  if node.isConditional then some (arena.conditions acyclic node) else none

/-- Where the chains of a node start, if it has any. -/
def chainStart? (node : Node) : Option Node :=
  (arena.chainRoot? node).toOption.join

/-- A node whose chains count contributes the longest of them. -/
def chain? (node : Node) : Option Nat :=
  (arena.chainStart? node).map fun start => arena.chain acyclic start.index

end Values

section Closed

variable {arena : Arena} {node : Node}

theorem Sound.cyclomatic_eq (sound : arena.Sound) (member : node ∈ arena.nodes) :
    arena.cyclomatic node = .ok (1 + arena.decisions sound.acyclic node.index) := by
  unfold cyclomatic
  rw [arena.visits_eq_preorder sound node member]
  rfl

theorem Sound.halstead_eq (sound : arena.Sound) (member : node ∈ arena.nodes) :
    arena.halstead node = .ok ((arena.vocabulary sound.acyclic node.index).card - 1) := by
  unfold halstead vocabulary
  rw [arena.visits_eq_preorder sound node member, ← length_eraseDups]
  rfl

theorem Complete.conditionCount_eq (complete : arena.Complete) (member : node ∈ arena.nodes) :
    arena.conditionCount node = .ok (arena.conditions complete.acyclic node) := by
  unfold conditionCount conditions
  rw [complete.field?_eq member]
  cases present : arena.part? node "condition" with
  | none => rfl
  | some test =>
      have visited := arena.visits_eq_preorder complete.toSound test (mem_of_part? present)
      simp [visited, bind, Except.bind, pure, Except.pure]

theorem Complete.maxConditions_eq (complete : arena.Complete) (member : node ∈ arena.nodes) :
    arena.maxConditions node =
      .ok (arena.peak complete.acyclic (arena.conditions? complete.acyclic) node.index) := by
  let order := arena.preorder complete.acyclic node.index
  have counted : (order.filter Node.isConditional).mapM arena.conditionCount =
      .ok ((order.filter Node.isConditional).map (arena.conditions complete.acyclic)) := by
    apply mapM_eq_map
    intro conditional listed
    obtain ⟨inside, _⟩ := (arena.mem_preorder complete.acyclic _ conditional).mp (List.mem_filter.mp listed).1
    exact complete.conditionCount_eq inside
  have contributed : (order.filter Node.isConditional).map (arena.conditions complete.acyclic) =
      order.filterMap (arena.conditions? complete.acyclic) := by
    rw [← List.filterMap_eq_map, List.filterMap_filter]
    rfl
  unfold maxConditions peak
  rw [arena.visits_eq_preorder complete.toSound node member, ← contributed, ← foldl_max_eq_largest]
  simp only [bind, Except.bind, order] at counted ⊢
  rw [counted]
  rfl

theorem Complete.chainRoot?_eq (complete : arena.Complete) (member : node ∈ arena.nodes) :
    arena.chainRoot? node = .ok (arena.chainStart? node) ∧
      ∀ start ∈ arena.chainStart? node, start ∈ arena.nodes := by
  obtain ⟨root, found, inside⟩ := complete.chainRoot?_ok member
  have same : arena.chainStart? node = root := by simp [chainStart?, found, Except.toOption]
  rw [same]
  exact ⟨found, inside⟩

theorem Complete.maxChains_eq (complete : arena.Complete) (member : node ∈ arena.nodes) :
    arena.maxChains node =
      .ok (arena.peak complete.acyclic (arena.chain? complete.acyclic) node.index) := by
  let order := arena.preorder complete.acyclic node.index
  have inside : ∀ other ∈ order, other ∈ arena.nodes := fun other visited =>
    ((arena.mem_preorder complete.acyclic _ other).mp visited).1
  have rooted : order.mapM arena.chainRoot? = .ok (order.map arena.chainStart?) :=
    mapM_eq_map fun other visited => (complete.chainRoot?_eq (inside other visited)).1
  have measured : ((order.map arena.chainStart?).filterMap id).mapM arena.chainLength =
      .ok (((order.map arena.chainStart?).filterMap id).map fun start =>
        arena.chain complete.acyclic start.index) := by
    apply mapM_eq_map
    intro start listed
    obtain ⟨_, mapped, same⟩ := List.mem_filterMap.mp listed
    obtain ⟨other, visited, rfl⟩ := List.mem_map.mp mapped
    exact complete.chainLength_eq ((complete.chainRoot?_eq (inside other visited)).2 start same)
  have contributed : (((order.map arena.chainStart?).filterMap id).map fun start =>
      arena.chain complete.acyclic start.index) = order.filterMap (arena.chain? complete.acyclic) := by
    rw [List.filterMap_map, List.map_filterMap]
    rfl
  unfold maxChains peak
  rw [arena.visits_eq_preorder complete.toSound node member, ← contributed, ← foldl_max_eq_largest]
  simp only [bind, Except.bind, order] at rooted measured ⊢
  simp only [rooted, measured]
  rfl

end Closed

section Children

variable {arena : Arena} {node : Node}

theorem decisions_eq (acyclic : arena.Acyclic) (member : node ∈ arena.nodes) :
    arena.decisions acyclic node.index =
      (if node.isDecision then 1 else 0) + (node.children.map (arena.decisions acyclic)).sum := by
  unfold decisions
  rw [arena.preorder_eq acyclic node member, List.countP_cons, List.countP_flatMap, Nat.add_comm]
  rfl

theorem vocabulary_eq (acyclic : arena.Acyclic) (member : node ∈ arena.nodes) :
    arena.vocabulary acyclic node.index =
      node.symbol?.toFinset ∪ node.children.toFinset.biUnion (arena.vocabulary acyclic) := by
  unfold vocabulary
  rw [arena.preorder_eq acyclic node member, filterMap_cons_toList, List.filterMap_flatMap,
    List.toFinset_append]
  ext word
  simp

theorem peak_eq (acyclic : arena.Acyclic) (own : Node → Option Nat) (member : node ∈ arena.nodes) :
    arena.peak acyclic own node.index =
      largest ((own node).toList ++ node.children.map (arena.peak acyclic own)) := by
  unfold peak
  rw [arena.preorder_eq acyclic node member, filterMap_cons_toList, List.filterMap_flatMap, largest_append,
    largest_flatMap, ← largest_append]

theorem Sound.map_index_inner (sound : arena.Sound) (member : node ∈ arena.nodes) :
    (arena.inner node).map Node.index = node.children := by
  have inside := sound.inside node member
  unfold inner
  generalize node.children = children at inside
  induction children with
  | nil => rfl
  | cons child rest ih =>
      obtain ⟨found, foundMember, rfl⟩ := arena.exists_node child (inside child List.mem_cons_self)
      rw [List.filterMap_cons_some ((arena.mem_nodes found).mp foundMember), List.map_cons,
        ih fun other listed => inside other (List.mem_cons_of_mem _ listed)]

theorem inner_mem (child : Node) (listed : child ∈ arena.inner node) : child ∈ arena.nodes := by
  obtain ⟨index, _, found⟩ := List.mem_filterMap.mp listed
  obtain rfl := arena.index_of_node? index child found
  exact (arena.mem_nodes child).mpr found

/-- Measuring each child, where the measure of a node goes by its position. -/
theorem Sound.mapM_inner (sound : arena.Sound) (member : node ∈ arena.nodes) {α : Type}
    {measure : Node → Except Fault α} (value : Nat → α)
    (measures : ∀ child ∈ arena.nodes, measure child = .ok (value child.index)) :
    (arena.inner node).mapM measure = .ok (node.children.map value) := by
  rw [mapM_eq_map fun child listed => measures child (inner_mem child listed),
    ← sound.map_index_inner member, List.map_map]
  rfl

theorem Sound.children_eq (sound : arena.Sound) (member : node ∈ arena.nodes) :
    arena.children node = .ok (arena.inner node) := by
  have found : ∀ child ∈ arena.inner node, (arena.node ∘ Node.index) child = .ok (id child) :=
    fun child listed => arena.node_index child (inner_mem child listed)
  unfold children
  rw [← sound.map_index_inner member, List.mapM_map, mapM_eq_map found, List.map_id]

theorem Sound.cyclomatic_children (sound : arena.Sound) (member : node ∈ arena.nodes) :
    ∃ count counts, arena.cyclomatic node = .ok count ∧
      (arena.inner node).mapM arena.cyclomatic = .ok counts ∧
      (count : Int) - 1 =
        (if node.isDecision then 1 else 0) + (counts.map fun (other : Nat) => (other : Int) - 1).sum := by
  refine ⟨_, _, sound.cyclomatic_eq member,
    sound.mapM_inner member (fun index => 1 + arena.decisions sound.acyclic index)
      fun child => sound.cyclomatic_eq, ?_⟩
  have below : ((node.children.map fun index => 1 + arena.decisions sound.acyclic index).map
      fun (other : Nat) => (other : Int) - 1).sum =
        ((node.children.map (arena.decisions sound.acyclic)).sum : Nat) := by
    induction node.children with
    | nil => rfl
    | cons child rest ih =>
        simp only [List.map_cons, List.sum_cons, ih]
        omega
  rw [below, decisions_eq sound.acyclic member]
  split <;> omega

theorem Complete.maxConditions_children (complete : arena.Complete) (member : node ∈ arena.nodes) :
    ∃ most others, arena.maxConditions node = .ok most ∧
      (arena.inner node).mapM arena.maxConditions = .ok others ∧
      most = largest ((if node.isConditional then [arena.conditions complete.acyclic node] else []) ++ others) := by
  refine ⟨_, _, complete.maxConditions_eq member,
    complete.mapM_inner member _ fun child => complete.maxConditions_eq, ?_⟩
  rw [peak_eq complete.acyclic _ member, conditions?]
  split <;> rfl

theorem Complete.maxChains_children (complete : arena.Complete) (member : node ∈ arena.nodes) :
    ∃ root own most others, arena.chainRoot? node = .ok root ∧ root.mapM arena.chainLength = .ok own ∧
      arena.maxChains node = .ok most ∧ (arena.inner node).mapM arena.maxChains = .ok others ∧
      most = largest (own.toList ++ others) := by
  obtain ⟨rooted, inside⟩ := complete.chainRoot?_eq member
  have measured : (arena.chainStart? node).mapM arena.chainLength = .ok (arena.chain? complete.acyclic node) := by
    unfold chain?
    cases start : arena.chainStart? node with
    | none => rfl
    | some top =>
        rw [Option.mapM_some, complete.chainLength_eq (inside top start)]
        rfl
  exact ⟨_, _, _, _, rooted, measured, complete.maxChains_eq member,
    complete.mapM_inner member _ fun child => complete.maxChains_eq, peak_eq complete.acyclic _ member⟩

end Children

/-- Measures compose over children. Decisions add up; the conditions and the chains of a node are the most
that the node has itself and that its children have; and its symbols are its own one and those of its
children, each counted once. -/
theorem measures_compose (arena : Arena) (complete : arena.Complete) (node : Node)
    (member : node ∈ arena.nodes) :
    ∃ children, arena.children node = .ok children ∧
      (∃ count counts, arena.cyclomatic node = .ok count ∧ children.mapM arena.cyclomatic = .ok counts ∧
        (count : Int) - 1 =
          (if node.isDecision then 1 else 0) + (counts.map fun (other : Nat) => (other : Int) - 1).sum) ∧
      (∃ test own most others, arena.field? node "condition" = .ok test ∧ arena.conditionCount node = .ok own ∧
        own = 1 + test.elim 0 (fun top =>
          (arena.preorder complete.acyclic top.index).countP Node.isLogical) ∧
        arena.maxConditions node = .ok most ∧ children.mapM arena.maxConditions = .ok others ∧
        most = largest ((if node.isConditional then [own] else []) ++ others)) ∧
      (∃ root own most others, arena.chainRoot? node = .ok root ∧ root.mapM arena.chainLength = .ok own ∧
        arena.maxChains node = .ok most ∧ children.mapM arena.maxChains = .ok others ∧
        most = largest (own.toList ++ others)) ∧
      ∃ count, arena.halstead node = .ok count ∧
        count + 1 =
          (node.symbol?.toFinset ∪ node.children.toFinset.biUnion (arena.vocabulary complete.acyclic)).card := by
  refine ⟨arena.inner node, complete.children_eq member, complete.cyclomatic_children member, ?_,
    complete.maxChains_children member, _, complete.halstead_eq member, ?_⟩
  · obtain ⟨most, others, measured, below, same⟩ := complete.maxConditions_children member
    exact ⟨_, _, most, others, complete.field?_eq member "condition", complete.conditionCount_eq member, rfl,
      measured, below, same⟩
  · rw [vocabulary_eq complete.acyclic member]
    exact Int.sub_add_cancel _ _

/-- A decision that lists the loop inside it twice. The test and the loop share a name, and the loop returns
a member of a member of it. -/
def shared : Arena where
  items := #[
    { kind := "if_statement", children := [1, 2, 2], fields := [("condition", [1])] },
    { kind := "binary_expression", children := [8, 7], operator := some "&&" },
    { kind := "while_statement", children := [3] },
    { kind := "return_statement", children := [4] },
    { kind := "member_expression", children := [5, 6] },
    { kind := "member_expression", children := [8, 6] },
    { kind := "property_identifier", text := some "next" },
    { kind := "identifier", text := some "limit" },
    { kind := "identifier", text := some "list" }]
  hasRoot := by decide

theorem shared_complete : shared.Complete where
  inside := by decide
  acyclic := shared.acyclic_of_forward (by decide)
  fieldsInside := by decide

theorem shared_composes :
    shared.cyclomatic shared.root = .ok 4 ∧ shared.maxConditions shared.root = .ok 2 ∧
      shared.maxChains shared.root = .ok 2 ∧
      (shared.root.children.toFinset.biUnion (shared.vocabulary shared_complete.acyclic)).card = 4 := by
  obtain ⟨children, listed, ⟨count, counts, measured, below, sum⟩,
    ⟨_, own, most, others, _, joined, _, largestTest, tests, conditions⟩,
    ⟨root, ownChain, longest, lengths, rooted, started, chained, chains, peak⟩, ⟨size, spelled, union⟩⟩ :=
    measures_compose shared shared_complete shared.root shared.root_mem
  have decided : (shared.children shared.root >>= (·.mapM shared.cyclomatic)) = .ok [1, 2, 2] := by
    decide +kernel
  have tested : (shared.children shared.root >>= (·.mapM shared.maxConditions)) = .ok [0, 0, 0] := by
    decide +kernel
  have linked : (shared.children shared.root >>= (·.mapM shared.maxChains)) = .ok [0, 2, 2] := by
    decide +kernel
  have ownTest : shared.conditionCount shared.root = .ok 2 := by decide +kernel
  have noChain : shared.chainRoot? shared.root = .ok none := by decide +kernel
  have words : shared.halstead shared.root = .ok 3 := by decide +kernel
  rw [listed] at decided tested linked
  obtain rfl := Except.ok.inj (below.symm.trans decided)
  obtain rfl := Except.ok.inj (tests.symm.trans tested)
  obtain rfl := Except.ok.inj (chains.symm.trans linked)
  obtain rfl := Except.ok.inj (joined.symm.trans ownTest)
  obtain rfl := Except.ok.inj (rooted.symm.trans noChain)
  obtain rfl := Except.ok.inj started
  obtain rfl := Except.ok.inj (spelled.symm.trans words)
  have four : (count : Int) - 1 = 3 := sum
  have two : most = 2 := conditions
  have again : longest = 2 := peak
  have wordless : shared.root.symbol? = none := by decide
  rw [wordless, Option.toFinset_none, Finset.empty_union] at union
  obtain rfl : count = 4 := by omega
  subst two again
  exact ⟨measured, largestTest, chained, by omega⟩

end Arena

end ScriptMetrics
