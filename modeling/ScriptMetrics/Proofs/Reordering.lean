import Mathlib.Data.List.Perm.Basic
import ScriptMetrics.Proofs.Composition
import ScriptMetrics.Proofs.Counting

/-!
The order of siblings. Two arenas that differ only in the order in which nodes list their children are
walked in different orders and record parents at different times. Still their links are the same, and
below each position the one arena holds the same nodes as the other, up to the order of their children.
Whatever is counted, collected in a set or compared for the largest comes out the same; only chains,
which are runs of the walk, do not.
-/

namespace ScriptMetrics

/-- A record without its chains. -/
def FunctionRecord.unchained (record : FunctionRecord) : FunctionRecord :=
  { record with chains := 0 }

/-- The same item with its children in some order. -/
structure Item.Reordered (item other : Item) : Prop where
  children : other.children.Perm item.children
  same : other = { item with children := other.children }

theorem Item.Reordered.symm {item other : Item} (reordered : item.Reordered other) : other.Reordered item := by
  refine ⟨reordered.children.symm, ?_⟩
  rw [reordered.same]

namespace Arena

/-- The same arena up to the order in which its nodes list their children. -/
def Reordered (left right : Arena) : Prop :=
  List.Forall₂ Item.Reordered left.items.toList right.items.toList

/-- A node of the one arena and the node at the same position of the other. -/
structure Twins (left right : Arena) (l r : Node) : Prop where
  leftMember : l ∈ left.nodes
  rightMember : r ∈ right.nodes
  children : r.children.Perm l.children
  same : r = { l with children := r.children }

section Twins

variable {left right : Arena} {l r : Node}

-- What a node is, its children apart, reads off its twin.
theorem Twins.reads (twins : left.Twins right l r) {α : Type} (f : Node → α)
    (apart : ∀ node children, f { node with children } = f node) : f l = f r := by
  rw [twins.same]
  exact (apart l r.children).symm

theorem Reordered.symm (reordered : left.Reordered right) : right.Reordered left :=
  (reordered.imp fun _ _ => Item.Reordered.symm).flip

theorem Reordered.size_eq (reordered : left.Reordered right) : left.size = right.size := by
  simpa [Arena.size] using reordered.length_eq

theorem Reordered.exists_twin (reordered : left.Reordered right) (member : l ∈ left.nodes) :
    ∃ r, left.Twins right l r := by
  have found := (left.mem_nodes l).mp member
  obtain ⟨item, held, same⟩ := Option.map_eq_some_iff.mp found
  obtain ⟨other, there, moved⟩ := forall₂_getElem? reordered l.index item (by simpa using held)
  refine ⟨{ other with index := l.index }, member, ?_, ?_, ?_⟩
  · rw [mem_nodes, node?]
    simpa using there
  · rw [← same]
    exact moved.children
  · rw [← same]
    rw [moved.same]

theorem Reordered.twins (reordered : left.Reordered right) (leftMember : l ∈ left.nodes)
    (rightMember : r ∈ right.nodes) (same : l.index = r.index) : left.Twins right l r := by
  obtain ⟨other, twins⟩ := reordered.exists_twin leftMember
  have position : other.index = r.index := by rw [twins.same, ← same]
  rwa [← right.eq_of_index_eq other r twins.rightMember rightMember position]

theorem Twins.index (twins : left.Twins right l r) : l.index = r.index :=
  twins.reads (·.index) fun _ _ => rfl

theorem Reordered.node? (reordered : left.Reordered right) (index : Nat) :
    Option.Rel (left.Twins right) (left.node? index) (right.node? index) := by
  cases found : left.node? index with
  | none =>
      have outside : right.node? index = none := by
        rw [node?_eq_none, ← reordered.size_eq, ← node?_eq_none, found]
      rw [outside]
      exact .none
  | some l =>
      have position := left.index_of_node? index l found
      subst position
      obtain ⟨r, twins⟩ := reordered.exists_twin ((left.mem_nodes l).mpr found)
      rw [twins.index, (right.mem_nodes r).mp twins.rightMember]
      exact .some twins

theorem Reordered.links (reordered : left.Reordered right) {parent child : Nat}
    (linked : left.Links parent child) : right.Links parent child := by
  obtain ⟨l, member, rfl, listed⟩ := linked
  obtain ⟨r, twins⟩ := reordered.exists_twin member
  exact ⟨r, twins.rightMember, twins.index.symm, twins.children.mem_iff.mpr listed⟩

theorem Reordered.acyclic (reordered : left.Reordered right) (acyclic : left.Acyclic) : right.Acyclic := by
  intro index cycle
  exact acyclic index (Relation.TransGen.mono (fun _ _ => reordered.symm.links) _ _ cycle)

theorem Reordered.listings (reordered : left.Reordered right) (index : Nat) :
    left.listings index = right.listings index := by
  have flat : ∀ arena : Arena, arena.nodes.flatMap (·.children) = arena.items.toList.flatMap (·.children) := by
    intro arena
    rw [← items_of_nodes, List.flatMap_map]
  unfold Arena.listings
  rw [flat, flat]
  apply List.Perm.count_eq
  unfold Reordered at reordered
  generalize left.items.toList = items at reordered ⊢
  generalize right.items.toList = others at reordered ⊢
  induction reordered with
  | nil => exact .nil
  | cons first _ ih =>
      rw [List.flatMap_cons, List.flatMap_cons]
      exact first.children.symm.append ih

theorem Reordered.treelike (reordered : left.Reordered right) (tree : left.Treelike) : right.Treelike where
  inside r member child listed := by
    obtain ⟨l, twins⟩ := reordered.symm.exists_twin member
    rw [← reordered.size_eq]
    exact tree.inside l twins.rightMember child (twins.children.mem_iff.mpr listed)
  acyclic := reordered.acyclic tree.acyclic
  fieldsInside r member := by
    obtain ⟨l, twins⟩ := reordered.symm.exists_twin member
    rw [← reordered.size_eq, twins.reads (·.fields) fun _ _ => rfl]
    exact tree.fieldsInside l twins.rightMember
  once index := by
    rw [← reordered.listings index]
    exact tree.once index

/-- Whatever is read alike off twins is read alike below each position, up to order. -/
theorem Reordered.preorder_perm (reordered : left.Reordered right) (leftAcyclic : left.Acyclic)
    (rightAcyclic : right.Acyclic) {α : Type} (f g : Node → α)
    (alike : ∀ l r, left.Twins right l r → f l = g r) (index : Nat) :
    ((left.preorder leftAcyclic index).map f).Perm ((right.preorder rightAcyclic index).map g) := by
  induction index using leftAcyclic.descent with
  | step index ih =>
      have related := reordered.node? index
      generalize found : left.node? index = one at related
      generalize located : right.node? index = other at related
      cases related with
      | none =>
          rw [left.preorder_outside leftAcyclic index found, right.preorder_outside rightAcyclic index located]
          exact .nil
      | @some l r twins =>
          rw [left.preorder_node? leftAcyclic index l found, right.preorder_node? rightAcyclic index r located,
            List.map_cons, List.map_cons, List.map_flatMap, List.map_flatMap, alike l r twins]
          refine .cons (g r) (twins.children.symm.flatMap ?_)
          intro child listed
          exact ih child (left.links_of_node? index child l found listed)

end Twins

section Values

variable {left right : Arena} {l r : Node} (reordered : left.Reordered right) (leftAcyclic : left.Acyclic)
  (rightAcyclic : right.Acyclic)

include reordered

theorem Reordered.countP_eq (p q : Node → Bool) (alike : ∀ l r, left.Twins right l r → p l = q r) (index : Nat) :
    (left.preorder leftAcyclic index).countP p = (right.preorder rightAcyclic index).countP q := by
  have perm := reordered.preorder_perm leftAcyclic rightAcyclic p q alike index
  simpa [List.countP_map, Function.comp_def] using perm.countP_eq id

theorem Reordered.filterMap_perm {α : Type} (f g : Node → Option α)
    (alike : ∀ l r, left.Twins right l r → f l = g r) (index : Nat) :
    ((left.preorder leftAcyclic index).filterMap f).Perm ((right.preorder rightAcyclic index).filterMap g) := by
  have perm := reordered.preorder_perm leftAcyclic rightAcyclic f g alike index
  simpa [List.filterMap_map, Function.comp_def] using perm.filterMap id

theorem Reordered.decisions_eq (index : Nat) :
    left.decisions leftAcyclic index = right.decisions rightAcyclic index :=
  reordered.countP_eq leftAcyclic rightAcyclic Node.isDecision Node.isDecision
    (fun _ _ twins => twins.reads Node.isDecision fun _ _ => rfl) index

theorem Reordered.vocabulary_eq (index : Nat) :
    left.vocabulary leftAcyclic index = right.vocabulary rightAcyclic index :=
  List.toFinset_eq_of_perm _ _ <| reordered.filterMap_perm leftAcyclic rightAcyclic Node.symbol? Node.symbol?
    (fun _ _ twins => twins.reads Node.symbol? fun _ _ => rfl) index

theorem Reordered.part? (twins : left.Twins right l r) (name : String) :
    Option.Rel (left.Twins right) (left.part? l name) (right.part? r name) := by
  unfold Arena.part?
  rw [twins.reads (·.fieldIndex? name) fun _ _ => rfl]
  cases r.fieldIndex? name with
  | none => exact .none
  | some index => exact reordered.node? index

theorem Reordered.conditions_eq (twins : left.Twins right l r) :
    left.conditions leftAcyclic l = right.conditions rightAcyclic r := by
  have tests := reordered.part? twins "condition"
  unfold conditions
  generalize left.part? l "condition" = test at tests ⊢
  generalize right.part? r "condition" = other at tests ⊢
  cases tests with
  | none => rfl
  | some pair =>
      have counted := reordered.countP_eq leftAcyclic rightAcyclic Node.isLogical Node.isLogical
        fun _ _ twins => twins.reads Node.isLogical fun _ _ => rfl
      simp only [Option.elim_some, counted, pair.index]

theorem Reordered.peak_conditions (index : Nat) :
    left.peak leftAcyclic (left.conditions? leftAcyclic) index =
      right.peak rightAcyclic (right.conditions? rightAcyclic) index := by
  apply largest_perm
  apply reordered.filterMap_perm
  intro l r twins
  unfold conditions?
  rw [twins.reads Node.isConditional fun _ _ => rfl, reordered.conditions_eq leftAcyclic rightAcyclic twins]

theorem Reordered.depth_eq (index : Nat) : left.depth leftAcyclic index = right.depth rightAcyclic index := by
  induction index using leftAcyclic.descent with
  | step index ih =>
      have related := reordered.node? index
      generalize found : left.node? index = one at related
      generalize located : right.node? index = other at related
      cases related with
      | none => rw [left.depth_outside leftAcyclic index found, right.depth_outside rightAcyclic index located]
      | @some l r twins =>
          have below : l.children.map (left.depth leftAcyclic) = l.children.map (right.depth rightAcyclic) :=
            List.map_congr_left fun child listed => ih child (left.links_of_node? index child l found listed)
          obtain rfl := left.index_of_node? index l found
          have again := right.depth_eq rightAcyclic r twins.rightMember
          rw [← twins.index] at again
          rw [left.depth_eq leftAcyclic l twins.leftMember, again, below,
            largest_perm (twins.children.map (right.depth rightAcyclic)),
            twins.reads Node.isNesting fun _ _ => rfl]

end Values

/-- Whether a node calls `require`. -/
def callsRequire (arena : Arena) (node : Node) : Bool :=
  node.isCall && (arena.part? node "function").any fun callee =>
    callee.kind == "identifier" && callee.text == some "require"

theorem Complete.countNode_eq {arena : Arena} (complete : arena.Complete) {node : Node}
    (member : node ∈ arena.nodes) (file : FileRecord) :
    arena.countNode file node = .ok { file with
      strings := file.strings + if node.isString then 1 else 0
      imports := file.imports + if arena.callsRequire node then 1 else 0 } := by
  have answered : arena.isImport node = .ok (arena.callsRequire node) := by
    unfold isImport callsRequire
    rw [complete.field?_eq member]
    cases node.isCall <;> rfl
  unfold countNode
  rw [answered]
  by_cases string : node.isString
  · have other : arena.callsRequire node = false := by
      rw [Node.isString, beq_iff_eq] at string
      simp [callsRequire, Node.isCall, string]
    simp [string, other, pure, Except.pure]
  · by_cases calls : arena.callsRequire node <;> simp [string, calls, bind, Except.bind, pure, Except.pure]

theorem Reordered.callsRequire {left right : Arena} {l r : Node} (reordered : left.Reordered right)
    (twins : left.Twins right l r) : left.callsRequire l = right.callsRequire r := by
  have callees := reordered.part? twins "function"
  unfold Arena.callsRequire
  rw [twins.reads Node.isCall fun _ _ => rfl]
  generalize left.part? l "function" = callee at callees ⊢
  generalize right.part? r "function" = other at callees ⊢
  cases callees with
  | none => rfl
  | some pair =>
      rw [Option.any_some, Option.any_some, pair.reads (·.kind) fun _ _ => rfl, pair.reads (·.text) fun _ _ => rfl]

theorem Complete.collect_eq {arena : Arena} (complete : arena.Complete) (fileName : String) :
    ∃ records,
      arena.collect fileName = .ok ⟨{
        fileName
        strings := (arena.preorder complete.acyclic 0).countP Node.isString
        imports := (arena.preorder complete.acyclic 0).countP arena.callsRequire
        frozen := true }, records⟩ ∧
      ((arena.preorder complete.acyclic 0).filter Node.isDeclaration).mapM
        (arena.recordAlone fileName) = .ok records := by
  obtain ⟨counted, records, settled, collected, alone, tallied⟩ := complete.collect_ok fileName
  have listed : List.Forall₂ (fun node item => node = item ∧ node ∈ arena.nodes)
      (arena.preorder complete.acyclic 0) (arena.preorder complete.acyclic 0) :=
    List.forall₂_same.mpr fun node visited => ⟨rfl, ((arena.mem_preorder complete.acyclic 0 node).mp visited).1⟩
  obtain ⟨after, run⟩ := attendAll_tally_of Node.isString arena.callsRequire (by
    rintro node _ ⟨rfl, member⟩
    exact complete.countNode_eq member) listed .empty { fileName }
  have counters := congrArg Walk.state (EStateM.Result.ok.inj (tallied.symm.trans run)).2
  change counted = _ at counters
  subst counters
  simp only [Int.zero_add] at collected
  exact ⟨records, collected, alone⟩

section Measures

variable {left right : Arena} {l r : Node} (reordered : left.Reordered right) (leftTree : left.Treelike)
  (rightTree : right.Treelike) (twins : left.Twins right l r)

include reordered leftTree rightTree twins

theorem Twins.cyclomatic : Agree Eq (left.cyclomatic l) (right.cyclomatic r) := by
  refine ⟨_, _, leftTree.cyclomatic_eq twins.leftMember, rightTree.cyclomatic_eq twins.rightMember, ?_⟩
  rw [reordered.decisions_eq leftTree.acyclic rightTree.acyclic, twins.index]

theorem Twins.maxConditions : Agree Eq (left.maxConditions l) (right.maxConditions r) := by
  refine ⟨_, _, leftTree.maxConditions_eq twins.leftMember, rightTree.maxConditions_eq twins.rightMember, ?_⟩
  rw [reordered.peak_conditions leftTree.acyclic rightTree.acyclic, twins.index]

theorem Twins.halstead : Agree Eq (left.halstead l) (right.halstead r) := by
  refine ⟨_, _, leftTree.halstead_eq twins.leftMember, rightTree.halstead_eq twins.rightMember, ?_⟩
  rw [reordered.vocabulary_eq leftTree.acyclic rightTree.acyclic, twins.index]

theorem Twins.nesting (table other : ParentTable) :
    ∃ depth after last, left.nesting l table = .ok depth after ∧ right.nesting r other = .ok depth last := by
  have same : largest (l.children.map (left.depth leftTree.acyclic)) =
      largest (r.children.map (right.depth rightTree.acyclic)) := by
    rw [funext (reordered.depth_eq leftTree.acyclic rightTree.acyclic)]
    exact largest_perm (twins.children.symm.map _)
  have measured := leftTree.nesting_eq twins.leftMember table
  rw [same] at measured
  exact ⟨_, _, _, measured, rightTree.nesting_eq twins.rightMember other⟩

theorem Twins.functionName : Agree Eq (left.functionName l) (right.functionName r) := by
  have names := reordered.part? twins "name"
  unfold Arena.functionName
  rw [leftTree.field?_eq twins.leftMember, rightTree.field?_eq twins.rightMember,
    twins.reads (·.firstLine) fun _ _ => rfl]
  generalize left.part? l "name" = name at names ⊢
  generalize right.part? r "name" = other at names ⊢
  cases names with
  | none => exact .pure rfl
  | some pair => exact .pure (by rw [Option.bind_some, Option.bind_some, pair.reads (·.text) fun _ _ => rfl])

theorem Twins.parameterCount : Agree Eq (left.parameterCount l) (right.parameterCount r) := by
  have lists := reordered.part? twins "parameters"
  unfold Arena.parameterCount
  rw [leftTree.field?_eq twins.leftMember, rightTree.field?_eq twins.rightMember]
  generalize left.part? l "parameters" = list at lists ⊢
  generalize right.part? r "parameters" = other at lists ⊢
  cases lists with
  | none => exact .pure rfl
  | some pair => exact .pure pair.children.length_eq.symm

/-- Twins have the same record, chains apart. -/
theorem Twins.recordAlone (fileName : String) :
    Agree (fun record other => record.unchained = other.unchained) (left.recordAlone fileName l)
      (right.recordAlone fileName r) := by
  obtain ⟨name, _, leftName, rightName, rfl⟩ := twins.functionName reordered leftTree rightTree
  obtain ⟨parameters, _, leftParameters, rightParameters, rfl⟩ := twins.parameterCount reordered leftTree rightTree
  obtain ⟨cyclomatic, _, leftCount, rightCount, rfl⟩ := twins.cyclomatic reordered leftTree rightTree
  obtain ⟨conditions, _, leftMost, rightMost, rfl⟩ := twins.maxConditions reordered leftTree rightTree
  obtain ⟨halstead, _, leftWords, rightWords, rfl⟩ := twins.halstead reordered leftTree rightTree
  obtain ⟨depth, after, last, leftDepth, rightDepth⟩ := twins.nesting reordered leftTree rightTree .empty .empty
  obtain ⟨chains, leftChains⟩ := leftTree.maxChains_ok twins.leftMember
  obtain ⟨others, rightChains⟩ := rightTree.maxChains_ok twins.rightMember
  have first := twins.reads (·.firstLine) fun _ _ => rfl
  have lines := twins.reads Node.length fun _ _ => rfl
  simp only [Arena.recordAlone, functionRecord, outline, leftName, rightName, leftParameters, rightParameters,
    leftCount, rightCount, leftMost, rightMost, leftWords, rightWords, leftDepth, rightDepth, leftChains,
    rightChains, bind, Except.bind, first, lines]
  exact .pure rfl

end Measures

theorem map_unchained {arena : Arena} (acyclic : arena.Acyclic) {fileName : String} {records : List FunctionRecord}
    (alone : ((arena.preorder acyclic 0).filter Node.isDeclaration).mapM (arena.recordAlone fileName) =
      .ok records) :
    records.map FunctionRecord.unchained = (arena.preorder acyclic 0).filterMap fun node =>
      if node.isDeclaration then (arena.recordAlone fileName node).toOption.map FunctionRecord.unchained
      else none := by
  rw [← filterMap_of_mapM alone, List.map_filterMap, List.filterMap_filter]

/-- The records of two arenas that differ in the order of siblings are the same, order and chains apart. -/
theorem Reordered.records_perm {left right : Arena} (reordered : left.Reordered right) (leftTree : left.Treelike)
    (rightTree : right.Treelike) {fileName : String} {records others : List FunctionRecord}
    (alone : ((left.preorder leftTree.acyclic 0).filter Node.isDeclaration).mapM (left.recordAlone fileName) =
      .ok records)
    (otherAlone : ((right.preorder rightTree.acyclic 0).filter Node.isDeclaration).mapM
      (right.recordAlone fileName) = .ok others) :
    (records.map FunctionRecord.unchained).Perm (others.map FunctionRecord.unchained) := by
  rw [map_unchained leftTree.acyclic alone, map_unchained rightTree.acyclic otherAlone]
  apply reordered.filterMap_perm
  intro l r twins
  obtain ⟨record, other, measured, remeasured, same⟩ := twins.recordAlone reordered leftTree rightTree fileName
  rw [twins.reads Node.isDeclaration fun _ _ => rfl, measured, remeasured]
  simp only [Except.toOption, Option.map_some, same]

/-- The order of siblings does not matter. Between two arenas that differ only in the order in which nodes
list their children, no node differs in its decisions, conditions, symbols or nesting, whatever tables the
nesting walks are given; the files have the same counters, and the same functions up to their order. -/
theorem measures_reordered (left right : Arena) (tree : left.Treelike) (reordered : left.Reordered right)
    (fileName : String) :
    (∀ l ∈ left.nodes, ∀ r ∈ right.nodes, l.index = r.index →
      Agree Eq (left.cyclomatic l) (right.cyclomatic r) ∧
      Agree Eq (left.maxConditions l) (right.maxConditions r) ∧
      Agree Eq (left.halstead l) (right.halstead r) ∧
      ∀ table other, ∃ depth after last,
        left.nesting l table = .ok depth after ∧ right.nesting r other = .ok depth last) ∧
    ∃ collection other, left.collect fileName = .ok collection ∧ right.collect fileName = .ok other ∧
      collection.file.strings = other.file.strings ∧ collection.file.imports = other.file.imports ∧
      (collection.functions.map fun record =>
        (record.functionName, record.startLine, record.parameters, record.length)).Perm
      (other.functions.map fun record =>
        (record.functionName, record.startLine, record.parameters, record.length)) := by
  have otherTree := reordered.treelike tree
  constructor
  · intro l leftMember r rightMember position
    have twins := reordered.twins leftMember rightMember position
    exact ⟨twins.cyclomatic reordered tree otherTree, twins.maxConditions reordered tree otherTree,
      twins.halstead reordered tree otherTree, twins.nesting reordered tree otherTree⟩
  · obtain ⟨records, collected, alone⟩ := tree.collect_eq fileName
    obtain ⟨others, recollected, otherAlone⟩ := otherTree.collect_eq fileName
    have perm := reordered.records_perm tree otherTree alone otherAlone
    refine ⟨_, _, collected, recollected, ?_, ?_, ?_⟩
    · exact congrArg Int.ofNat <| reordered.countP_eq tree.acyclic otherTree.acyclic Node.isString Node.isString
        (fun _ _ twins => twins.reads Node.isString fun _ _ => rfl) 0
    · exact congrArg Int.ofNat <| reordered.countP_eq tree.acyclic otherTree.acyclic left.callsRequire
        right.callsRequire (fun _ _ => reordered.callsRequire) 0
    · have told := perm.map fun record =>
        (record.functionName, record.startLine, record.parameters, record.length)
      rwa [List.map_map, List.map_map] at told

/-- The same arena with all children in reverse. -/
def mirrored (arena : Arena) : Arena where
  items := arena.items.map fun item => { item with children := item.children.reverse }
  hasErrors := arena.hasErrors
  hasRoot := by simpa using arena.hasRoot

theorem reordered_mirrored (arena : Arena) : arena.Reordered arena.mirrored := by
  unfold Reordered mirrored
  rw [Array.toList_map, List.forall₂_map_right_iff, List.forall₂_same]
  intro item _
  exact ⟨List.reverse_perm item.children, rfl⟩

/-- Two declarations, one with parameters and one with nested decisions, a string and a call of `require`. -/
def leftToRight : Arena where
  items := #[
    { kind := "program", children := [1, 4, 10] },
    { kind := "function_declaration", children := [2, 3], fields := [("name", [2]), ("parameters", [3])] },
    { kind := "identifier", text := some "first" },
    { kind := "formal_parameters", children := [11, 12] },
    { kind := "function_declaration", lastLine := 4, children := [5, 6], fields := [("name", [5]), ("body", [6])] },
    { kind := "identifier", text := some "second" },
    { kind := "if_statement", children := [7, 8], fields := [("condition", [7])] },
    { kind := "binary_expression", operator := some "&&" },
    { kind := "while_statement", children := [9] },
    { kind := "string" },
    { kind := "call_expression", children := [13], fields := [("function", [13])] },
    { kind := "identifier", text := some "left" },
    { kind := "identifier", text := some "right" },
    { kind := "identifier", text := some "require" }]
  hasRoot := by decide

theorem leftToRight_treelike : leftToRight.Treelike where
  inside := by decide
  acyclic := leftToRight.acyclic_of_forward (by decide)
  fieldsInside := by decide
  once := by
    intro index
    have counted : leftToRight.listings index = [1, 4, 10, 2, 3, 11, 12, 5, 6, 7, 8, 9, 13].count index := rfl
    rw [counted]
    exact List.nodup_iff_count.mp (by decide) index

theorem leftToRight_reordered :
    (∃ depth after last,
      leftToRight.nesting leftToRight.root astray = .ok depth after ∧
        leftToRight.mirrored.nesting leftToRight.mirrored.root .empty = .ok depth last) ∧
    ∃ collection other, leftToRight.collect "a.js" = .ok collection ∧
      leftToRight.mirrored.collect "a.js" = .ok other ∧
      collection.functions.map (·.functionName) = ["first", "second"] ∧
      other.functions.map (·.functionName) = ["second", "first"] ∧
      collection.file.strings = other.file.strings ∧ collection.file.imports = other.file.imports ∧
      (collection.functions.map fun record =>
        (record.functionName, record.startLine, record.parameters, record.length)).Perm
      (other.functions.map fun record =>
        (record.functionName, record.startLine, record.parameters, record.length)) := by
  obtain ⟨nodes, collection, other, collected, recollected, strings, imports, perm⟩ :=
    measures_reordered leftToRight leftToRight.mirrored leftToRight_treelike leftToRight.reordered_mirrored "a.js"
  have forward : (leftToRight.collect "a.js").map (·.functions.map (·.functionName)) =
      .ok ["first", "second"] := by decide +kernel
  have backward : (leftToRight.mirrored.collect "a.js").map (·.functions.map (·.functionName)) =
      .ok ["second", "first"] := by decide +kernel
  rw [collected] at forward
  rw [recollected] at backward
  obtain ⟨_, _, _, nesting⟩ := nodes leftToRight.root leftToRight.root_mem leftToRight.mirrored.root
    leftToRight.mirrored.root_mem rfl
  exact ⟨nesting astray .empty, collection, other, collected, recollected, Except.ok.inj forward,
    Except.ok.inj backward, strings, imports, perm⟩

end Arena

end ScriptMetrics
