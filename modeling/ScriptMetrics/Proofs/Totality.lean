import ScriptMetrics.Metrics.Collect
import ScriptMetrics.Proofs.Preorder
import ScriptMetrics.Proofs.Sequencing

/-!
Measures have values. In an arena whose children and fields lie inside it and in which no node is
its own descendant, no measure that needs only the visits of a node and the fields of nodes fails.
-/

namespace ScriptMetrics

namespace Arena

/-- A sound arena whose fields lie inside it as well. -/
structure Complete (arena : Arena) : Prop extends Sound arena where
  fieldsInside : ∀ node ∈ arena.nodes, ∀ field ∈ node.fields, ∀ index ∈ field.2, index < arena.size

theorem node_inside (arena : Arena) (index : Nat) (inside : index < arena.size) :
    ∃ node, arena.node index = .ok node ∧ node ∈ arena.nodes := by
  obtain ⟨node, member, rfl⟩ := arena.exists_node index inside
  exact ⟨node, arena.node_index node member, member⟩

theorem mapM_node_inside (arena : Arena) (index? : Option Nat)
    (inside : ∀ index ∈ index?, index < arena.size) :
    ∃ found : Option Node, index?.mapM arena.node = .ok found ∧ ∀ node ∈ found, node ∈ arena.nodes := by
  cases index? with
  | none => exact ⟨none, rfl, by simp⟩
  | some index =>
      obtain ⟨node, found, member⟩ := arena.node_inside index (inside index rfl)
      refine ⟨some node, ?_, ?_⟩
      · rw [Option.mapM_some, found]
        rfl
      · intro other same
        rwa [← Option.some.inj same]

section

variable {arena : Arena} {node : Node}

theorem Complete.field?_ok (complete : arena.Complete) (member : node ∈ arena.nodes) (name : String) :
    ∃ found, arena.field? node name = .ok found ∧ ∀ other ∈ found, other ∈ arena.nodes := by
  apply arena.mapM_node_inside
  intro index first
  obtain ⟨indices, listed, head⟩ := Option.bind_eq_some_iff.mp first
  obtain ⟨front, back, split, _⟩ := List.lookup_eq_some_iff.mp listed
  apply complete.fieldsInside node member (name, indices)
  · simp [split]
  · exact List.mem_of_head? head

/-- The first node in a grammar field, if the field leads to one. -/
def part? (arena : Arena) (node : Node) (name : String) : Option Node :=
  (node.fieldIndex? name).bind arena.node?

theorem mem_of_part? {found : Node} {name : String} (present : arena.part? node name = some found) :
    found ∈ arena.nodes := by
  obtain ⟨index, _, located⟩ := Option.bind_eq_some_iff.mp present
  have same := arena.index_of_node? index found located
  subst same
  exact (arena.mem_nodes found).mpr located

theorem Complete.field?_eq (complete : arena.Complete) (member : node ∈ arena.nodes) (name : String) :
    arena.field? node name = .ok (arena.part? node name) := by
  obtain ⟨found, fetched, _⟩ := complete.field?_ok member name
  unfold field? at fetched ⊢
  unfold part?
  cases given : node.fieldIndex? name with
  | none => rfl
  | some index =>
      rw [given, Option.mapM_some] at fetched
      rw [Option.mapM_some, Option.bind_some]
      unfold Arena.node at fetched ⊢
      cases located : arena.node? index with
      | none =>
          rw [located] at fetched
          cases fetched
      | some node => rfl

theorem Sound.firstChild?_ok (sound : arena.Sound) (member : node ∈ arena.nodes) :
    ∃ found, arena.firstChild? node = .ok found ∧ ∀ other ∈ found, other ∈ arena.nodes := by
  apply arena.mapM_node_inside
  intro index first
  exact sound.inside node member index (List.mem_of_head? first)

theorem Sound.children_ok (sound : arena.Sound) (member : node ∈ arena.nodes) :
    ∃ found, arena.children node = .ok found ∧ ∀ other ∈ found, other ∈ arena.nodes :=
  mapM_ok arena.node (· ∈ arena.nodes) node.children fun child listed =>
    arena.node_inside child (sound.inside node member child listed)

theorem Sound.visits_ok (sound : arena.Sound) (member : node ∈ arena.nodes) :
    ∃ nodes, arena.visits node = .ok nodes ∧ ∀ other ∈ nodes, other ∈ arena.nodes := by
  refine ⟨_, arena.visits_eq_preorder sound node member, ?_⟩
  intro other visited
  exact ((arena.mem_preorder sound.acyclic node.index other).mp visited).1

theorem Sound.cyclomatic_ok (sound : arena.Sound) (member : node ∈ arena.nodes) :
    ∃ count, arena.cyclomatic node = .ok count := by
  obtain ⟨nodes, visited, _⟩ := sound.visits_ok member
  simp [cyclomatic, visited, bind, Except.bind, pure, Except.pure]

theorem Sound.halstead_ok (sound : arena.Sound) (member : node ∈ arena.nodes) :
    ∃ count, arena.halstead node = .ok count := by
  obtain ⟨nodes, visited, _⟩ := sound.visits_ok member
  simp [halstead, visited, bind, Except.bind, pure, Except.pure]

theorem Complete.conditionCount_ok (complete : arena.Complete) (member : node ∈ arena.nodes) :
    ∃ count, arena.conditionCount node = .ok count := by
  obtain ⟨found, test, inside⟩ := complete.field?_ok member "condition"
  cases found with
  | none => simp [conditionCount, test, bind, Except.bind, pure, Except.pure]
  | some condition =>
      obtain ⟨nodes, visited, _⟩ := complete.visits_ok (inside condition rfl)
      simp [conditionCount, test, visited, bind, Except.bind, pure, Except.pure]

theorem Complete.maxConditions_ok (complete : arena.Complete) (member : node ∈ arena.nodes) :
    ∃ count, arena.maxConditions node = .ok count := by
  obtain ⟨nodes, visited, inside⟩ := complete.visits_ok member
  obtain ⟨counts, counted⟩ := mapM_total arena.conditionCount (nodes.filter Node.isConditional)
    fun conditional listed => complete.conditionCount_ok (inside _ (List.mem_filter.mp listed).1)
  simp [maxConditions, visited, counted, bind, Except.bind, pure, Except.pure]

theorem Complete.isChainLink_ok (complete : arena.Complete) (member : node ∈ arena.nodes) :
    ∃ answer, arena.isChainLink node = .ok answer := by
  obtain ⟨found, index, _⟩ := complete.field?_ok member "index"
  unfold isChainLink
  split
  · exact ⟨_, rfl⟩
  · split
    · simp [index, bind, Except.bind, pure, Except.pure]
    · exact ⟨_, rfl⟩

theorem Complete.chainLength_ok (complete : arena.Complete) (member : node ∈ arena.nodes) :
    ∃ length, arena.chainLength node = .ok length := by
  obtain ⟨nodes, visited, inside⟩ := complete.visits_ok member
  obtain ⟨links, linked⟩ := mapM_total arena.isChainLink nodes fun other listed =>
    complete.isChainLink_ok (inside other listed)
  simp [chainLength, visited, linked, bind, Except.bind, pure, Except.pure]

theorem choice_inside (member : node ∈ arena.nodes) (chosen : Bool) :
    ∃ root, (Except.ok (if chosen then some node else none) : Except Fault (Option Node)) = .ok root ∧
      ∀ other ∈ root, other ∈ arena.nodes := by
  refine ⟨_, rfl, ?_⟩
  intro other same
  cases chosen with
  | false => cases same
  | true => rwa [← Option.some.inj same]

theorem Complete.expressionChainRoot?_ok (complete : arena.Complete) {expression : Node}
    (member : node ∈ arena.nodes) (expressionMember : expression ∈ arena.nodes) :
    ∃ root, arena.expressionChainRoot? node expression = .ok root ∧ ∀ other ∈ root, other ∈ arena.nodes := by
  unfold expressionChainRoot?
  split
  · obtain ⟨found, fetched, inside⟩ := complete.field?_ok expressionMember "arguments"
    simp only [fetched, bind, Except.bind, pure, Except.pure]
    cases found with
    | none => exact choice_inside member true
    | some list =>
        obtain ⟨arguments, listed, within⟩ := complete.children_ok (inside list rfl)
        simp only [listed]
        split
        · cases arguments with
          | nil => exact choice_inside member true
          | cons first rest => exact choice_inside (within first List.mem_cons_self) _
        · exact choice_inside member true
  · exact choice_inside member _

theorem Complete.chainRoot?_ok (complete : arena.Complete) (member : node ∈ arena.nodes) :
    ∃ root, arena.chainRoot? node = .ok root ∧ ∀ other ∈ root, other ∈ arena.nodes := by
  unfold chainRoot?
  split
  · obtain ⟨found, fetched, inside⟩ := complete.firstChild?_ok member
    simp only [fetched, bind, Except.bind, pure, Except.pure]
    cases found with
    | none => exact choice_inside member false
    | some expression => exact complete.expressionChainRoot?_ok member (inside expression rfl)
  · split
    · obtain ⟨found, fetched, _⟩ := complete.field?_ok member "value"
      simp only [fetched, bind, Except.bind, pure, Except.pure]
      cases found with
      | none => exact choice_inside member false
      | some value => exact choice_inside member _
    · exact choice_inside member false

theorem Complete.maxChains_ok (complete : arena.Complete) (member : node ∈ arena.nodes) :
    ∃ count, arena.maxChains node = .ok count := by
  obtain ⟨nodes, visited, inside⟩ := complete.visits_ok member
  obtain ⟨roots, rooted, within⟩ := mapM_ok arena.chainRoot? (fun root => ∀ other ∈ root, other ∈ arena.nodes)
    nodes fun other listed => complete.chainRoot?_ok (inside other listed)
  obtain ⟨lengths, measured⟩ := mapM_total arena.chainLength (roots.filterMap id) fun start listed => by
    obtain ⟨root, found, same⟩ := List.mem_filterMap.mp listed
    exact complete.chainLength_ok (within root found start same)
  refine ⟨lengths.foldl max 0, ?_⟩
  simp only [maxChains, visited, rooted, measured, bind, Except.bind, pure, Except.pure]

theorem Complete.isImport_ok (complete : arena.Complete) (member : node ∈ arena.nodes) :
    ∃ answer, arena.isImport node = .ok answer := by
  obtain ⟨found, fetched, _⟩ := complete.field?_ok member "function"
  unfold isImport
  split
  · simp [fetched, bind, Except.bind, pure, Except.pure]
  · exact ⟨_, rfl⟩

theorem Complete.countNode_ok (complete : arena.Complete) (member : node ∈ arena.nodes) (file : FileRecord) :
    ∃ counted, arena.countNode file node = .ok counted := by
  obtain ⟨answer, answered⟩ := complete.isImport_ok member
  unfold countNode
  split
  · exact ⟨_, rfl⟩
  · simp only [answered, bind, Except.bind, pure, Except.pure]
    cases answer <;> exact ⟨_, rfl⟩

theorem Complete.outline_ok (complete : arena.Complete) (member : node ∈ arena.nodes) (fileName : String) :
    ∃ record, arena.outline node fileName = .ok record := by
  obtain ⟨name, named, _⟩ := complete.field?_ok member "name"
  obtain ⟨list, parameters, _⟩ := complete.field?_ok member "parameters"
  obtain ⟨cyclomatic, decided⟩ := complete.cyclomatic_ok member
  obtain ⟨conditions, joined⟩ := complete.maxConditions_ok member
  obtain ⟨chains, chained⟩ := complete.maxChains_ok member
  obtain ⟨halstead, spelled⟩ := complete.halstead_ok member
  simp [outline, functionName, parameterCount, named, parameters, decided, joined, chained, spelled,
    bind, Except.bind, pure, Except.pure]

end

end Arena

end ScriptMetrics
