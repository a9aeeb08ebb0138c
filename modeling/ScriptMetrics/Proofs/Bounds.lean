import ScriptMetrics.Proofs.Composition

/-!
Nesting is bounded by complexity. Whatever nests is a decision, and a climb never passes a node twice, so
all that it counts is found among the decisions below the function, where every visit counts. Conditions
come from conditionals, and these are decisions as well.
-/

namespace ScriptMetrics

namespace Node

variable {node : Node}

theorem isDecision_of_isNesting (nests : node.isNesting = true) : node.isDecision = true := by
  unfold isNesting at nests
  exact (Bool.and_eq_true_iff.mp nests).1

theorem isDecision_of_isConditional (tests : node.isConditional = true) : node.isDecision = true := by
  have kind : node.kind = "if_statement" := by simpa [isConditional] using tests
  simp [isDecision, kind, Kind.decisions]

end Node

namespace Arena

section Bounds

variable {arena : Arena} {function : Node}

theorem Ascent.countP_le_decisions (acyclic : arena.Acyclic) (member : function ∈ arena.nodes) {leaf : Node}
    {chain : List Node} (ascent : arena.Ascent function leaf chain) :
    chain.countP Node.isNesting ≤ arena.decisions acyclic function.index := by
  have visited : chain ⊆ arena.preorder acyclic function.index := by
    intro step passed
    obtain ⟨stepMember, reached, _⟩ := (ascent.between member).2 step passed
    exact (arena.mem_preorder acyclic function.index step).mpr ⟨stepMember, reached⟩
  calc chain.countP Node.isNesting
      ≤ chain.countP Node.isDecision := List.countP_mono_left fun _ _ => Node.isDecision_of_isNesting
    -- A shared node is visited several times, but it stands on the climb once.
    _ ≤ arena.decisions acyclic function.index :=
        ((ascent.nodup acyclic member).subperm visited).countP_le _

theorem Complete.leafDepth_le (complete : arena.Complete) (member : function ∈ arena.nodes) (leaf : Node)
    (visited : leaf ∈ arena.preorder complete.acyclic function.index) (table : ParentTable) :
    ∃ depth, arena.leafDepth (table.adoptAll (arena.preorder complete.acyclic function.index))
      function leaf = .ok depth ∧ depth ≤ arena.decisions complete.acyclic function.index := by
  obtain ⟨leafMember, below⟩ := (arena.mem_preorder complete.acyclic _ leaf).mp visited
  have rooted := (arena.rooted_adoptAll complete.toSound function member table _ .top).2 leaf.index below
  obtain ⟨chain, climbed, ascent, _⟩ :=
    arena.traceable_of_rooted complete.acyclic _ function leaf member leafMember rooted
  exact ⟨_, complete.leafDepth_eq member ascent climbed, ascent.countP_le_decisions complete.acyclic member⟩

theorem Complete.nesting_le (complete : arena.Complete) (member : function ∈ arena.nodes)
    (table : ParentTable) :
    ∃ depth after, arena.nesting function table = .ok depth after ∧
      depth ≤ arena.decisions complete.acyclic function.index := by
  let below := arena.preorder complete.acyclic function.index
  obtain ⟨depths, measured, bound⟩ := mapM_ok (arena.leafDepth (table.adoptAll below) function)
    (· ≤ arena.decisions complete.acyclic function.index) (below.filter Node.isLeaf) fun leaf listed =>
      complete.leafDepth_le member leaf (List.mem_filter.mp listed).1 table
  refine ⟨largest depths, table.adoptAll below, ?_, largest_le bound⟩
  unfold nesting
  rw [arena.leaves_eq complete.toSound function member]
  simp only [below] at measured
  simp only [measured, foldl_max_eq_largest, below]

theorem decisions_eq_zero_iff (acyclic : arena.Acyclic) (index : Nat) :
    arena.decisions acyclic index = 0 ↔
      ∀ node ∈ arena.nodes, arena.Reaches index node.index → node.isDecision = false := by
  simp only [decisions, List.countP_eq_zero, mem_preorder, Bool.not_eq_true, and_imp]

theorem peak_conditions_eq_zero (acyclic : arena.Acyclic) (index : Nat)
    (none : arena.decisions acyclic index = 0) :
    arena.peak acyclic (arena.conditions? acyclic) index = 0 := by
  have silent : (arena.preorder acyclic index).filterMap (arena.conditions? acyclic) = [] := by
    rw [List.filterMap_eq_nil_iff]
    intro node visited
    have plain : node.isDecision ≠ true := List.countP_eq_zero.mp none node visited
    exact if_neg fun tests => plain (Node.isDecision_of_isConditional tests)
  rw [peak, silent]
  rfl

end Bounds

/-- Nesting is bounded by complexity, whatever table the nesting walk is given and however often a child is
listed: there are at least as many decisions as levels, and conditions only where there is a decision. So
a function without decisions has complexity one, no levels and no conditions. -/
theorem nesting_lt_cyclomatic (arena : Arena) (complete : arena.Complete) (function : Node)
    (member : function ∈ arena.nodes) (table : ParentTable) :
    ∃ count depth most after, arena.cyclomatic function = .ok count ∧
      arena.nesting function table = .ok depth after ∧ arena.maxConditions function = .ok most ∧
      depth + 1 ≤ count ∧ (0 < most → 2 ≤ count) ∧
      ((∀ node ∈ arena.nodes, arena.Reaches function.index node.index → node.isDecision = false) →
        count = 1 ∧ depth = 0 ∧ most = 0) := by
  obtain ⟨depth, after, nested, bound⟩ := complete.nesting_le member table
  have untested := peak_conditions_eq_zero complete.acyclic function.index
  refine ⟨_, depth, _, after, complete.cyclomatic_eq member, nested, complete.maxConditions_eq member, ?_, ?_, ?_⟩
  · omega
  · intro tested
    omega
  · intro plain
    have none := (decisions_eq_zero_iff complete.acyclic function.index).mpr plain
    exact ⟨by omega, by omega, untested none⟩

/-- The loop that `shared` lists twice counts twice as a decision, and the statement inside it has none. Both
are measured after a table that knows wrong parents. -/
theorem shared_nesting_lt :
    let statement := shared.nodes.getD 3 shared.root
    (∃ depth after, shared.nesting shared.root astray = .ok depth after ∧
      shared.cyclomatic shared.root = .ok 4 ∧ depth + 1 ≤ 4) ∧
    ∃ after, shared.nesting statement astray = .ok 0 after ∧ shared.cyclomatic statement = .ok 1 ∧
      shared.maxConditions statement = .ok 0 := by
  intro statement
  have member : statement ∈ shared.nodes := by decide
  have four : shared.cyclomatic shared.root = .ok 4 := by decide +kernel
  have one : shared.cyclomatic statement = .ok 1 := by decide +kernel
  constructor
  · obtain ⟨count, depth, _, after, counted, nested, _, bound, _⟩ :=
      nesting_lt_cyclomatic shared shared_complete shared.root shared.root_mem astray
    obtain rfl := Except.ok.inj (counted.symm.trans four)
    exact ⟨depth, after, nested, counted, bound⟩
  · obtain ⟨count, depth, most, after, counted, nested, tested, _, _, plain⟩ :=
      nesting_lt_cyclomatic shared shared_complete statement member astray
    have none : shared.decisions shared_complete.acyclic statement.index = 0 := by
      have same := Except.ok.inj ((shared_complete.cyclomatic_eq member).symm.trans one)
      omega
    obtain ⟨rfl, rfl, rfl⟩ := plain ((decisions_eq_zero_iff shared_complete.acyclic statement.index).mp none)
    exact ⟨after, nested, counted, tested⟩

end Arena

end ScriptMetrics
