import ScriptMetrics.Proofs.Ancestry
import ScriptMetrics.Proofs.Totality

/-!
Collecting the functions of a file in one pass. The walk of the file and the nesting walks of all its
declarations share one parent table. A nesting walk first records the parents of everything below its
declaration and then reads nothing but these records, so what the table held before does not show in
any measure; and counting reads no records at all.
-/

namespace ScriptMetrics

namespace Arena

theorem attendAll_noteLeaf (nodes : List Node) (table : ParentTable) :
    attendAll Visitor.noteLeaf nodes ⟨table, #[]⟩ =
      .ok () ⟨table.adoptAll nodes, (nodes.filter Node.isLeaf).toArray⟩ := by
  rw [attendAll_foldl Visitor.noteLeaf fun noted node => if node.isLeaf then noted.push node else noted]
  · rw [← List.foldl_filter]
    simp
  · intro node walk
    unfold Visitor.noteLeaf
    split <;> rfl

theorem leaves_eq (arena : Arena) (sound : arena.Sound) (function : Node)
    (member : function ∈ arena.nodes) (table : ParentTable) :
    arena.leaves function table =
      .ok ((arena.preorder sound.acyclic function.index).filter Node.isLeaf)
        (table.adoptAll (arena.preorder sound.acyclic function.index)) := by
  simp [leaves, arena.walk_eq_attendAll sound Visitor.noteLeaf function member, attendAll_noteLeaf]

theorem rooted_adoptAll (arena : Arena) (sound : arena.Sound) (node : Node) (member : node ∈ arena.nodes)
    (table : ParentTable) (top : Nat) (rooted : Rooted arena table top node.index) :
    let after := table.adoptAll (arena.preorder sound.acyclic node.index)
    (∀ index, Rooted arena table top index → Rooted arena after top index) ∧
      ∀ index, arena.Reaches node.index index → Rooted arena after top index := by
  have run := arena.walk_eq_attendAll sound Visitor.note node member ⟨table, #[]⟩
  rw [attendAll_note] at run
  exact arena.walk_roots sound Visitor.note top (Visitor.note_silent.keeps arena top) node member _ _
    rooted run

/-- What a table held before a walk is gone from every position strictly below the top. -/
theorem parent?_below (arena : Arena) (acyclic : arena.Acyclic) (top index : Nat)
    (below : Relation.TransGen arena.Links top index) (table other : ParentTable) :
    (table.adoptAll (arena.preorder acyclic top)).parent? index =
      (other.adoptAll (arena.preorder acyclic top)).parent? index := by
  apply ParentTable.parent?_adoptAll_inside
  obtain ⟨_, above, node, member, rfl, listed⟩ := Relation.TransGen.tail'_iff.mp below
  exact ⟨node, (arena.mem_preorder acyclic top node).mpr ⟨member, above⟩, listed⟩

theorem parent?_apart (arena : Arena) (acyclic : arena.Acyclic) (top index : Nat)
    (apart : ¬ Relation.TransGen arena.Links top index) (table : ParentTable) :
    (table.adoptAll (arena.preorder acyclic top)).parent? index = table.parent? index := by
  apply ParentTable.parent?_adoptAll_outside
  intro node visited listed
  rcases (arena.mem_preorder acyclic top node).mp visited with ⟨member, reached⟩
  exact apart (.tail' reached ⟨node, member, rfl, listed⟩)

/-- A climb reads the table only strictly below its stop. -/
theorem climb_congr (arena : Arena) (table other : ParentTable) (stop node : Node)
    (rooted : Rooted arena table stop.index node.index)
    (same : ∀ index, Relation.TransGen arena.Links stop.index index →
      table.parent? index = other.parent? index) (steps : Nat) :
    arena.climb table stop steps node = arena.climb other stop steps node := by
  generalize position : node.index = index at rooted
  induction rooted generalizing node steps with
  | top =>
      cases steps with
      | zero => rfl
      | succ steps => simp [climb, position]
  | @child index parent below recorded linked above ih =>
      subst position
      cases steps with
      | zero => rfl
      | succ steps =>
          -- Rooted and not the stop itself, the node is strictly below it.
          have known := same node.index (.tail' above.reaches linked)
          obtain ⟨upper, upperMember, rfl, _⟩ := linked
          have found := arena.node_index upper upperMember
          have higher := ih upper steps rfl
          rw [recorded] at known
          simp only [climb, recorded, ← known, found, bind, Except.bind, higher]

theorem Complete.nests_ok {arena : Arena} (complete : arena.Complete) {node : Node}
    (member : node ∈ arena.nodes) : ∃ answer, arena.nests node = .ok answer := by
  obtain ⟨found, fetched, _⟩ := complete.field?_ok member "alternative"
  unfold nests
  split
  · simp [fetched, bind, Except.bind, pure, Except.pure]
  · exact ⟨_, rfl⟩

section Measuring

variable {arena : Arena} {function : Node}

theorem Complete.leafDepth_ok (complete : arena.Complete) (member : function ∈ arena.nodes) (leaf : Node)
    (visited : leaf ∈ arena.preorder complete.acyclic function.index) (table : ParentTable) :
    ∃ depth, arena.leafDepth (table.adoptAll (arena.preorder complete.acyclic function.index))
      function leaf = .ok depth := by
  obtain ⟨leafMember, below⟩ := (arena.mem_preorder complete.acyclic _ leaf).mp visited
  obtain ⟨chain, climbed, ascent, _⟩ := arena.traceable_of_rooted complete.acyclic _ function leaf member
    leafMember ((arena.rooted_adoptAll complete.toSound function member table _ .top).2 leaf.index below)
  obtain ⟨answers, answered⟩ := mapM_total arena.nests chain fun step inside =>
    complete.nests_ok ((ascent.between member).2 step inside).1
  simp [leafDepth, climbed, answered, bind, Except.bind, pure, Except.pure]

theorem Sound.leafDepth_congr (sound : arena.Sound) (member : function ∈ arena.nodes) (leaf : Node)
    (visited : leaf ∈ arena.preorder sound.acyclic function.index) (table other : ParentTable) :
    arena.leafDepth (table.adoptAll (arena.preorder sound.acyclic function.index)) function leaf =
      arena.leafDepth (other.adoptAll (arena.preorder sound.acyclic function.index)) function leaf := by
  obtain ⟨_, below⟩ := (arena.mem_preorder sound.acyclic _ leaf).mp visited
  have rooted := (arena.rooted_adoptAll sound function member table _ .top).2 leaf.index below
  have same := arena.climb_congr _ (other.adoptAll (arena.preorder sound.acyclic function.index))
    function leaf rooted
    (fun index inside => arena.parent?_below sound.acyclic function.index index inside table other)
    (arena.size + 1)
  simp only [leafDepth, ancestors, same]

/-- Whatever table the nesting walk is given, each leaf has the depth it has after a walk that starts
with an empty one. -/
theorem Sound.nesting_eq (sound : arena.Sound) (member : function ∈ arena.nodes) (table : ParentTable) :
    let below := arena.preorder sound.acyclic function.index
    arena.nesting function table =
      leaving (((below.filter Node.isLeaf).mapM
          (arena.leafDepth (ParentTable.empty.adoptAll below) function)).map (·.foldl max 0))
        (table.adoptAll below) := by
  intro below
  have same := mapM_congr (arena.leafDepth (table.adoptAll below) function)
    (arena.leafDepth (ParentTable.empty.adoptAll below) function) (below.filter Node.isLeaf)
    fun leaf listed => sound.leafDepth_congr member leaf (List.mem_filter.mp listed).1 table .empty
  simp only [nesting, arena.leaves_eq sound function member]
  rw [same]
  cases (below.filter Node.isLeaf).mapM (arena.leafDepth (ParentTable.empty.adoptAll below) function) <;> rfl

theorem Complete.nesting_ok (complete : arena.Complete) (member : function ∈ arena.nodes) :
    ∃ depth, ∀ table, arena.nesting function table =
      .ok depth (table.adoptAll (arena.preorder complete.acyclic function.index)) := by
  obtain ⟨depths, measured⟩ := mapM_total
    (arena.leafDepth (ParentTable.empty.adoptAll (arena.preorder complete.acyclic function.index)) function)
    ((arena.preorder complete.acyclic function.index).filter Node.isLeaf)
    fun leaf listed => complete.leafDepth_ok member leaf (List.mem_filter.mp listed).1 .empty
  refine ⟨depths.foldl max 0, ?_⟩
  intro table
  rw [complete.toSound.nesting_eq member, measured]
  rfl

theorem Complete.functionRecord_ok (complete : arena.Complete) (member : function ∈ arena.nodes)
    (fileName : String) :
    ∃ record : FunctionRecord, record.frozen = true ∧ ∀ table, arena.functionRecord function fileName table =
      .ok record (table.adoptAll (arena.preorder complete.acyclic function.index)) := by
  obtain ⟨outline, outlined⟩ := complete.outline_ok member fileName
  obtain ⟨nesting, nested⟩ := complete.nesting_ok member
  refine ⟨{ outline with nesting, frozen := true }, rfl, ?_⟩
  intro table
  simp only [functionRecord, outlined, nested]

end Measuring

/-- Nesting neither sees nor touches what is recorded outside the function. Whatever the table holds,
the depth is the same, or the same fault where a field leads out of the arena; and whatever is not
strictly below the function keeps its record. -/
theorem nesting_ignores_table (arena : Arena) (sound : arena.Sound) (function : Node)
    (member : function ∈ arena.nodes) :
    ∃ result : Except Fault Nat, (arena.Complete → ∃ depth, result = .ok depth) ∧
      ∀ table, ∃ after, arena.nesting function table = leaving result after ∧
        ∀ index, ¬ Relation.TransGen arena.Links function.index index →
          after.parent? index = table.parent? index := by
  refine ⟨_, ?_, fun table => ⟨_, sound.nesting_eq member table, ?_⟩⟩
  · intro complete
    rcases complete.nesting_ok member with ⟨depth, nested⟩
    have known := (sound.nesting_eq member .empty).symm.trans (nested .empty)
    generalize Except.map _ _ = result at known ⊢
    cases result with
    | error fault => cases known
    | ok depth => exact ⟨depth, rfl⟩
  · intro index apart
    exact arena.parent?_apart sound.acyclic function.index index apart table

/-- Two decisions around one shared leaf, below a declaration. -/
def joined : Arena where
  items := #[
    { kind := "program", children := [1] },
    { kind := "function_declaration", children := [2, 3] },
    { kind := "if_statement", children := [4], fields := [("alternative", [4])] },
    { kind := "while_statement", children := [4] },
    { kind := "identifier" }]
  hasRoot := by decide

theorem joined_sound : joined.Sound where
  inside := by decide
  acyclic := joined.acyclic_of_forward (by decide)

/-- A declaration with its parent on record, and a leaf and a far position with wrong ones. -/
def misled : ParentTable :=
  ((ParentTable.empty.set 1 0).set 4 0).set 9 7

theorem joined_ignores_table : ∃ after other,
    joined.nesting (joined.nodes.getD 1 joined.root) .empty = .ok 1 after ∧
      joined.nesting (joined.nodes.getD 1 joined.root) misled = .ok 1 other ∧
      misled.parent? 4 = some 0 ∧ other.parent? 1 = some 0 ∧ other.parent? 9 = some 7 := by
  have plain : (match joined.nesting (joined.nodes.getD 1 joined.root) .empty with
      | .ok depth _ => some depth
      | .error _ _ => none) = some 1 := by decide +kernel
  rcases nesting_ignores_table joined joined_sound (joined.nodes.getD 1 joined.root) (by decide) with
    ⟨result, _, each⟩
  rcases each .empty with ⟨after, measured, _⟩
  rcases each misled with ⟨other, again, kept⟩
  have outside : ¬ Relation.TransGen joined.Links 1 9 := by
    intro below
    rcases Relation.TransGen.tail'_iff.mp below with ⟨_, _, linked⟩
    exact absurd (joined_sound.links_inside linked) (by decide)
  rw [measured] at plain
  cases result with
  | error fault => cases plain
  | ok depth =>
      cases plain
      exact ⟨after, other, measured, again, rfl, kept 1 (joined_sound.acyclic 1), kept 9 outside⟩

/-- The record of a function that is measured alone, with a table of its own. -/
def recordAlone (arena : Arena) (fileName : String) (function : Node) : Except Fault FunctionRecord :=
  match arena.functionRecord function fileName .empty with
  | .ok record _ => .ok record
  | .error fault _ => .error fault

def tally (arena : Arena) : Visitor FileRecord := fun node walk =>
  match arena.countNode walk.state node with
  | .ok file => .ok () ⟨walk.parents, file⟩
  | .error fault => .error fault walk

theorem countNode_fileName {arena : Arena} {node : Node} {file counted : FileRecord}
    (counts : arena.countNode file node = .ok counted) : counted.fileName = file.fileName := by
  unfold countNode at counts
  split at counts
  · cases counts
    rfl
  · rcases bind_eq_ok.mp counts with ⟨imported, _, counts⟩
    split at counts <;> cases counts <;> rfl

theorem attendAll_tally_fileName {arena : Arena} (nodes : List Node) {walk after : Walk FileRecord}
    (ran : attendAll arena.tally nodes walk = .ok () after) : after.state.fileName = walk.state.fileName := by
  induction nodes generalizing walk with
  | nil =>
      rw [attendAll_nil] at ran
      cases ran
      rfl
  | cons node rest ih =>
      rw [attendAll_cons] at ran
      unfold tally at ran
      cases counts : arena.countNode walk.state node with
      | error fault => simp [counts] at ran
      | ok counted =>
          simp only [counts] at ran
          exact (ih ran).trans (countNode_fileName counts)

theorem Complete.collectNode_ok {arena : Arena} (complete : arena.Complete) (fileName : String)
    (node : Node) (member : node ∈ arena.nodes) (table quiet : ParentTable) (file : FileRecord)
    (functions : Array FunctionRecord) :
    ∃ counted records after,
      arena.collectNode fileName node ⟨table, file, functions⟩ =
        .ok () ⟨after, counted, functions ++ records.toArray⟩ ∧
      arena.tally node ⟨quiet, file⟩ = .ok () ⟨quiet, counted⟩ ∧
      ([node].filter Node.isDeclaration).mapM (arena.recordAlone fileName) = .ok records ∧
      ∀ record ∈ records, record.frozen = true := by
  obtain ⟨counted, counts⟩ := complete.countNode_ok member file
  obtain ⟨record, frozen, recorded⟩ := complete.functionRecord_ok member fileName
  by_cases declared : node.isDeclaration
  · refine ⟨counted, [record], table.adoptAll (arena.preorder complete.acyclic node.index), ?_, ?_, ?_, ?_⟩
    · simp [collectNode, counts, declared, recorded]
    · simp [tally, counts]
    · simp [declared, recordAlone, recorded, bind, Except.bind, pure, Except.pure]
    · simpa using frozen
  · refine ⟨counted, [], table, ?_, ?_, ?_, by simp⟩
    · simp [collectNode, counts, declared]
    · simp [tally, counts]
    · simp [declared, pure, Except.pure]

/-- Collecting over a run of nodes counts as the tally does and adds the records that the
declarations among them have alone. -/
theorem Complete.attendAll_collectNode {arena : Arena} (complete : arena.Complete) (fileName : String)
    (nodes : List Node) (inside : ∀ node ∈ nodes, node ∈ arena.nodes) (table quiet : ParentTable)
    (file : FileRecord) (functions : Array FunctionRecord) :
    ∃ counted records,
      (∃ after, attendAll (arena.collectNode fileName) nodes ⟨table, file, functions⟩ =
        .ok () ⟨after, counted, functions ++ records.toArray⟩) ∧
      (∃ after, attendAll arena.tally nodes ⟨quiet, file⟩ = .ok () ⟨after, counted⟩) ∧
      (nodes.filter Node.isDeclaration).mapM (arena.recordAlone fileName) = .ok records ∧
      ∀ record ∈ records, record.frozen = true := by
  induction nodes generalizing table quiet file functions with
  | nil => exact ⟨file, [], ⟨table, by simp [attendAll_nil]⟩, ⟨quiet, rfl⟩, rfl, by simp⟩
  | cons node rest ih =>
      obtain ⟨counted, records, after, collected, tallied, alone, frozen⟩ :=
        complete.collectNode_ok fileName node (inside node List.mem_cons_self) table quiet file functions
      -- The two runs go on with different tables; only the counters stay together.
      obtain ⟨total, others, ⟨finished, run⟩, ⟨settled, tallies⟩, apart, complete⟩ :=
        ih (fun other member => inside other (List.mem_cons_of_mem node member))
          (after.adopt node.index node.children.reverse) (quiet.adopt node.index node.children.reverse)
          counted (functions ++ records.toArray)
      refine ⟨total, records ++ others, ⟨finished, ?_⟩, ⟨settled, ?_⟩, ?_, ?_⟩
      · rw [attendAll_cons, collected]
        simpa using run
      · rw [attendAll_cons, tallied]
        exact tallies
      · rw [← List.singleton_append, List.filter_append, List.mapM_append, alone, apart]
        rfl
      · intro record listed
        rcases List.mem_append.mp listed with here | later
        · exact frozen record here
        · exact complete record later

theorem Complete.collect_ok {arena : Arena} (complete : arena.Complete) (fileName : String) :
    ∃ counted records settled,
      arena.collect fileName = .ok ⟨{ counted with frozen := true }, records⟩ ∧
      ((arena.preorder complete.acyclic 0).filter Node.isDeclaration).mapM
        (arena.recordAlone fileName) = .ok records ∧
      attendAll arena.tally (arena.preorder complete.acyclic 0) ⟨.empty, { fileName }⟩ =
        .ok () ⟨settled, counted⟩ := by
  have inside : ∀ node ∈ arena.preorder complete.acyclic 0, node ∈ arena.nodes :=
    fun node listed => ((arena.mem_preorder complete.acyclic 0 node).mp listed).1
  obtain ⟨counted, records, ⟨after, run⟩, ⟨settled, tallies⟩, alone, _⟩ :=
    complete.attendAll_collectNode fileName _ inside .empty .empty { fileName } #[]
  refine ⟨counted, records, settled, ?_, alone, tallies⟩
  have walked := arena.walk_eq_attendAll complete.toSound (arena.collectNode fileName) arena.root
    arena.root_mem ⟨.empty, { fileName }, #[]⟩
  rw [show arena.root.index = 0 from rfl, run] at walked
  simp [collect, walked]

theorem Complete.collect_fileName {arena : Arena} (complete : arena.Complete) {fileName : String}
    {collection : Collection} (collected : arena.collect fileName = .ok collection) :
    collection.file.fileName = fileName := by
  obtain ⟨counted, records, settled, same, _, tallied⟩ := complete.collect_ok fileName
  rw [same] at collected
  cases collected
  exact attendAll_tally_fileName _ tallied

/-- Collecting does not interfere with itself. The records of a file are those that the declarations
have when each is measured alone, in the order the walk visits them, and the counters are those of a
walk that only counts. -/
theorem collect_eq_alone (arena : Arena) (complete : arena.Complete) (fileName : String) :
    ∃ collection order, arena.collect fileName = .ok collection ∧ arena.visits arena.root = .ok order ∧
      (order.filter Node.isDeclaration).mapM (arena.recordAlone fileName) = .ok collection.functions ∧
      (∀ record ∈ collection.functions, record.frozen = true) ∧ collection.file.frozen = true ∧
      ∃ after, arena.walk arena.tally arena.root ⟨.empty, { fileName }⟩ = .ok () after ∧
        collection.file = { after.state with frozen := true } := by
  have member := arena.root_mem
  have inside : ∀ node ∈ arena.preorder complete.acyclic arena.root.index, node ∈ arena.nodes :=
    fun node listed => ((arena.mem_preorder complete.acyclic _ node).mp listed).1
  obtain ⟨counted, records, ⟨after, run⟩, ⟨settled, tallies⟩, alone, frozen⟩ :=
    complete.attendAll_collectNode fileName _ inside .empty .empty { fileName } #[]
  refine ⟨⟨{ counted with frozen := true }, records⟩, _, ?_,
    arena.visits_eq_preorder complete.toSound arena.root member, alone, frozen, rfl,
    ⟨settled, counted⟩, ?_, rfl⟩
  · simp [collect, arena.walk_eq_attendAll complete.toSound _ arena.root member, run]
  · rw [arena.walk_eq_attendAll complete.toSound _ arena.root member, tallies]

/-- A declaration inside a declaration. The string is listed below the inner declaration itself and
below its decision. -/
def nested : Arena where
  items := #[
    { kind := "program", children := [1] },
    { kind := "function_declaration", children := [2, 3], fields := [("name", [2])] },
    { kind := "identifier", text := some "outer" },
    { kind := "function_declaration", children := [4, 5, 6], fields := [("name", [4])] },
    { kind := "identifier", text := some "inner" },
    { kind := "if_statement", children := [6] },
    { kind := "string" }]
  hasRoot := by decide

theorem nested_complete : nested.Complete where
  inside := by decide
  acyclic := nested.acyclic_of_forward (by decide)
  fieldsInside := by decide

theorem nested_alone :
    ∃ collection order, nested.collect "nested.js" = .ok collection ∧
      nested.visits nested.root = .ok order ∧
      (order.filter Node.isDeclaration).map Node.index = [1, 3] ∧
      (order.filter Node.isDeclaration).mapM (nested.recordAlone "nested.js") =
        .ok collection.functions := by
  obtain ⟨collection, order, collected, visited, alone, _⟩ :=
    collect_eq_alone nested nested_complete "nested.js"
  refine ⟨collection, order, collected, visited, ?_, alone⟩
  rw [nested.visits_eq_preorder nested_complete.toSound nested.root nested.root_mem] at visited
  rw [← Except.ok.inj visited]
  cbv

end Arena

end ScriptMetrics
