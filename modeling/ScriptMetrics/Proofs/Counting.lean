import ScriptMetrics.Proofs.Locality

/-!
What a file is counted to have, read off its concrete tree. Arenas find a part by the positions listed
under the name of a field, and keep the text of some kinds only; trees find the same part by searching
the kept parts in order, and take its text from the source. The counters of a file and what its records
say about each declaration are stated on the tree and shown to be what collecting over the arena finds.
-/

namespace ScriptMetrics

namespace Cst

/-- The first kept part that fills a field. -/
def part? (tree : Cst) (name : String) : Option Cst :=
  tree.kept.find? (·.head.field == some name)

def text (source : ByteArray) (tree : Cst) : String :=
  slice source tree.head.start tree.head.stop

def isString (tree : Cst) : Bool :=
  tree.head.kind == "string"

/-- A call of `require`. -/
def isImport (source : ByteArray) (tree : Cst) : Bool :=
  tree.head.kind == "call_expression" && (tree.part? "function").any fun callee =>
    callee.head.kind == "identifier" && callee.text source == "require"

/-- The parts of the parameter list, if there is one. -/
def parameterCount (tree : Cst) : Nat :=
  (tree.part? "parameters").elim 0 (·.kept.length)

/-- The text of the name, where the name is of a kind that keeps its text and the text is not empty;
else the line. -/
def functionName (source : ByteArray) (tree : Cst) : String :=
  let byLine := "anon@" ++ toString (tree.head.firstRow + 1)
  match tree.part? "name" with
  | none => byLine
  | some name => if name.head.kind ∈ texts ∧ name.text source ≠ "" then name.text source else byLine

theorem outlines_eq_map (source : ByteArray) (kids : List Cst) :
    outlines source kids = (kids.filter isKept).map (outline source) := by
  induction kids with
  | nil => rfl
  | cons kid rest ih => by_cases keep : kid.isKept <;> simp [outlines, keep, ih]

end Cst

namespace Arena

section Standing

variable {arena : Arena} {source : ByteArray} {node : Node} {tree : Cst}

/-- A node with the tree it stands for: it carries the label of the tree, its children stand for the
kept parts in order, and its fields list those that fill them. -/
structure Mirrors (arena : Arena) (source : ByteArray) (node : Node) (tree : Cst) : Prop where
  label : node.label = tree.label source
  children : List.Forall₂ (fun index part => arena.Unfolds index (part.outline source)) node.children
    tree.kept
  fields : Draft.Indexes node.fields (node.children.zip (tree.kept.map (·.head.field)))

theorem StandsFor.mirrors (stands : arena.StandsFor source node tree) : arena.Mirrors source node tree := by
  obtain ⟨member, unfolds⟩ := stands
  cases tree with
  | node head kids =>
      rw [Cst.outline, Cst.outlines_eq_map] at unfolds
      cases unfolds with
      | node found located labelled indexed below =>
          rw [(arena.mem_nodes node).mp member] at located
          cases located
          refine ⟨labelled, List.forall₂_map_right_iff.mp below, ?_⟩
          simpa [Cst.kept, Cst.kids, Function.comp_def] using indexed

theorem Unfolds.node_ok {index : Nat} (unfolds : arena.Unfolds index (tree.outline source)) :
    ∃ node, arena.node index = .ok node ∧ arena.StandsFor source node tree := by
  have located : ∃ node, arena.node? index = some node := by
    generalize tree.outline source = outline at unfolds
    cases unfolds with
    | node node found _ _ _ => exact ⟨node, found⟩
  obtain ⟨node, found⟩ := located
  obtain rfl := arena.index_of_node? index node found
  have member := (arena.mem_nodes node).mpr found
  exact ⟨node, arena.node_index node member, member, unfolds⟩

-- Taking the first position of a field is searching the parts, as both keep the order of the source.
theorem head?_filling {indices : List Nat} {parts : List Cst}
    (below : List.Forall₂ (fun index part => arena.Unfolds index (part.outline source)) indices parts)
    (name : String) :
    Option.Rel (fun index part => arena.Unfolds index (Cst.outline source part))
      (Draft.filling (indices.zip (parts.map (·.head.field))) name).head?
      (parts.find? (·.head.field == some name)) := by
  induction below with
  | nil => exact .none
  | @cons index part _ _ first _ ih =>
      rw [List.map_cons, List.zip_cons_cons, List.find?_cons, Draft.filling, List.filter_cons]
      by_cases fills : part.head.field == some name
      · simp only [fills, ↓reduceIte, List.map_cons, List.head?_cons]
        exact .some first
      · simp only [fills, Bool.false_eq_true, ↓reduceIte]
        exact ih

/-- Looking up a field of a node finds what stands for the part that fills it. -/
theorem StandsFor.field?_ok (stands : arena.StandsFor source node tree) (name : String) (named : name ≠ "") :
    ∃ found, arena.field? node name = .ok found ∧
      Option.Rel (arena.StandsFor source) found (tree.part? name) := by
  have mirrors := stands.mirrors
  have first := head?_filling mirrors.children name
  rw [Arena.field?, mirrors.fields.fieldIndex?, if_neg named]
  change Option.Rel _ _ (tree.part? name) at first
  generalize tree.part? name = part at first ⊢
  generalize List.head? _ = index at first ⊢
  cases first with
  | none => exact ⟨none, rfl, .none⟩
  | some unfolds =>
      obtain ⟨child, found, below⟩ := unfolds.node_ok
      refine ⟨some child, ?_, .some below⟩
      rw [Option.mapM_some, found]
      rfl

section Reading

variable (stands : arena.StandsFor source node tree)

include stands

theorem StandsFor.text :
    node.text = if tree.head.kind ∈ Cst.texts then some (tree.text source) else none := by
  have same : node.text = _ := congrArg Label.text stands.mirrors.label
  simpa [Cst.label, Cst.text] using same

theorem StandsFor.firstLine : node.firstLine = tree.head.firstRow + 1 :=
  congrArg Label.firstLine stands.mirrors.label

theorem StandsFor.length : node.length = tree.head.lastRow - tree.head.firstRow := by
  have last : node.lastLine = tree.head.lastRow + 1 := congrArg Label.lastLine stands.mirrors.label
  rw [Node.length, last, stands.firstLine]
  omega

theorem StandsFor.isImport_ok : arena.isImport node = .ok (tree.isImport source) := by
  obtain ⟨found, fetched, related⟩ := stands.field?_ok "function" (by decide)
  unfold Arena.isImport Cst.isImport
  rw [Node.isCall, stands.kind]
  by_cases call : tree.head.kind == "call_expression"
  · rw [if_pos call, fetched, call, Bool.true_and]
    generalize tree.part? "function" = part at related ⊢
    cases related with
    | none => rfl
    | @some child callee below =>
        by_cases plain : callee.head.kind = "identifier"
        · have worded : "identifier" ∈ Cst.texts := by decide
          simp [bind, Except.bind, pure, Except.pure, below.kind, below.text, plain, worded]
        · simp [bind, Except.bind, pure, Except.pure, below.kind, beq_eq_false_iff_ne.mpr plain]
  · simp [call, pure, Except.pure]

theorem StandsFor.parameterCount_ok : arena.parameterCount node = .ok tree.parameterCount := by
  obtain ⟨found, fetched, related⟩ := stands.field?_ok "parameters" (by decide)
  unfold Arena.parameterCount Cst.parameterCount
  rw [fetched]
  generalize tree.part? "parameters" = part at related ⊢
  cases related with
  | none => rfl
  | some list =>
      simp [bind, Except.bind, pure, Except.pure, list.mirrors.children.length_eq]

theorem StandsFor.functionName_ok : arena.functionName node = .ok (tree.functionName source) := by
  obtain ⟨found, fetched, related⟩ := stands.field?_ok "name" (by decide)
  unfold Arena.functionName Cst.functionName
  rw [fetched, stands.firstLine]
  generalize tree.part? "name" = part at related ⊢
  cases related with
  | none => rfl
  | @some child name below =>
      by_cases worded : name.head.kind ∈ Cst.texts
      · by_cases empty : name.text source = "" <;>
          simp [bind, Except.bind, pure, Except.pure, Option.filter, below.text, worded, empty]
      · simp [bind, Except.bind, pure, Except.pure, below.text, worded]

/-- A node counts as the tree it stands for. -/
theorem StandsFor.countNode_ok (file : FileRecord) :
    arena.countNode file node = .ok { file with
      strings := file.strings + if tree.isString then 1 else 0
      imports := file.imports + if tree.isImport source then 1 else 0 } := by
  have answered := stands.isImport_ok
  unfold Arena.countNode
  rw [Node.isString, stands.kind, ← Cst.isString, answered]
  by_cases string : tree.isString
  · have other : tree.isImport source = false := by
      rw [Cst.isString, beq_iff_eq] at string
      simp [Cst.isImport, string]
    simp [string, other, pure, Except.pure]
  · by_cases calls : tree.isImport source <;> simp [string, calls, bind, Except.bind, pure, Except.pure]

end Reading

/-- Counting over a run of nodes, each of which counts as some item does. -/
theorem attendAll_tally_of {α : Type} {R : Node → α → Prop} (isString isImport : α → Bool)
    (counts : ∀ node item, R node item → ∀ file, arena.countNode file node = .ok { file with
      strings := file.strings + if isString item then 1 else 0
      imports := file.imports + if isImport item then 1 else 0 })
    {nodes : List Node} {items : List α} (related : List.Forall₂ R nodes items) (table : ParentTable)
    (file : FileRecord) :
    ∃ after, attendAll arena.tally nodes ⟨table, file⟩ = .ok () ⟨after, { file with
      strings := file.strings + items.countP isString
      imports := file.imports + items.countP isImport }⟩ := by
  induction related generalizing table file with
  | nil => exact ⟨table, by simp [attendAll_nil]⟩
  | @cons node item _ rest first _ ih =>
      obtain ⟨after, run⟩ := ih (table.adopt node.index node.children.reverse) { file with
        strings := file.strings + if isString item then 1 else 0
        imports := file.imports + if isImport item then 1 else 0 }
      have count : ∀ p : α → Bool,
          ((item :: rest).countP p : Int) = (if p item then 1 else 0) + rest.countP p := by
        intro p
        rw [List.countP_cons]
        split <;> omega
      refine ⟨after, ?_⟩
      rw [attendAll_cons]
      simp only [tally, counts node item first file, run, count, Int.add_assoc]

theorem attendAll_tally {nodes : List Node} {trees : List Cst}
    (stand : List.Forall₂ (arena.StandsFor source) nodes trees) (table : ParentTable) (file : FileRecord) :
    ∃ after, attendAll arena.tally nodes ⟨table, file⟩ = .ok () ⟨after, { file with
      strings := file.strings + trees.countP Cst.isString
      imports := file.imports + trees.countP (Cst.isImport source) }⟩ :=
  attendAll_tally_of Cst.isString (Cst.isImport source) (fun _ _ stands => stands.countNode_ok) stand table file

end Standing

/-- What a record says about the declaration it is about, its measures apart. -/
structure Describes (source : ByteArray) (fileName : String) (declaration : Cst) (record : FunctionRecord) :
    Prop where
  fileName : record.fileName = fileName
  functionName : record.functionName = declaration.functionName source
  startLine : record.startLine = declaration.head.firstRow + 1
  length : record.length = declaration.head.lastRow - declaration.head.firstRow
  parameters : record.parameters = declaration.parameterCount

theorem Complete.describes {arena : Arena} (complete : arena.Complete) {source : ByteArray} {fileName : String}
    {declaration : Cst} {record : FunctionRecord}
    (records : arena.Records source fileName declaration record) :
    Describes source fileName declaration record := by
  obtain ⟨node, stands, measured⟩ := records
  obtain ⟨cyclomatic, decided⟩ := complete.cyclomatic_ok stands.member
  obtain ⟨conditions, joined⟩ := complete.maxConditions_ok stands.member
  obtain ⟨chains, chained⟩ := complete.maxChains_ok stands.member
  obtain ⟨halstead, spelled⟩ := complete.halstead_ok stands.member
  obtain ⟨depth, nested⟩ := complete.nesting_ok stands.member
  simp only [recordAlone, functionRecord, outline, stands.functionName_ok, stands.parameterCount_ok, decided,
    joined, chained, spelled, nested, bind, Except.bind, pure, Except.pure, Except.ok.injEq] at measured
  subst measured
  exact ⟨rfl, rfl, stands.firstLine, stands.length, rfl⟩

/-- Counting loses and doubles nothing. The counters of a file are the numbers of kept strings and of kept
calls of `require` in its tree, and its records describe its kept declarations one by one, in order. -/
theorem collect_counts (source : ByteArray) (tree : Cst) (hasErrors : Bool) (fileName : String) :
    ∃ collection, (ofCst source tree hasErrors).collect fileName = .ok collection ∧
      collection.file.strings = tree.subtrees.countP Cst.isString ∧
      collection.file.imports = tree.subtrees.countP (Cst.isImport source) ∧
      List.Forall₂ (Describes source fileName) tree.declarations collection.functions := by
  have treelike := ofCst_treelike source tree hasErrors
  obtain ⟨collection, collected, recorded⟩ := collect_records source tree hasErrors fileName
  refine ⟨collection, collected, ?_⟩
  obtain ⟨counted, records, settled, again, _, tallied⟩ := treelike.collect_ok fileName
  have stand := preorder_stands _ treelike.acyclic source tree 0 (unfolds_ofCst source tree hasErrors)
  obtain ⟨after, run⟩ := attendAll_tally stand .empty { fileName }
  have counters := congrArg Walk.state (EStateM.Result.ok.inj (tallied.symm.trans run)).2
  obtain rfl := Except.ok.inj (collected.symm.trans again)
  change counted = _ at counters
  subst counters
  refine ⟨Int.zero_add _, Int.zero_add _, ?_⟩
  exact recorded.imp fun declaration record pair => treelike.describes pair

end Arena

end ScriptMetrics
