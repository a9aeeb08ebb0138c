import ScriptMetrics.Proofs.Likeness
import ScriptMetrics.Proofs.Subtrees

/-!
The record of a function depends on the function alone. Alike nodes have equal measures, since each
measure is put together from steps that lead from alike nodes to alike nodes; so two declarations
that are equal after pruning get equal records, whatever stands around them in their files.
-/

namespace ScriptMetrics

namespace Arena

section Measures

variable {left right : Arena} {l r : Node}

theorem map_alike {α : Type} {ls rs : List Node} (related : List.Forall₂ (left.Alike right) ls rs)
    (f : Node → α) (same : ∀ l r, left.Alike right l r → f l = f r) : ls.map f = rs.map f := by
  have mapped : List.Forall₂ Eq (ls.map f) (rs.map f) :=
    List.rel_map (fun l r alike => same l r alike) related
  rwa [List.forall₂_eq_eq_eq] at mapped

theorem countP_alike {ls rs : List Node} (related : List.Forall₂ (left.Alike right) ls rs)
    (p : Node → Bool) (same : ∀ l r, left.Alike right l r → p l = p r) : ls.countP p = rs.countP p := by
  have mapped := map_alike related p same
  have counted := congrArg (List.countP id) mapped
  simpa [List.countP_map, Function.comp_def] using counted

theorem filter_alike {ls rs : List Node} (related : List.Forall₂ (left.Alike right) ls rs)
    (p : Node → Bool) (same : ∀ l r, left.Alike right l r → p l = p r) :
    List.Forall₂ (left.Alike right) (ls.filter p) (rs.filter p) := by
  refine List.rel_filter ?_ related
  intro l r alike
  exact Bool.eq_iff_iff.mp (same l r alike)

variable (leftTree : left.Treelike) (rightTree : right.Treelike)

include leftTree rightTree

theorem Alike.visits (alike : left.Alike right l r) :
    Agree (List.Forall₂ (left.Alike right)) (left.visits l) (right.visits r) := by
  have kin := Kin.start alike
  have below := kin.preorder leftTree.acyclic rightTree.acyclic alike.leftMember alike.rightMember
  exact ⟨_, _, left.visits_eq_preorder leftTree.toSound l alike.leftMember,
    right.visits_eq_preorder rightTree.toSound r alike.rightMember, below.imp fun _ _ kin => kin.alike⟩

theorem Alike.cyclomatic (alike : left.Alike right l r) :
    Agree Eq (left.cyclomatic l) (right.cyclomatic r) := by
  refine (alike.visits leftTree rightTree).bind fun ls rs related => .pure ?_
  rw [countP_alike related Node.isDecision fun _ _ pair => pair.reads Node.isDecision fun _ => rfl]

theorem Alike.halstead (alike : left.Alike right l r) :
    Agree Eq (left.halstead l) (right.halstead r) := by
  refine (alike.visits leftTree rightTree).bind fun ls rs related => .pure ?_
  have symbols := map_alike related Node.symbol? fun _ _ pair => pair.reads Node.symbol? fun _ => rfl
  have spelled := congrArg (List.filterMap id) symbols
  simp only [List.filterMap_map, Function.id_comp] at spelled
  rw [spelled]

theorem Alike.conditionCount (alike : left.Alike right l r) :
    Agree Eq (left.conditionCount l) (right.conditionCount r) := by
  refine (alike.field? "condition").bind fun test other found => ?_
  cases found with
  | none => exact .pure rfl
  | some tests =>
      refine (tests.visits leftTree rightTree).bind fun ls rs related => .pure ?_
      rw [countP_alike related Node.isLogical fun _ _ pair => pair.reads Node.isLogical fun _ => rfl]

theorem Alike.maxConditions (alike : left.Alike right l r) :
    Agree Eq (left.maxConditions l) (right.maxConditions r) := by
  refine (alike.visits leftTree rightTree).bind fun ls rs related => ?_
  have conditionals := filter_alike related Node.isConditional fun _ _ pair =>
    pair.reads Node.isConditional fun _ => rfl
  refine (Agree.mapM conditionals fun _ _ pair => pair.conditionCount leftTree rightTree).bind ?_
  intro counts others same
  rw [List.forall₂_eq_eq_eq] at same
  exact .pure (by rw [same])

omit leftTree rightTree in
theorem Alike.isChainLink (alike : left.Alike right l r) :
    Agree Eq (left.isChainLink l) (right.isChainLink r) := by
  unfold Arena.isChainLink
  rw [alike.reads (·.kind) fun _ => rfl]
  split
  · exact .pure rfl
  · split
    · refine (alike.field? "index").bind fun index other found => .pure ?_
      cases found with
      | none => rfl
      | some pair => simp only [Option.all_some, pair.reads (·.kind) fun _ => rfl]
    · exact .pure rfl

theorem Alike.chainLength (alike : left.Alike right l r) :
    Agree Eq (left.chainLength l) (right.chainLength r) := by
  refine (alike.visits leftTree rightTree).bind fun ls rs related => ?_
  refine (Agree.mapM related fun _ _ pair => pair.isChainLink).bind fun links others same => .pure ?_
  rw [List.forall₂_eq_eq_eq] at same
  subst same
  -- Of the nodes only where the runs end is read.
  have ends := map_alike related Node.isFunctionExpression fun _ _ pair =>
    pair.reads Node.isFunctionExpression fun _ => rfl
  have fold : ∀ nodes : List Node, (links.zip nodes).foldl
      (fun count pair => count.step pair.1 pair.2.isFunctionExpression) ({} : ChainCount) =
      (links.zip (nodes.map Node.isFunctionExpression)).foldl
        (fun count pair => count.step pair.1 pair.2) {} := by
    intro nodes
    rw [List.zip_map_right, List.foldl_map]
    rfl
  have counted := fold ls
  rw [ends, ← fold rs] at counted
  exact congrArg ChainCount.longest counted

omit leftTree rightTree in
theorem Alike.choice (alike : left.Alike right l r) (chosen : Bool) :
    Option.Rel (left.Alike right) (if chosen then some l else none) (if chosen then some r else none) := by
  cases chosen with
  | false => exact .none
  | true => exact .some alike

omit leftTree rightTree in
theorem Alike.expressionChainRoot? (alike : left.Alike right l r) {e f : Node}
    (expressions : left.Alike right e f) :
    Agree (Option.Rel (left.Alike right)) (left.expressionChainRoot? l e)
      (right.expressionChainRoot? r f) := by
  unfold Arena.expressionChainRoot?
  rw [expressions.reads Node.isCall fun _ => rfl, expressions.reads Node.isMemberAccess fun _ => rfl]
  split
  · refine (expressions.field? "arguments").bind fun list other found => ?_
    cases found with
    | none => exact .pure (.some alike)
    | some lists =>
        simp only [lists.reads (·.kind) fun _ => rfl]
        split
        · refine lists.children.bind fun ls rs related => ?_
          cases related with
          | nil => exact .pure (.some alike)
          | cons first _ =>
              have isFunction := first.reads Node.isFunctionExpression fun _ => rfl
              have isAccess := first.reads Node.isMemberAccess fun _ => rfl
              simp only [isFunction, isAccess]
              exact .pure (first.choice _)
        · exact .pure (.some alike)
  · exact .pure (alike.choice _)

omit leftTree rightTree in
theorem Alike.chainRoot? (alike : left.Alike right l r) :
    Agree (Option.Rel (left.Alike right)) (left.chainRoot? l) (right.chainRoot? r) := by
  unfold Arena.chainRoot?
  rw [alike.reads (·.kind) fun _ => rfl]
  split
  · refine alike.firstChild?.bind fun expression other found => ?_
    cases found with
    | none => exact .pure .none
    | some expressions => exact alike.expressionChainRoot? expressions
  · split
    · refine (alike.field? "value").bind fun value other found => ?_
      cases found with
      | none => exact .pure .none
      | some values =>
          have isCall := values.reads Node.isCall fun _ => rfl
          have isAccess := values.reads Node.isMemberAccess fun _ => rfl
          simp only [isCall, isAccess]
          exact .pure (alike.choice _)
    · exact .pure .none

theorem Alike.maxChains (alike : left.Alike right l r) :
    Agree Eq (left.maxChains l) (right.maxChains r) := by
  refine (alike.visits leftTree rightTree).bind fun ls rs related => ?_
  refine (Agree.mapM related fun _ _ pair => pair.chainRoot?).bind fun roots others found => ?_
  have starts : List.Forall₂ (left.Alike right) (roots.filterMap id) (others.filterMap id) :=
    List.rel_filterMap (fun _ _ root => root) found
  refine (Agree.mapM starts fun _ _ pair => pair.chainLength leftTree rightTree).bind ?_
  intro lengths counts same
  rw [List.forall₂_eq_eq_eq] at same
  exact .pure (by rw [same])

omit leftTree rightTree in
theorem Alike.functionName (alike : left.Alike right l r) :
    Agree Eq (left.functionName l) (right.functionName r) := by
  refine (alike.field? "name").bind fun name other found => .pure ?_
  rw [alike.reads (·.firstLine) fun _ => rfl]
  cases found with
  | none => rfl
  | some names => simp only [Option.bind_some, names.reads (·.text) fun _ => rfl]

omit leftTree rightTree in
theorem Alike.parameterCount (alike : left.Alike right l r) :
    Agree Eq (left.parameterCount l) (right.parameterCount r) := by
  refine (alike.field? "parameters").bind fun list other found => .pure ?_
  cases found with
  | none => rfl
  | some lists => exact lists.childCount

theorem Alike.outline (alike : left.Alike right l r) (fileName : String) :
    Agree Eq (left.outline l fileName) (right.outline r fileName) := by
  refine alike.functionName.bind ?_
  rintro name _ rfl
  refine alike.parameterCount.bind ?_
  rintro parameters _ rfl
  refine (alike.cyclomatic leftTree rightTree).bind ?_
  rintro cyclomatic _ rfl
  refine (alike.maxConditions leftTree rightTree).bind ?_
  rintro conditions _ rfl
  refine (alike.maxChains leftTree rightTree).bind ?_
  rintro chains _ rfl
  refine (alike.halstead leftTree rightTree).bind ?_
  rintro halstead _ rfl
  refine .pure ?_
  rw [alike.reads (·.firstLine) fun _ => rfl, alike.reads Node.length fun _ => rfl]

omit leftTree rightTree in
theorem Alike.nests (alike : left.Alike right l r) : Agree Eq (left.nests l) (right.nests r) := by
  unfold Arena.nests
  rw [alike.reads Node.isDecision fun _ => rfl]
  split
  · refine (alike.field? "alternative").bind fun branch other found => .pure ?_
    cases found <;> rfl
  · exact .pure rfl

omit rightTree in
theorem Treelike.ancestors_eq {top : Node} {chain : List Node} (topMember : top ∈ left.nodes)
    (member : l ∈ left.nodes) (ascent : left.Ascent top l chain) (table : ParentTable) :
    left.ancestors (table.adoptAll (left.preorder leftTree.acyclic top.index)) l top = .ok chain := by
  have below := (ascent.between topMember).1
  have rooted := (left.rooted_adoptAll leftTree.toSound top topMember table _ .top).2 l.index below
  obtain ⟨climbed, found, _, _, _, only⟩ :=
    left.traceable_of_rooted leftTree.acyclic _ top l topMember member rooted
  rw [found, only leftTree.once chain ascent]

theorem Kin.leafDepth {top other : Node} (leftTop : top ∈ left.nodes) (rightTop : other ∈ right.nodes)
    (kin : left.Kin right top other l r) (table second : ParentTable) :
    Agree Eq
      (left.leafDepth (table.adoptAll (left.preorder leftTree.acyclic top.index)) top l)
      (right.leafDepth (second.adoptAll (right.preorder rightTree.acyclic other.index)) other r) := by
  obtain ⟨up, down, leftAscent, rightAscent, related⟩ := kin.lines
  have leftClimb := leftTree.ancestors_eq leftTop kin.alike.leftMember leftAscent table
  have rightClimb := rightTree.ancestors_eq rightTop kin.alike.rightMember rightAscent second
  unfold Arena.leafDepth
  rw [leftClimb, rightClimb]
  refine (Agree.mapM related fun _ _ pair => pair.nests).bind fun levels others same => .pure ?_
  rw [List.forall₂_eq_eq_eq] at same
  rw [same]

theorem Alike.nesting (alike : left.Alike right l r) :
    ∃ depth, ∀ table, left.nesting l table =
        .ok depth (table.adoptAll (left.preorder leftTree.acyclic l.index)) ∧
      right.nesting r table =
        .ok depth (table.adoptAll (right.preorder rightTree.acyclic r.index)) := by
  obtain ⟨depth, leftDepth⟩ := leftTree.nesting_ok alike.leftMember
  obtain ⟨other, rightDepth⟩ := rightTree.nesting_ok alike.rightMember
  have kin := (Kin.start alike).preorder leftTree.acyclic rightTree.acyclic alike.leftMember
    alike.rightMember
  have leaves : List.Forall₂ (left.Kin right l r)
      ((left.preorder leftTree.acyclic l.index).filter Node.isLeaf)
      ((right.preorder rightTree.acyclic r.index).filter Node.isLeaf) := by
    refine List.rel_filter ?_ kin
    intro a b pair
    exact Bool.eq_iff_iff.mp pair.alike.isLeaf
  have depths := Agree.mapM leaves fun _ _ pair =>
    pair.leafDepth leftTree rightTree alike.leftMember alike.rightMember .empty .empty
  -- Both depths are those of a walk that starts with an empty table.
  have first := leftDepth .empty
  have second := rightDepth .empty
  obtain ⟨ls, rs, leftDepths, rightDepths, same⟩ := depths
  rw [List.forall₂_eq_eq_eq] at same
  simp only [Arena.nesting, left.leaves_eq leftTree.toSound l alike.leftMember, leftDepths,
    EStateM.Result.ok.injEq] at first
  simp only [Arena.nesting, right.leaves_eq rightTree.toSound r alike.rightMember, rightDepths,
    EStateM.Result.ok.injEq] at second
  have equal : depth = other := by rw [← first.1, ← second.1, same]
  subst equal
  exact ⟨depth, fun table => ⟨leftDepth table, rightDepth table⟩⟩

/-- Alike functions have the same record. -/
theorem Alike.recordAlone (alike : left.Alike right l r) (fileName : String) :
    Agree Eq (left.recordAlone fileName l) (right.recordAlone fileName r) := by
  obtain ⟨outline, other, leftOutline, rightOutline, rfl⟩ := alike.outline leftTree rightTree fileName
  obtain ⟨depth, nested⟩ := alike.nesting leftTree rightTree
  obtain ⟨leftNested, rightNested⟩ := nested .empty
  refine ⟨{ outline with nesting := depth, frozen := true }, _, ?_, ?_, rfl⟩
  · simp only [Arena.recordAlone, Arena.functionRecord, leftOutline, leftNested]
  · simp only [Arena.recordAlone, Arena.functionRecord, rightOutline, rightNested]

end Measures

/-- A record that a declaration gets in a file, measured at a node that stands for it. -/
def Records (arena : Arena) (source : ByteArray) (fileName : String) (declaration : Cst)
    (record : FunctionRecord) : Prop :=
  ∃ node, arena.StandsFor source node declaration ∧ arena.recordAlone fileName node = .ok record

theorem collect_records (source : ByteArray) (tree : Cst) (hasErrors : Bool) (fileName : String) :
    ∃ collection, (ofCst source tree hasErrors).collect fileName = .ok collection ∧
      List.Forall₂ ((ofCst source tree hasErrors).Records source fileName) tree.declarations
        collection.functions := by
  have treelike := ofCst_treelike source tree hasErrors
  obtain ⟨counted, records, _, collected, alone, _⟩ := treelike.collect_ok fileName
  refine ⟨_, collected, ?_⟩
  have stands := preorder_stands _ treelike.acyclic source tree 0 (unfolds_ofCst source tree hasErrors)
  have declared : List.Forall₂ ((ofCst source tree hasErrors).StandsFor source)
      (((ofCst source tree hasErrors).preorder treelike.acyclic 0).filter Node.isDeclaration)
      tree.declarations := by
    refine List.rel_filter ?_ stands
    intro node part pair
    simp only [Node.isDeclaration, Cst.isDeclaration, pair.kind]
  exact forall₂_join declared.flip (forall₂_of_mapM alone).flip

end Arena

namespace Outline

/-- The same tree, whatever field it fills in its parent. -/
def Matches : Outline → Outline → Prop
  | .node label _ parts, .node other _ others => label = other ∧ parts = others

end Outline

namespace Arena

theorem alike_of_matches {left right : Arena} {leftSource rightSource : ByteArray} {l r : Node} {d e : Cst}
    (leftStands : left.StandsFor leftSource l d) (rightStands : right.StandsFor rightSource r e)
    (same : (d.outline leftSource).Matches (e.outline rightSource)) : left.Alike right l r := by
  refine ⟨leftStands.member, rightStands.member, d.outline leftSource, leftStands.unfolds, ?_⟩
  have unfolds := rightStands.unfolds
  generalize d.outline leftSource = outline at same
  generalize e.outline rightSource = other at same unfolds
  cases outline with
  | node label field parts =>
      cases other with
      | node label' field' parts' =>
          obtain ⟨rfl, rfl⟩ := same
          cases unfolds with
          | node node found labelled indexed below => exact .node node found labelled indexed below

/-- The record of a function depends on its own subtree only. The records of a file are those of its
kept declarations, in order; and wherever two declarations stand in two files, if they are equal after
pruning, the two files have the same record for them. -/
theorem record_of_subtree (fileName : String) (left right : Cst) (leftSource rightSource : ByteArray)
    (leftErrors rightErrors : Bool) (i j : Nat) (d e : Cst)
    (leftDeclared : left.declarations[i]? = some d) (rightDeclared : right.declarations[j]? = some e)
    (same : (d.outline leftSource).Matches (e.outline rightSource)) :
    ∃ leftFile rightFile record,
      (ofCst leftSource left leftErrors).collect fileName = .ok leftFile ∧
      (ofCst rightSource right rightErrors).collect fileName = .ok rightFile ∧
      List.Forall₂ ((ofCst leftSource left leftErrors).Records leftSource fileName)
        left.declarations leftFile.functions ∧
      List.Forall₂ ((ofCst rightSource right rightErrors).Records rightSource fileName)
        right.declarations rightFile.functions ∧
      leftFile.functions[i]? = some record ∧ rightFile.functions[j]? = some record := by
  obtain ⟨leftFile, leftCollected, leftRecords⟩ := collect_records leftSource left leftErrors fileName
  obtain ⟨rightFile, rightCollected, rightRecords⟩ :=
    collect_records rightSource right rightErrors fileName
  obtain ⟨record, leftListed, l, leftStands, leftMeasured⟩ :=
    forall₂_getElem? leftRecords i d leftDeclared
  obtain ⟨other, rightListed, r, rightStands, rightMeasured⟩ :=
    forall₂_getElem? rightRecords j e rightDeclared
  have alike := alike_of_matches leftStands rightStands same
  obtain ⟨common, _, leftCommon, rightCommon, rfl⟩ := alike.recordAlone
    (ofCst_treelike leftSource left leftErrors) (ofCst_treelike rightSource right rightErrors) fileName
  rw [leftCommon] at leftMeasured
  rw [rightCommon] at rightMeasured
  obtain rfl := Except.ok.inj leftMeasured
  obtain rfl := Except.ok.inj rightMeasured
  exact ⟨leftFile, rightFile, common, leftCollected, rightCollected, leftRecords, rightRecords,
    leftListed, rightListed⟩

/-- A declaration of `f` with a decision in it, at some place of its source and with further parts. -/
def declarationOf (start : Nat) (more : List Cst) : Cst :=
  .node { kind := "function_declaration", firstRow := 3, lastRow := 5 }
    (.node { kind := "identifier", start, stop := start + 1, field := some "name" } [] ::
      more ++ [.node { kind := "if_statement", field := some "body" } [.node { kind := "string" } []]])

/-- The declaration alone. -/
def plainFile : Cst :=
  .node { kind := "program" } [declarationOf 0 []]

/-- The declaration inside another one and with tokens and comments of its own. -/
def crowdedFile : Cst :=
  .node { kind := "program" } [
    .node { kind := "string" } [],
    .node { kind := "generator_function_declaration" } [
      .node { kind := "while_statement" } [
        declarationOf 2 [.node { kind := "(", named := false } [], .node { kind := "comment" } [plainFile]]]]]

theorem record_of_moved_subtree :
    ∃ leftFile rightFile record,
      (ofCst ⟨#[0x66]⟩ plainFile false).collect "a.js" = .ok leftFile ∧
      (ofCst ⟨#[0x78, 0x20, 0x66]⟩ crowdedFile true).collect "a.js" = .ok rightFile ∧
      leftFile.functions[0]? = some record ∧ rightFile.functions[1]? = some record := by
  obtain ⟨leftFile, rightFile, record, leftCollected, rightCollected, _, _, leftListed, rightListed⟩ :=
    record_of_subtree "a.js" plainFile crowdedFile ⟨#[0x66]⟩ ⟨#[0x78, 0x20, 0x66]⟩ false true 0 1
      (declarationOf 0 [])
      (declarationOf 2 [.node { kind := "(", named := false } [], .node { kind := "comment" } [plainFile]])
      rfl rfl ⟨rfl, rfl⟩
  exact ⟨leftFile, rightFile, record, leftCollected, rightCollected, leftListed, rightListed⟩

end Arena

end ScriptMetrics
