import ScriptMetrics.Proofs.Bench
import ScriptMetrics.Proofs.Locality

/-!
Comments and tokens never matter. Further tokens and comments may be put among the parts of any node of
a concrete tree, as often as one likes and with anything below them. Unless one of them claims to be an
operator, the tree without what an arena drops stays the same, and so does the report.
-/

namespace ScriptMetrics

/-- What a node keeps when its tree is padded: everything but the bytes that it covers, and its text
where an arena keeps that. -/
structure CstHead.Kept (source other : ByteArray) (head changed : CstHead) : Prop where
  kind : head.kind = changed.kind
  firstRow : head.firstRow = changed.firstRow
  lastRow : head.lastRow = changed.lastRow
  named : head.named = changed.named
  field : head.field = changed.field
  text : Cst.texts.contains head.kind →
    Cst.slice source head.start head.stop = Cst.slice other changed.start changed.stop

namespace Cst

/-- A token or a comment that is no operator, with anything below it. -/
def IsPadding (extra : Cst) : Prop :=
  (extra.head.named = false ∨ extra.head.kind ∈ comments) ∧ extra.head.field ≠ some "operator"

mutual

inductive Padded (source other : ByteArray) : Cst → Cst → Prop where
  | node {head changed : CstHead} {kids more : List Cst} (kept : head.Kept source other changed)
      (below : PaddedRow source other kids more) : Padded source other (node head kids) (node changed more)

inductive PaddedRow (source other : ByteArray) : List Cst → List Cst → Prop where
  | nil : PaddedRow source other [] []
  | keep {kid changed : Cst} {rest more : List Cst} (first : Padded source other kid changed)
      (others : PaddedRow source other rest more) :
      PaddedRow source other (kid :: rest) (changed :: more)
  | insert {kids more : List Cst} (extra : Cst) (padding : extra.IsPadding)
      (others : PaddedRow source other kids more) : PaddedRow source other kids (extra :: more)

end

section Padded

variable {source other : ByteArray}

theorem Padded.head_kept {tree padded : Cst} (pads : Padded source other tree padded) :
    tree.head.Kept source other padded.head := by
  cases pads with
  | node kept _ => exact kept

theorem Padded.isKept {tree padded : Cst} (pads : Padded source other tree padded) :
    tree.isKept = padded.isKept := by
  have kept := pads.head_kept
  rw [Cst.isKept, Cst.isKept, kept.named, kept.kind]

theorem IsPadding.dropped {extra : Cst} (padding : extra.IsPadding) : extra.isKept = false := by
  rcases padding.1 with token | comment
  · simp [Cst.isKept, token]
  · simp [Cst.isKept, comment]

-- Padding is passed over by the search for the operator, which the kept parts answer as before.
theorem PaddedRow.operator : ∀ {kids more : List Cst}, PaddedRow source other kids more →
    (kids.find? (·.head.field == some "operator")).map (·.head.kind) =
      (more.find? (·.head.field == some "operator")).map (·.head.kind)
  | _, _, .nil => rfl
  | _, _, .keep first others => by
      have kept := first.head_kept
      rw [List.find?_cons, List.find?_cons, kept.field]
      split
      · simp only [Option.map_some, kept.kind]
      · exact others.operator
  | _, _, .insert extra padding others => by
      have plain : (extra.head.field == some "operator") = false := beq_eq_false_iff_ne.mpr padding.2
      rw [List.find?_cons, plain]
      exact others.operator

theorem label_padded {head changed : CstHead} {kids more : List Cst} (kept : head.Kept source other changed)
    (below : PaddedRow source other kids more) :
    label source (node head kids) = label other (node changed more) := by
  have operator : (node head kids).operator? = (node changed more).operator? := below.operator
  rw [label, label, Label.mk.injEq]
  refine ⟨kept.kind, congrArg (· + 1) kept.firstRow, congrArg (· + 1) kept.lastRow, ?_, ?_⟩
  · show (if texts.contains head.kind then some (slice source head.start head.stop) else none) =
      if texts.contains changed.kind then some (slice other changed.start changed.stop) else none
    rw [← kept.kind]
    by_cases listed : texts.contains head.kind
    · rw [if_pos listed, if_pos listed, kept.text listed]
    · rw [if_neg listed, if_neg listed]
  · show (if operators.contains head.kind then (node head kids).operator? else none) =
      if operators.contains changed.kind then (node changed more).operator? else none
    rw [operator, kept.kind]

mutual

/-- Padding is gone from the outline. -/
theorem Padded.outline_eq : ∀ {tree padded : Cst}, Padded source other tree padded →
    tree.outline source = padded.outline other
  | _, _, .node kept below => by
      rw [outline, outline, label_padded kept below, kept.field, below.outlines_eq]

theorem PaddedRow.outlines_eq : ∀ {kids more : List Cst}, PaddedRow source other kids more →
    outlines source kids = outlines other more
  | _, _, .nil => by rw [outlines, outlines]
  | _, _, .keep first others => by
      rw [outlines, outlines, first.isKept, first.outline_eq, others.outlines_eq]
  | _, _, .insert extra padding others => by
      rw [others.outlines_eq, outlines.eq_2, padding.dropped]
      rfl

end

end Padded

end Cst

namespace Arena

section Counting

variable {left right : Arena} {l r : Node}

theorem Alike.isImport (alike : left.Alike right l r) : Agree Eq (left.isImport l) (right.isImport r) := by
  unfold Arena.isImport
  rw [alike.reads Node.isCall fun _ => rfl]
  split
  · refine (alike.field? "function").bind fun callee other found => .pure ?_
    cases found with
    | none => rfl
    | some callees =>
        simp only [Option.any_some, callees.reads (·.kind) fun _ => rfl, callees.reads (·.text) fun _ => rfl]
  · exact .pure rfl

theorem Alike.countNode (alike : left.Alike right l r) (file : FileRecord) :
    Agree Eq (left.countNode file l) (right.countNode file r) := by
  unfold Arena.countNode
  rw [alike.reads Node.isString fun _ => rfl]
  split
  · exact .pure rfl
  · refine alike.isImport.bind ?_
    rintro answer _ rfl
    split <;> exact .pure rfl

theorem attendAll_tally_alike {ls rs : List Node} (related : List.Forall₂ (left.Alike right) ls rs)
    (file : FileRecord) (table other : ParentTable) :
    ∃ counted after later, attendAll left.tally ls ⟨table, file⟩ = .ok () ⟨after, counted⟩ ∧
      attendAll right.tally rs ⟨other, file⟩ = .ok () ⟨later, counted⟩ := by
  induction related generalizing file table other with
  | nil => exact ⟨file, table, other, rfl, rfl⟩
  | @cons l r _ _ first _ ih =>
      obtain ⟨counted, _, leftCounts, rightCounts, rfl⟩ := first.countNode file
      obtain ⟨total, after, later, leftRun, rightRun⟩ :=
        ih counted (table.adopt l.index l.children.reverse) (other.adopt r.index r.children.reverse)
      refine ⟨total, after, later, ?_, ?_⟩
      · rw [attendAll_cons]
        simp only [tally, leftCounts]
        exact leftRun
      · rw [attendAll_cons]
        simp only [tally, rightCounts]
        exact rightRun

/-- Arenas with alike roots have the same records. -/
theorem collect_alike (leftTree : left.Treelike) (rightTree : right.Treelike)
    (roots : left.Alike right left.root right.root) (fileName : String) :
    ∃ collection, left.collect fileName = .ok collection ∧ right.collect fileName = .ok collection := by
  obtain ⟨counted, records, _, leftCollected, leftAlone, leftTally⟩ := leftTree.collect_ok fileName
  obtain ⟨others, functions, _, rightCollected, rightAlone, rightTally⟩ := rightTree.collect_ok fileName
  have kin := (Kin.start roots).preorder leftTree.acyclic rightTree.acyclic left.root_mem right.root_mem
  have related := kin.imp fun _ _ pair => pair.alike
  have declared := filter_alike related Node.isDeclaration fun _ _ pair =>
    pair.reads Node.isDeclaration fun _ => rfl
  have measured := Agree.mapM declared fun _ _ pair => pair.recordAlone leftTree rightTree fileName
  rw [List.forall₂_eq_eq_eq] at measured
  have sameRecords := Except.ok.inj (leftAlone.symm.trans (measured.eq.trans rightAlone))
  obtain ⟨total, after, later, leftRun, rightRun⟩ :=
    attendAll_tally_alike related { fileName } .empty .empty
  obtain ⟨_, leftTotal⟩ := EStateM.Result.ok.inj (leftTally.symm.trans leftRun)
  obtain ⟨_, rightTotal⟩ := EStateM.Result.ok.inj (rightTally.symm.trans rightRun)
  have sameCounts : counted = others :=
    (congrArg Walk.state leftTotal).trans (congrArg Walk.state rightTotal).symm
  refine ⟨_, leftCollected, ?_⟩
  rw [rightCollected, sameRecords, sameCounts]

end Counting

theorem collect_padded {source other : ByteArray} {tree padded : Cst}
    (pads : Cst.Padded source other tree padded) (errors recovered : Bool) (fileName : String) :
    ∃ collection, (ofCst source tree errors).collect fileName = .ok collection ∧
      (ofCst other padded recovered).collect fileName = .ok collection := by
  have leftUnfolds := unfolds_ofCst source tree errors
  have rightUnfolds := unfolds_ofCst other padded recovered
  rw [← pads.outline_eq] at rightUnfolds
  exact collect_alike (ofCst_treelike source tree errors) (ofCst_treelike other padded recovered)
    ⟨root_mem _, root_mem _, _, leftUnfolds, rightUnfolds⟩ fileName

end Arena

namespace Workbench

theorem analyzeSource_ok (grammar : Grammar) (source path : String) (bench ready : Workbench)
    (loaded : load bench = .ok () ready) (collection : Collection)
    (collected : (Arena.ofCst source.toUTF8 (grammar ready.parsed.size source).tree
      (grammar ready.parsed.size source).hasErrors).collect path = .ok collection) :
    ∃ after, analyzeSource grammar source path bench = .ok (.ofCollection collection) after := by
  obtain ⟨parsed, parse, _⟩ := parseSource_ok grammar source path bench ready loaded
  obtain ⟨after, measure, _⟩ := analyzeArena_ok _ path collection collected parsed
  exact ⟨after, (bind_ok parse).trans measure⟩

/-- Wherever a text of the given bytes is parsed into the given tree, it is reported like this. -/
def Reports (source : ByteArray) (parsed : Parsed) (path : String) (report : FileReport) : Prop :=
  ∀ (text : String) (parser : String → Parsed) (bench ready : Workbench), text.toUTF8 = source →
    parser text = parsed → load bench = .ok () ready →
      ∃ after, analyzeSource (fun _ => parser) text path bench = .ok report after

theorem reports_collection (source : ByteArray) (parsed : Parsed) (path : String) (collection : Collection)
    (collected : (Arena.ofCst source parsed.tree parsed.hasErrors).collect path = .ok collection) :
    Reports source parsed path (.ofCollection collection) := by
  rintro text parser bench ready rfl rfl loaded
  exact analyzeSource_ok (fun _ => parser) text path bench ready loaded collection collected

/-- Comments and tokens never matter. A tree and the same tree with comments and tokens put in
anywhere give the same counters and the same records in the same order, and hence the same report. -/
theorem report_of_padded (source other : ByteArray) (tree padded : Cst)
    (pads : Cst.Padded source other tree padded) (errors recovered : Bool) (path : String) :
    ∃ collection, (Arena.ofCst source tree errors).collect path = .ok collection ∧
      (Arena.ofCst other padded recovered).collect path = .ok collection ∧
      Reports source ⟨tree, errors⟩ path (.ofCollection collection) ∧
      Reports other ⟨padded, recovered⟩ path (.ofCollection collection) := by
  obtain ⟨collection, collected, recollected⟩ := Arena.collect_padded pads errors recovered path
  exact ⟨collection, collected, recollected,
    reports_collection source ⟨tree, errors⟩ path collection collected,
    reports_collection other ⟨padded, recovered⟩ path collection recollected⟩

end Workbench

namespace Cst

/-- A function that calls another with a member of something. -/
def bareCall (start : Nat) (before within after : List Cst) : Cst :=
  .node { kind := "program" } (before ++ [
    .node { kind := "function_declaration" } [
      .node { kind := "identifier", start, stop := start + 1, field := some "name" } [],
      .node { kind := "expression_statement" } (within ++ [
        .node { kind := "call_expression" } [
          .node { kind := "arguments", field := some "arguments" }
            (after ++ [.node { kind := "member_expression" } []])]])]])

def comment (below : List Cst) : Cst :=
  .node { kind := "comment" } below

def token (below : List Cst) : Cst :=
  .node { kind := "(", named := false, field := some "function" } below

theorem comment_padding (below : List Cst) : (comment below).IsPadding := by
  simp [comment, IsPadding, Cst.head, Cst.comments]

theorem token_padding (below : List Cst) : (token below).IsPadding := by
  simp [token, IsPadding, Cst.head]

theorem kept_textless (source other : ByteArray) {head : CstHead} (textless : texts.contains head.kind = false) :
    head.Kept source other head := by
  refine ⟨rfl, rfl, rfl, rfl, rfl, ?_⟩
  intro listed
  rw [textless] at listed
  cases listed

theorem bareCall_padded :
    Padded ⟨#[0x66]⟩ ⟨#[0x2f, 0x2a, 0x2a, 0x2f, 0x66]⟩ (bareCall 0 [] [] [])
      (bareCall 4 [comment [bareCall 0 [] [] []]] [comment [], token []] [token [comment []]]) := by
  have textless {head : CstHead} := @kept_textless ⟨#[0x66]⟩ ⟨#[0x2f, 0x2a, 0x2a, 0x2f, 0x66]⟩ head
  refine .node (textless rfl) (.insert _ (comment_padding _) (.keep ?_ .nil))
  refine .node (textless rfl) (.keep ?_ (.keep ?_ .nil))
  · exact .node ⟨rfl, rfl, rfl, rfl, rfl, fun _ => rfl⟩ .nil
  · refine .node (textless rfl) (.insert _ (comment_padding _) (.insert _ (token_padding _) (.keep ?_ .nil)))
    refine .node (textless rfl) (.keep ?_ .nil)
    refine .node (textless rfl) (.insert _ (token_padding _) (.keep ?_ .nil))
    exact .node (textless rfl) .nil

end Cst

namespace Workbench

theorem report_of_padded_call :
    ∃ collection, (Arena.ofCst ⟨#[0x66]⟩ (Cst.bareCall 0 [] [] []) false).collect "a.js" = .ok collection ∧
      (Arena.ofCst ⟨#[0x2f, 0x2a, 0x2a, 0x2f, 0x66]⟩
        (Cst.bareCall 4 [.comment [.bareCall 0 [] [] []]] [.comment [], .token []] [.token [.comment []]])
        true).collect "a.js" = .ok collection := by
  obtain ⟨collection, collected, recollected, _⟩ :=
    report_of_padded _ _ _ _ Cst.bareCall_padded false true "a.js"
  exact ⟨collection, collected, recollected⟩

end Workbench

end ScriptMetrics
