import Mathlib.Order.Bounds.Basic
import ScriptMetrics.Proofs.Enclosure

/-!
Message chains as segments. While the nodes of a statement are visited, the running count is the most
links that a segment ending at the last node can hold without a function expression in it, and the
longest count is the most that any such segment holds so far. Every step keeps both, so that the length
of a chain is a maximum over all segments of the visits.
-/

namespace ScriptMetrics

namespace Arena

/-- Accessing a member, unless the member is given by a literal index. -/
def isLink (arena : Arena) (node : Node) : Bool :=
  node.kind == "member_expression" ||
    node.kind == "subscript_expression" && (arena.part? node "index").all (!Kind.literals.contains ·.kind)

theorem Complete.isChainLink_eq {arena : Arena} (complete : arena.Complete) {node : Node}
    (member : node ∈ arena.nodes) : arena.isChainLink node = .ok (arena.isLink node) := by
  unfold isChainLink isLink
  rw [complete.field?_eq member]
  by_cases named : node.kind == "member_expression"
  · simp [named, pure, Except.pure]
  · by_cases indexed : node.kind == "subscript_expression" <;>
      simp [named, indexed, bind, Except.bind, pure, Except.pure]

-- No kind is both, so a step never has to choose between counting and starting anew.
theorem isLink_of_functionExpression (arena : Arena) {node : Node} (breaks : node.isFunctionExpression = true) :
    arena.isLink node = false := by
  simp only [Node.isFunctionExpression, Kind.functionExpressions, List.contains_iff_mem, List.mem_cons,
    List.not_mem_nil, or_false] at breaks
  rcases breaks with kind | kind | kind <;> simp [isLink, kind]

/-- How many links each of the segments holds that no function expression breaks. -/
def linksWithin (arena : Arena) (segments : List Node → Prop) : Set Nat :=
  {links | ∃ segment, segments segment ∧ (∀ node ∈ segment, node.isFunctionExpression = false) ∧
    segment.countP arena.isLink = links}

section Steps

variable {arena : Arena} {seen : List Node} {node : Node}

theorem ending_broken (breaks : node.isFunctionExpression = true) :
    IsGreatest (arena.linksWithin (· <:+ seen ++ [node])) 0 := by
  constructor
  · exact ⟨[], List.nil_suffix, by simp, rfl⟩
  · rintro links ⟨segment, ends, unbroken, rfl⟩
    rcases List.suffix_concat_iff.mp ends with rfl | ⟨front, rfl, _⟩
    · exact Nat.le_refl 0
    · have whole := unbroken node (by simp)
      rw [breaks] at whole
      cases whole

theorem ending_extended {running : Nat} (whole : node.isFunctionExpression = false)
    (greatest : IsGreatest (arena.linksWithin (· <:+ seen)) running) :
    IsGreatest (arena.linksWithin (· <:+ seen ++ [node])) (running + if arena.isLink node then 1 else 0) := by
  have counted : ∀ front : List Node, (front ++ [node]).countP arena.isLink =
      front.countP arena.isLink + if arena.isLink node then 1 else 0 := by
    intro front
    simp [List.countP_append, List.countP_singleton]
  obtain ⟨⟨front, ends, unbroken, held⟩, most⟩ := greatest
  constructor
  · refine ⟨front ++ [node], List.suffix_concat_iff.mpr (Or.inr ⟨front, rfl, ends⟩), ?_, ?_⟩
    · intro other listed
      rcases List.mem_append.mp listed with before | here
      · exact unbroken other before
      · rwa [List.mem_singleton.mp here]
    · rw [counted, held]
  · rintro links ⟨segment, others, clear, rfl⟩
    rcases List.suffix_concat_iff.mp others with rfl | ⟨earlier, rfl, within⟩
    · exact Nat.zero_le _
    · rw [counted]
      apply Nat.add_le_add_right
      exact most ⟨earlier, within, fun other listed => clear other (List.mem_append_left _ listed), rfl⟩

theorem linksWithin_concat :
    arena.linksWithin (· <:+: seen ++ [node]) =
      arena.linksWithin (· <:+: seen) ∪ arena.linksWithin (· <:+ seen ++ [node]) := by
  ext links
  constructor
  · rintro ⟨segment, inside, rest⟩
    rcases List.infix_concat_iff.mp inside with ends | earlier
    · exact Or.inr ⟨segment, ends, rest⟩
    · exact Or.inl ⟨segment, earlier, rest⟩
  · rintro (⟨segment, earlier, rest⟩ | ⟨segment, ends, rest⟩)
    · exact ⟨segment, List.infix_concat_iff.mpr (Or.inr earlier), rest⟩
    · exact ⟨segment, List.infix_concat_iff.mpr (Or.inl ends), rest⟩

end Steps

/-- A count that is right for the nodes seen so far. -/
structure Tracks (arena : Arena) (seen : List Node) (count : ChainCount) : Prop where
  running : IsGreatest (arena.linksWithin (· <:+ seen)) count.running
  longest : IsGreatest (arena.linksWithin (· <:+: seen)) count.longest

theorem tracks_nil (arena : Arena) : arena.Tracks [] {} := by
  have only : ∀ segments : List Node → Prop, segments [] → (∀ segment, segments segment → segment = []) →
      IsGreatest (arena.linksWithin segments) 0 := by
    intro segments empty single
    refine ⟨⟨[], empty, by simp, rfl⟩, ?_⟩
    rintro links ⟨segment, listed, _, rfl⟩
    simp [single segment listed]
  exact ⟨only _ List.nil_suffix fun _ => List.suffix_nil.mp, only _ List.nil_infix fun _ => List.infix_nil.mp⟩

theorem Tracks.step {arena : Arena} {seen : List Node} {count : ChainCount} (tracks : arena.Tracks seen count)
    (node : Node) :
    arena.Tracks (seen ++ [node]) (count.step (arena.isLink node) node.isFunctionExpression) := by
  have running : IsGreatest (arena.linksWithin (· <:+ seen ++ [node]))
      (count.step (arena.isLink node) node.isFunctionExpression).running := by
    cases breaks : node.isFunctionExpression with
    | true =>
        simpa [ChainCount.step, arena.isLink_of_functionExpression breaks] using ending_broken breaks
    | false =>
        have extended := ending_extended breaks tracks.running
        cases link : arena.isLink node <;> simpa [ChainCount.step, link] using extended
  refine ⟨running, ?_⟩
  rw [linksWithin_concat]
  exact tracks.longest.union running

theorem Tracks.run {arena : Arena} {seen : List Node} {count : ChainCount} (tracks : arena.Tracks seen count)
    (nodes : List Node) :
    arena.Tracks (seen ++ nodes)
      (nodes.foldl (fun count node => count.step (arena.isLink node) node.isFunctionExpression) count) := by
  induction nodes generalizing seen count with
  | nil => simpa using tracks
  | cons node rest ih => simpa using ih (tracks.step node)

/-- The longest chain of the walk from a position. -/
def chain (arena : Arena) (acyclic : arena.Acyclic) (index : Nat) : Nat :=
  ((arena.preorder acyclic index).foldl
    (fun count node => count.step (arena.isLink node) node.isFunctionExpression) ({} : ChainCount)).longest

theorem Complete.chainLength_eq {arena : Arena} (complete : arena.Complete) {start : Node}
    (member : start ∈ arena.nodes) : arena.chainLength start = .ok (arena.chain complete.acyclic start.index) := by
  have linked : (arena.preorder complete.acyclic start.index).mapM arena.isChainLink =
      .ok ((arena.preorder complete.acyclic start.index).map arena.isLink) :=
    mapM_eq_map fun node visited =>
      complete.isChainLink_eq ((arena.mem_preorder complete.acyclic _ node).mp visited).1
  unfold chainLength chain
  rw [arena.visits_eq_preorder complete.toSound start member]
  simp only [linked, bind, Except.bind, pure, Except.pure]
  rw [← List.map_prod_right_eq_zip, List.foldl_map]

/-- The length of a chain is the largest number of links in a segment of the visits without a function
expression in it. -/
theorem chainLength_isGreatest (arena : Arena) (complete : arena.Complete) (start : Node)
    (member : start ∈ arena.nodes) :
    ∃ order length, arena.visits start = .ok order ∧ order = arena.preorder complete.acyclic start.index ∧
      arena.chainLength start = .ok length ∧
      IsGreatest {links | ∃ segment, segment <:+: order ∧
        (∀ node ∈ segment, node.isFunctionExpression = false) ∧ segment.countP arena.isLink = links} length := by
  have tracks := arena.tracks_nil.run (arena.preorder complete.acyclic start.index)
  exact ⟨_, _, arena.visits_eq_preorder complete.toSound start member, rfl, complete.chainLength_eq member,
    tracks.longest⟩

/-- Two links before a function expression, an access by a literal among them; then three more, two of
them from a body that is listed twice and one from behind the function expression. -/
def resumed : Arena where
  items := #[
    { kind := "expression_statement", children := [1] },
    { kind := "member_expression", children := [2, 7] },
    { kind := "call_expression", children := [3, 6] },
    { kind := "subscript_expression", children := [4, 5], fields := [("index", [5])] },
    { kind := "member_expression" },
    { kind := "number" },
    { kind := "function_expression", children := [8, 8] },
    { kind := "member_expression" },
    { kind := "subscript_expression", fields := [("index", [])] }]
  hasRoot := by decide

theorem resumed_complete : resumed.Complete where
  inside := by decide
  acyclic := resumed.acyclic_of_forward (by decide)
  fieldsInside := by decide

theorem resumed_isGreatest :
    resumed.chainLength resumed.root = .ok 3 ∧
      IsGreatest {links | ∃ segment, segment <:+: resumed.preorder resumed_complete.acyclic 0 ∧
        (∀ node ∈ segment, node.isFunctionExpression = false) ∧ segment.countP resumed.isLink = links} 3 := by
  obtain ⟨order, length, _, rfl, measured, greatest⟩ :=
    chainLength_isGreatest resumed resumed_complete resumed.root resumed.root_mem
  have three : resumed.chainLength resumed.root = .ok 3 := by decide +kernel
  rw [three] at measured
  cases measured
  exact ⟨three, greatest⟩

end Arena

end ScriptMetrics
