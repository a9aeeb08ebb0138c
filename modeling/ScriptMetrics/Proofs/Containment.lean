import ScriptMetrics.Proofs.Composition

/-!
An enclosing function is never simpler than a nested one. The pre-order below a node stands in one piece
inside that of every node above it, so there are at least as many decisions, contributions and symbols to
be found from further up. Nesting is counted from the function itself, and a step up can only add the
level of the node that is left behind.
-/

namespace ScriptMetrics

namespace Arena

section Containment

variable {arena : Arena} {upper lower : Nat}

theorem decisions_mono (acyclic : arena.Acyclic) (below : arena.Reaches upper lower) :
    arena.decisions acyclic lower ≤ arena.decisions acyclic upper :=
  (arena.preorder_infix acyclic upper lower below).sublist.countP_le

theorem peak_mono (acyclic : arena.Acyclic) (own : Node → Option Nat) (below : arena.Reaches upper lower) :
    arena.peak acyclic own lower ≤ arena.peak acyclic own upper :=
  largest_mono ((arena.preorder_infix acyclic upper lower below).sublist.filterMap own).subset

theorem vocabulary_mono (acyclic : arena.Acyclic) (below : arena.Reaches upper lower) :
    arena.vocabulary acyclic lower ⊆ arena.vocabulary acyclic upper := by
  have inside := ((arena.preorder_infix acyclic upper lower below).sublist.filterMap Node.symbol?).subset
  intro word spoken
  exact List.mem_toFinset.mpr (inside (List.mem_toFinset.mp spoken))

theorem largest_depth_mono (acyclic : arena.Acyclic) {outer inner : Node} (outerMember : outer ∈ arena.nodes)
    (innerMember : inner ∈ arena.nodes) (below : arena.Reaches outer.index inner.index) :
    largest (inner.children.map (arena.depth acyclic)) ≤ largest (outer.children.map (arena.depth acyclic)) := by
  generalize bottom : inner.index = index at below
  induction below generalizing inner with
  | refl =>
      rw [arena.eq_of_index_eq inner outer innerMember outerMember bottom]
  | tail _ linked ih =>
      obtain ⟨parent, parentMember, same, listed⟩ := linked
      subst bottom
      calc largest (inner.children.map (arena.depth acyclic))
          ≤ arena.depth acyclic inner.index := by
            rw [arena.depth_eq acyclic inner innerMember]
            exact Nat.le_add_left _ _
        _ ≤ largest (parent.children.map (arena.depth acyclic)) := le_largest (List.mem_map_of_mem listed)
        _ ≤ largest (outer.children.map (arena.depth acyclic)) := ih parentMember same

end Containment

/-- An enclosing function is never simpler than a nested one, whatever tables the two nesting walks are
given. -/
theorem measures_mono (arena : Arena) (tree : arena.Treelike) (outer inner : Node)
    (outerMember : outer ∈ arena.nodes) (innerMember : inner ∈ arena.nodes)
    (below : arena.Reaches outer.index inner.index) (table other : ParentTable) :
    Agree (· ≤ ·) (arena.cyclomatic inner) (arena.cyclomatic outer) ∧
      Agree (· ≤ ·) (arena.maxConditions inner) (arena.maxConditions outer) ∧
      Agree (· ≤ ·) (arena.halstead inner) (arena.halstead outer) ∧
      Agree (· ≤ ·) (arena.maxChains inner) (arena.maxChains outer) ∧
      ∃ small large after last, arena.nesting inner table = .ok small after ∧
        arena.nesting outer other = .ok large last ∧ small ≤ large := by
  have acyclic := tree.acyclic
  refine ⟨⟨_, _, tree.cyclomatic_eq innerMember, tree.cyclomatic_eq outerMember, ?_⟩,
    ⟨_, _, tree.maxConditions_eq innerMember, tree.maxConditions_eq outerMember, peak_mono acyclic _ below⟩,
    ⟨_, _, tree.halstead_eq innerMember, tree.halstead_eq outerMember, ?_⟩,
    ⟨_, _, tree.maxChains_eq innerMember, tree.maxChains_eq outerMember, peak_mono acyclic _ below⟩,
    _, _, _, _, tree.nesting_eq innerMember table, tree.nesting_eq outerMember other,
    largest_depth_mono acyclic outerMember innerMember below⟩
  · exact Nat.add_le_add_left (decisions_mono acyclic below) 1
  · have fewer := Finset.card_le_card (vocabulary_mono acyclic below)
    omega

/-- A declaration with a decision inside the decision of another declaration. -/
def enclosing : Arena where
  items := #[
    { kind := "function_declaration", children := [1, 2], fields := [("name", [1])] },
    { kind := "identifier", text := some "outer" },
    { kind := "if_statement", children := [3, 6], fields := [("condition", [3])] },
    { kind := "binary_expression", children := [4, 5], operator := some "||" },
    { kind := "identifier", text := some "early" },
    { kind := "identifier", text := some "late" },
    { kind := "function_declaration", children := [7, 8], fields := [("name", [7])] },
    { kind := "identifier", text := some "inner" },
    { kind := "while_statement", children := [9] },
    { kind := "return_statement", children := [10] },
    { kind := "member_expression", children := [11, 12] },
    { kind := "this" },
    { kind := "property_identifier", text := some "late" }]
  hasRoot := by decide

theorem enclosing_treelike : enclosing.Treelike where
  inside := by decide
  acyclic := enclosing.acyclic_of_forward (by decide)
  fieldsInside := by decide
  once := by
    intro index
    have counted : enclosing.listings index = [1, 2, 3, 6, 4, 5, 7, 8, 9, 10, 11, 12].count index := rfl
    rw [counted]
    exact List.nodup_iff_count.mp (by decide) index

theorem enclosing_mono :
    let inner := enclosing.nodes.getD 6 enclosing.root
    inner.isDeclaration ∧ enclosing.Reaches 0 inner.index ∧
      Agree (· ≤ ·) (enclosing.cyclomatic inner) (enclosing.cyclomatic enclosing.root) ∧
      Agree (· ≤ ·) (enclosing.maxConditions inner) (enclosing.maxConditions enclosing.root) ∧
      Agree (· ≤ ·) (enclosing.halstead inner) (enclosing.halstead enclosing.root) ∧
      Agree (· ≤ ·) (enclosing.maxChains inner) (enclosing.maxChains enclosing.root) ∧
      ∃ small large after last, enclosing.nesting inner astray = .ok small after ∧
        enclosing.nesting enclosing.root .empty = .ok large last ∧ small ≤ large := by
  intro inner
  have member : inner ∈ enclosing.nodes := by decide
  have decision : enclosing.Links 0 2 := ⟨enclosing.root, by decide, rfl, by decide⟩
  have body : enclosing.Links 2 6 := ⟨enclosing.nodes.getD 2 enclosing.root, by decide, rfl, by decide⟩
  have below : enclosing.Reaches 0 inner.index := .head decision (.single body)
  exact ⟨by decide, below, measures_mono enclosing enclosing_treelike enclosing.root inner enclosing.root_mem
    member below astray .empty⟩

end Arena

end ScriptMetrics
