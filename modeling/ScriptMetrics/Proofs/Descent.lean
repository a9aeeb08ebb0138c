import Mathlib.Data.Finset.Card
import Mathlib.Data.Finset.Range
import Mathlib.Data.List.Flatten
import Mathlib.Data.List.Nodup
import Mathlib.Logic.Relation
import ScriptMetrics.Syntax.Arena

/-!
Descent along the links of an arena. Where no node is its own descendant, the nodes below a position
can be listed in pre-order by recursion; a child that several parents share is listed below each of
them. Every step down leaves fewer positions within reach, which bounds all descents by the size of
the arena.
-/

namespace ScriptMetrics

namespace Arena

def Links (arena : Arena) (parent child : Nat) : Prop :=
  ∃ node ∈ arena.nodes, node.index = parent ∧ child ∈ node.children

/-- A position is reached from itself and from whatever reaches one of its parents. -/
abbrev Reaches (arena : Arena) : Nat → Nat → Prop :=
  Relation.ReflTransGen arena.Links

/-- No node is its own descendant. -/
def Acyclic (arena : Arena) : Prop :=
  ∀ index, ¬ Relation.TransGen arena.Links index index

/-- Children lie inside the arena, and no node is its own descendant. Children may be shared. -/
structure Sound (arena : Arena) : Prop where
  inside : ∀ node ∈ arena.nodes, ∀ child ∈ node.children, child < arena.size
  acyclic : arena.Acyclic

theorem exists_node (arena : Arena) (index : Nat) (inside : index < arena.size) :
    ∃ node ∈ arena.nodes, node.index = index := by
  cases found : arena.node? index with
  | none => exact absurd ((arena.node?_eq_none index).mp found) (by omega)
  | some node =>
      have same := arena.index_of_node? index node found
      subst same
      exact ⟨node, (arena.mem_nodes node).mpr found, rfl⟩

theorem index_lt_size (arena : Arena) (node : Node) (member : node ∈ arena.nodes) :
    node.index < arena.size := by
  by_contra outside
  have missing := (arena.node?_eq_none node.index).mpr (by omega)
  rw [(arena.mem_nodes node).mp member] at missing
  cases missing

theorem eq_of_index_eq (arena : Arena) (left right : Node) (leftMember : left ∈ arena.nodes)
    (rightMember : right ∈ arena.nodes) (same : left.index = right.index) : left = right := by
  rw [mem_nodes] at leftMember rightMember
  rw [same, rightMember] at leftMember
  exact (Option.some.inj leftMember).symm

theorem links_iff (arena : Arena) (node : Node) (member : node ∈ arena.nodes) (child : Nat) :
    arena.Links node.index child ↔ child ∈ node.children := by
  constructor
  · rintro ⟨other, otherMember, same, listed⟩
    rwa [← arena.eq_of_index_eq other node otherMember member same]
  · intro listed
    exact ⟨node, member, rfl, listed⟩

theorem Sound.links_inside {arena : Arena} (sound : arena.Sound) {parent child : Nat}
    (linked : arena.Links parent child) : child < arena.size := by
  obtain ⟨node, member, _, listed⟩ := linked
  exact sound.inside node member child listed

theorem acyclic_of_forward (arena : Arena)
    (forward : ∀ node ∈ arena.nodes, ∀ child ∈ node.children, node.index < child) : arena.Acyclic := by
  have ascends : ∀ parent child, Relation.TransGen arena.Links parent child → parent < child := by
    intro parent child below
    induction below with
    | single linked =>
        obtain ⟨node, member, rfl, listed⟩ := linked
        exact forward node member _ listed
    | tail _ linked ih =>
        obtain ⟨node, member, rfl, listed⟩ := linked
        exact Nat.lt_trans ih (forward node member _ listed)
  intro index cycle
  exact Nat.lt_irrefl index (ascends index index cycle)

open Classical in
/-- The positions inside the arena that are reached from a position. -/
noncomputable def reach (arena : Arena) (index : Nat) : Finset Nat :=
  (Finset.range arena.size).filter fun other => arena.Reaches index other

theorem mem_reach (arena : Arena) (index other : Nat) :
    other ∈ arena.reach index ↔ other < arena.size ∧ arena.Reaches index other := by
  simp [reach]

theorem card_reach_le (arena : Arena) (index : Nat) : (arena.reach index).card ≤ arena.size := by
  have bound : arena.reach index ⊆ Finset.range arena.size := by
    intro other reached
    exact Finset.mem_range.mpr ((arena.mem_reach index other).mp reached).1
  simpa using Finset.card_le_card bound

theorem card_reach_pos (arena : Arena) (node : Node) (member : node ∈ arena.nodes) :
    0 < (arena.reach node.index).card :=
  Finset.card_pos.mpr
    ⟨node.index, (arena.mem_reach _ _).mpr ⟨arena.index_lt_size node member, .refl⟩⟩

theorem card_reach_lt (arena : Arena) (acyclic : arena.Acyclic) (parent child : Nat)
    (linked : arena.Links parent child) : (arena.reach child).card < (arena.reach parent).card := by
  apply Finset.card_lt_card
  rw [Finset.ssubset_iff_of_subset]
  · have inside : parent < arena.size := by
      obtain ⟨node, member, rfl, _⟩ := linked
      exact arena.index_lt_size node member
    -- The parent is within its own reach and left behind for good by the step down.
    refine ⟨parent, (arena.mem_reach parent parent).mpr ⟨inside, .refl⟩, ?_⟩
    intro back
    exact acyclic parent (.head' linked ((arena.mem_reach child parent).mp back).2)
  · intro index reached
    obtain ⟨inside, below⟩ := (arena.mem_reach child index).mp reached
    exact (arena.mem_reach parent index).mpr ⟨inside, .head linked below⟩

/-- Induction from the children of a position to the position itself. -/
@[elab_as_elim]
theorem Acyclic.descent {arena : Arena} (acyclic : arena.Acyclic) {motive : Nat → Prop}
    (step : ∀ parent, (∀ child, arena.Links parent child → motive child) → motive parent)
    (index : Nat) : motive index := by
  induction bound : (arena.reach index).card using Nat.strongRecOn generalizing index with
  | _ count ih =>
      subst bound
      apply step
      intro child linked
      exact ih _ (arena.card_reach_lt acyclic index child linked) child rfl

theorem links_of_node? (arena : Arena) (index child : Nat) (node : Node)
    (found : arena.node? index = some node) (listed : child ∈ node.children) :
    arena.Links index child := by
  have same := arena.index_of_node? index node found
  subst same
  exact ⟨node, (arena.mem_nodes node).mpr found, rfl, listed⟩

/-- The nodes below and including a position: the node itself, then everything below each of its
children in turn. -/
def preorder (arena : Arena) (acyclic : arena.Acyclic) (index : Nat) : List Node :=
  match _found : arena.node? index with
  | none => []
  | some node =>
      node :: node.children.attach.flatMap fun child => arena.preorder acyclic child.val
termination_by (arena.reach index).card
decreasing_by
  exact arena.card_reach_lt acyclic index _ (arena.links_of_node? index _ node _found child.property)

theorem preorder_node? (arena : Arena) (acyclic : arena.Acyclic) (index : Nat) (node : Node)
    (found : arena.node? index = some node) :
    arena.preorder acyclic index = node :: node.children.flatMap (arena.preorder acyclic) := by
  rw [preorder]
  split
  · simp_all
  · next other same =>
      obtain rfl : other = node := by simp_all
      simp

theorem preorder_outside (arena : Arena) (acyclic : arena.Acyclic) (index : Nat)
    (outside : arena.node? index = none) : arena.preorder acyclic index = [] := by
  rw [preorder]
  split <;> simp_all

theorem preorder_eq (arena : Arena) (acyclic : arena.Acyclic) (node : Node) (member : node ∈ arena.nodes) :
    arena.preorder acyclic node.index = node :: node.children.flatMap (arena.preorder acyclic) :=
  arena.preorder_node? acyclic node.index node ((arena.mem_nodes node).mp member)

theorem mem_preorder (arena : Arena) (acyclic : arena.Acyclic) (index : Nat) (node : Node) :
    node ∈ arena.preorder acyclic index ↔ node ∈ arena.nodes ∧ arena.Reaches index node.index := by
  constructor
  · intro listed
    induction index using acyclic.descent with
    | step parent ih =>
        cases found : arena.node? parent with
        | none =>
            rw [arena.preorder_outside acyclic parent found] at listed
            cases listed
        | some top =>
            rw [arena.preorder_node? acyclic parent top found] at listed
            rcases List.mem_cons.mp listed with here | later
            · subst here
              have same := arena.index_of_node? parent node found
              subst same
              exact ⟨(arena.mem_nodes node).mpr found, .refl⟩
            · obtain ⟨child, linked, inner⟩ := List.mem_flatMap.mp later
              have step := arena.links_of_node? parent child top found linked
              obtain ⟨member, below⟩ := ih child step inner
              exact ⟨member, .head step below⟩
  · rintro ⟨member, below⟩
    induction below using Relation.ReflTransGen.head_induction_on with
    | refl =>
        rw [arena.preorder_eq acyclic node member]
        exact List.mem_cons_self
    | head linked _ ih =>
        obtain ⟨parent, parentMember, rfl, listed⟩ := linked
        rw [arena.preorder_eq acyclic parent parentMember]
        exact List.mem_cons_of_mem parent (List.mem_flatMap.mpr ⟨_, listed, ih⟩)

theorem preorder_infix (arena : Arena) (acyclic : arena.Acyclic) (start index : Nat)
    (below : arena.Reaches start index) :
    arena.preorder acyclic index <:+: arena.preorder acyclic start := by
  induction below using Relation.ReflTransGen.head_induction_on with
  | refl => exact List.infix_rfl
  | @head parent child linked _ ih =>
      obtain ⟨node, member, rfl, listed⟩ := linked
      obtain ⟨front, back, split⟩ := List.append_of_mem listed
      have block : arena.preorder acyclic child <:+: node.children.flatMap (arena.preorder acyclic) := by
        rw [split, List.flatMap_append, List.flatMap_cons]
        exact ⟨_, _, List.append_assoc _ _ _⟩
      rw [arena.preorder_eq acyclic node member]
      exact ih.trans (block.trans (List.suffix_cons _ _).isInfix)

theorem preorder_siblings (arena : Arena) (acyclic : arena.Acyclic) (node : Node)
    (member : node ∈ arena.nodes) (elder younger : Nat) (order : [elder, younger].Sublist node.children) :
    (arena.preorder acyclic elder ++ arena.preorder acyclic younger).Sublist
      (arena.preorder acyclic node.index) := by
  have blocks := order.flatMap (arena.preorder acyclic)
  rw [arena.preorder_eq acyclic node member]
  simpa using blocks.cons node

/-- How often a position is listed as a child. -/
def listings (arena : Arena) (index : Nat) : Nat :=
  (arena.nodes.flatMap (·.children)).count index

theorem pair_sublist_nodes (arena : Arena) (left right : Node) (leftMember : left ∈ arena.nodes)
    (rightMember : right ∈ arena.nodes) (order : left.index < right.index) :
    [left, right].Sublist arena.nodes := by
  rw [mem_nodes, ← getElem?_nodes] at leftMember rightMember
  have before : left ∈ arena.nodes.take right.index := by
    apply List.mem_of_getElem?
    rw [List.getElem?_take_of_lt order, leftMember]
  have after : right ∈ arena.nodes.drop right.index := by
    apply List.mem_of_getElem?
    rw [List.getElem?_drop, Nat.add_zero, rightMember]
  have pair := (List.singleton_sublist.mpr before).append (List.singleton_sublist.mpr after)
  rwa [List.take_append_drop] at pair

theorem count_children_le (arena : Arena) (node : Node) (member : node ∈ arena.nodes) (child : Nat) :
    node.children.count child ≤ arena.listings child := by
  have block := (List.singleton_sublist.mpr member).flatMap (·.children)
  simpa [listings] using block.count_le child

theorem two_le_listings (arena : Arena) (left right : Node) (leftMember : left ∈ arena.nodes)
    (rightMember : right ∈ arena.nodes) (order : left.index < right.index) (child : Nat)
    (leftListed : child ∈ left.children) (rightListed : child ∈ right.children) :
    2 ≤ arena.listings child := by
  have pair := (arena.pair_sublist_nodes left right leftMember rightMember order).flatMap (·.children)
  have both := pair.count_le child
  have leftCount := List.count_pos_iff.mpr leftListed
  have rightCount := List.count_pos_iff.mpr rightListed
  simp only [List.flatMap_cons, List.flatMap_nil, List.append_nil, List.count_append] at both
  exact Nat.le_trans (by omega) both

theorem parent_unique (arena : Arena) (left right child : Nat) (once : arena.listings child ≤ 1)
    (leftLinks : arena.Links left child) (rightLinks : arena.Links right child) : left = right := by
  obtain ⟨leftNode, leftMember, rfl, leftListed⟩ := leftLinks
  obtain ⟨rightNode, rightMember, rfl, rightListed⟩ := rightLinks
  by_contra different
  rcases Nat.lt_or_gt_of_ne different with less | greater
  · have twice := arena.two_le_listings leftNode rightNode leftMember rightMember less child
      leftListed rightListed
    omega
  · have twice := arena.two_le_listings rightNode leftNode rightMember leftMember greater child
      rightListed leftListed
    omega

/-- Of two positions above a third one, one is above the other, if no position on the way has two
parents. -/
theorem reaches_total (arena : Arena) (start left right index : Nat)
    (once : ∀ child, Relation.TransGen arena.Links start child → arena.listings child ≤ 1)
    (fromStart : arena.Reaches start left) (leftAbove : arena.Reaches left index)
    (rightAbove : arena.Reaches right index) :
    arena.Reaches left right ∨ arena.Reaches right left := by
  induction leftAbove with
  | refl => exact Or.inr rightAbove
  | @tail middle child above linked ih =>
      cases rightAbove with
      | refl => exact Or.inl (above.tail linked)
      | @tail other _ otherAbove otherLinked =>
          have single := once child (.tail' (fromStart.trans above) linked)
          have same := arena.parent_unique other middle child single otherLinked linked
          subst same
          exact ih otherAbove

theorem children_nodup (arena : Arena) (node : Node) (member : node ∈ arena.nodes)
    (once : ∀ child ∈ node.children, arena.listings child ≤ 1) : node.children.Nodup := by
  rw [List.nodup_iff_count]
  intro child
  by_cases listed : child ∈ node.children
  · exact Nat.le_trans (arena.count_children_le node member child) (once child listed)
  · simp [List.count_eq_zero.mpr listed]

theorem siblings_apart (arena : Arena) (acyclic : arena.Acyclic) (parent upper lower : Nat)
    (upperLinked : arena.Links parent upper) (lowerLinked : arena.Links parent lower)
    (once : arena.listings lower ≤ 1) (different : upper ≠ lower) : ¬ arena.Reaches upper lower := by
  intro above
  rcases Relation.ReflTransGen.cases_tail above with same | ⟨other, otherAbove, linked⟩
  · exact different same.symm
  · have same := arena.parent_unique other parent lower once linked lowerLinked
    subst same
    exact acyclic other (.head' upperLinked otherAbove)

theorem preorder_disjoint (arena : Arena) (acyclic : arena.Acyclic) (start parent left right : Nat)
    (once : ∀ child, Relation.TransGen arena.Links start child → arena.listings child ≤ 1)
    (reached : arena.Reaches start parent) (leftLinked : arena.Links parent left)
    (rightLinked : arena.Links parent right) (different : left ≠ right) :
    (arena.preorder acyclic left).Disjoint (arena.preorder acyclic right) := by
  intro shared inLeft inRight
  have fromLeft := Relation.TransGen.tail' reached leftLinked
  have fromRight := Relation.TransGen.tail' reached rightLinked
  have leftAbove := ((arena.mem_preorder acyclic left shared).mp inLeft).2
  have rightAbove := ((arena.mem_preorder acyclic right shared).mp inRight).2
  rcases arena.reaches_total start left right shared.index once fromLeft.to_reflTransGen leftAbove
    rightAbove with down | up
  · exact arena.siblings_apart acyclic parent left right leftLinked rightLinked
      (once right fromRight) different down
  · exact arena.siblings_apart acyclic parent right left rightLinked leftLinked
      (once left fromLeft) (Ne.symm different) up

/-- Without shared children below the start, nothing is listed twice. -/
theorem preorder_nodup (arena : Arena) (acyclic : arena.Acyclic) (start : Nat)
    (once : ∀ child, Relation.TransGen arena.Links start child → arena.listings child ≤ 1) :
    (arena.preorder acyclic start).Nodup := by
  suffices below : ∀ index, arena.Reaches start index → (arena.preorder acyclic index).Nodup from
    below start .refl
  intro index
  induction index using acyclic.descent with
  | step index ih =>
      intro reached
      cases found : arena.node? index with
      | none => simp [arena.preorder_outside acyclic index found]
      | some node =>
          have links : ∀ child ∈ node.children, arena.Links index child :=
            fun child listed => arena.links_of_node? index child node found listed
          have same := arena.index_of_node? index node found
          have member : node ∈ arena.nodes := by rwa [mem_nodes, same]
          have distinct := arena.children_nodup node member fun child listed =>
            once child (.tail' reached (links child listed))
          rw [arena.preorder_node? acyclic index node found, List.nodup_cons, List.nodup_flatMap]
          -- The node is not below itself, no child repeats anything, and no two children share anything.
          refine ⟨?_, ?_, ?_⟩
          · intro again
            obtain ⟨child, listed, inner⟩ := List.mem_flatMap.mp again
            have back := ((arena.mem_preorder acyclic child node).mp inner).2
            rw [same] at back
            exact acyclic index (.head' (links child listed) back)
          · intro child listed
            exact ih child (links child listed) (reached.tail (links child listed))
          · apply distinct.pairwise_of_forall_ne
            intro left leftListed right rightListed different
            exact arena.preorder_disjoint acyclic start index left right once reached
              (links left leftListed) (links right rightListed) different

end Arena

end ScriptMetrics
