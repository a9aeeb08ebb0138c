import ScriptMetrics.Proofs.Descent
import ScriptMetrics.Syntax.Walk

/-!
Walks as runs over the pre-order. In an arena whose children lie inside it and in which no node is
its own descendant, working off the stack attends to the nodes of the pre-order one after another,
whatever the visitor does: the levels never run out, and only the visitor can stop a walk.
-/

namespace ScriptMetrics

namespace ParentTable

def adopt (table : ParentTable) (parent : Nat) (children : List Nat) : ParentTable :=
  children.foldl (fun table child => table.set child parent) table

theorem parent?_adopt (table : ParentTable) (parent : Nat) (children : List Nat) (child : Nat) :
    (table.adopt parent children).parent? child =
      if child ∈ children then some parent else table.parent? child := by
  induction children generalizing table with
  | nil => simp [adopt]
  | cons first rest ih =>
      have step := ih (table.set first parent)
      simp only [adopt, List.foldl_cons] at step ⊢
      rw [step, parent?_set]
      by_cases later : child ∈ rest
      · simp [later]
      · by_cases here : first = child
        · simp [here]
        · simp [later, here, Ne.symm here]

/-- The table after each of the given nodes is recorded as the parent of its children, last child
first. -/
def adoptAll (table : ParentTable) (nodes : List Node) : ParentTable :=
  nodes.foldl (fun table node => table.adopt node.index node.children.reverse) table

theorem parent?_adoptAll_outside (table : ParentTable) (nodes : List Node) (child : Nat)
    (outside : ∀ node ∈ nodes, child ∉ node.children) :
    (table.adoptAll nodes).parent? child = table.parent? child := by
  induction nodes generalizing table with
  | nil => rfl
  | cons node rest ih =>
      have step := ih (table.adopt node.index node.children.reverse) fun other member =>
        outside other (List.mem_cons_of_mem node member)
      have here := outside node List.mem_cons_self
      rw [parent?_adopt, if_neg (by simpa using here)] at step
      exact step

/-- What was recorded for a child before it was adopted does not matter. -/
theorem parent?_adoptAll_inside (table other : ParentTable) (nodes : List Node) (child : Nat)
    (inside : ∃ node ∈ nodes, child ∈ node.children) :
    (table.adoptAll nodes).parent? child = (other.adoptAll nodes).parent? child := by
  induction nodes generalizing table other with
  | nil =>
      obtain ⟨node, member, _⟩ := inside
      cases member
  | cons node rest ih =>
      simp only [adoptAll, List.foldl_cons] at ih ⊢
      -- The last node that lists the child decides.
      by_cases later : ∃ node ∈ rest, child ∈ node.children
      · exact ih _ _ later
      · obtain ⟨parent, member, listed⟩ := inside
        have here : child ∈ node.children := by
          rcases List.mem_cons.mp member with same | behind
          · rwa [← same]
          · exact absurd ⟨parent, behind, listed⟩ later
        have outside : ∀ node ∈ rest, child ∉ node.children :=
          fun node member listed => later ⟨node, member, listed⟩
        have left := parent?_adoptAll_outside (table.adopt node.index node.children.reverse) rest
          child outside
        have right := parent?_adoptAll_outside (other.adopt node.index node.children.reverse) rest
          child outside
        rw [parent?_adopt, if_pos (List.mem_reverse.mpr here)] at left right
        exact left.trans right.symm

end ParentTable

namespace Arena

variable {σ : Type}

/-- What a walk does at a node: the visit, then the records of its children, last child first. -/
def attend (visit : Visitor σ) (node : Node) : EStateM Fault (Walk σ) Unit := fun walk =>
  match visit node walk with
  | .error fault walk => .error fault walk
  | .ok _ walk =>
      .ok () { walk with parents := walk.parents.adopt node.index node.children.reverse }

def attendAll (visit : Visitor σ) (nodes : List Node) : EStateM Fault (Walk σ) Unit :=
  nodes.forM (attend visit)

theorem attendAll_nil (visit : Visitor σ) (walk : Walk σ) : attendAll visit [] walk = .ok () walk := rfl

theorem attendAll_cons (visit : Visitor σ) (node : Node) (rest : List Node) (walk : Walk σ) :
    attendAll visit (node :: rest) walk =
      match visit node walk with
      | .error fault walk => .error fault walk
      | .ok _ walk =>
          attendAll visit rest
            { walk with parents := walk.parents.adopt node.index node.children.reverse } := by
  show EStateM.bind (attend visit node) (fun _ => attendAll visit rest) walk = _
  simp only [EStateM.bind, attend]
  cases visit node walk <;> rfl

theorem link_inside (arena : Arena) (parent levels : Nat) (children : List Nat) (stack : List Pending)
    (table : ParentTable) (inside : ∀ child ∈ children, child < arena.size) :
    arena.link parent levels children stack table =
      .ok ((children.reverse.filterMap arena.node?).map (⟨·, levels⟩) ++ stack)
        (table.adopt parent children) := by
  induction children generalizing stack table with
  | nil => rfl
  | cons child rest ih =>
      have room := inside child List.mem_cons_self
      cases found : arena.node? child with
      | none => exact absurd ((arena.node?_eq_none child).mp found) (by omega)
      | some node =>
          simp only [link, found]
          rw [ih _ _ fun other member => inside other (List.mem_cons_of_mem child member)]
          simp [found, ParentTable.adopt]

theorem link_children (arena : Arena) (sound : arena.Sound) (node : Node) (member : node ∈ arena.nodes)
    (levels : Nat) (stack : List Pending) (table : ParentTable) :
    arena.link node.index levels node.children.reverse stack table =
      .ok ((node.children.filterMap arena.node?).map (⟨·, levels⟩) ++ stack)
        (table.adopt node.index node.children.reverse) := by
  rw [link_inside, List.reverse_reverse]
  intro child listed
  exact sound.inside node member child (List.mem_reverse.mp listed)

theorem flatMap_preorder_inner (arena : Arena) (acyclic : arena.Acyclic) (children : List Nat) :
    (children.filterMap arena.node?).flatMap (fun node => arena.preorder acyclic node.index) =
      children.flatMap (arena.preorder acyclic) := by
  induction children with
  | nil => rfl
  | cons child rest ih =>
      cases found : arena.node? child with
      | none => simp [found, ih, arena.preorder_outside acyclic child found]
      | some node => simp [found, ih, arena.index_of_node? child node found]

/-- A pending node belongs to the arena and has levels left for everything within its reach. -/
def Ready (arena : Arena) (stack : List Pending) : Prop :=
  ∀ pending ∈ stack, pending.node ∈ arena.nodes ∧
    (arena.reach pending.node.index).card ≤ pending.levels

theorem Ready.step {arena : Arena} (acyclic : arena.Acyclic) {node : Node} {levels : Nat}
    {rest : List Pending} (ready : arena.Ready (⟨node, levels + 1⟩ :: rest)) :
    arena.Ready ((node.children.filterMap arena.node?).map (⟨·, levels⟩) ++ rest) := by
  intro pending member
  rcases List.mem_append.mp member with below | later
  · obtain ⟨child, inner, rfl⟩ := List.mem_map.mp below
    obtain ⟨index, listed, found⟩ := List.mem_filterMap.mp inner
    have same := arena.index_of_node? index child found
    subst same
    obtain ⟨top, enough⟩ := ready ⟨node, levels + 1⟩ List.mem_cons_self
    have fewer := arena.card_reach_lt acyclic node.index child.index ⟨node, top, rfl, listed⟩
    exact ⟨(arena.mem_nodes child).mpr found, by simp only at enough ⊢; omega⟩
  · exact ready pending (List.mem_cons_of_mem _ later)

/-- Working off a stack attends to everything below each pending node in turn. -/
theorem walkStack_eq_attendAll (arena : Arena) (sound : arena.Sound) (visit : Visitor σ)
    (stack : List Pending) (ready : arena.Ready stack) (walk : Walk σ) :
    arena.walkStack visit stack walk =
      attendAll visit
        (stack.flatMap fun pending => arena.preorder sound.acyclic pending.node.index) walk := by
  fun_induction walkStack arena visit stack walk with
  | case1 walk => rfl
  | case2 node rest walk =>
      obtain ⟨member, none⟩ := ready ⟨node, 0⟩ List.mem_cons_self
      -- A pending node reaches at least itself, so its levels have not run out.
      have some := arena.card_reach_pos node member
      simp only at none some
      omega
  | case3 node levels rest walk fault after failed =>
      obtain ⟨member, _⟩ := ready ⟨node, levels + 1⟩ List.mem_cons_self
      simp only [List.flatMap_cons, arena.preorder_eq sound.acyclic node member, List.cons_append,
        attendAll_cons, failed]
  | case4 node levels rest walk _ after visited fault parents linked =>
      obtain ⟨member, _⟩ := ready ⟨node, levels + 1⟩ List.mem_cons_self
      rw [arena.link_children sound node member] at linked
      cases linked
  | case5 node levels rest walk _ after visited next parents linked ih =>
      obtain ⟨member, _⟩ := ready ⟨node, levels + 1⟩ List.mem_cons_self
      rw [arena.link_children sound node member] at linked
      obtain ⟨rfl, rfl⟩ := EStateM.Result.ok.inj linked
      rw [ih (ready.step sound.acyclic)]
      simp only [List.flatMap_cons, List.flatMap_append, List.flatMap_map,
        arena.preorder_eq sound.acyclic node member, List.cons_append, attendAll_cons, visited,
        flatMap_preorder_inner]

theorem ready_start (arena : Arena) (start : Node) (member : start ∈ arena.nodes) :
    arena.Ready [⟨start, arena.size⟩] :=
  List.forall_mem_singleton.mpr ⟨member, arena.card_reach_le start.index⟩

theorem walk_eq_attendAll (arena : Arena) (sound : arena.Sound) (visit : Visitor σ) (start : Node)
    (member : start ∈ arena.nodes) (walk : Walk σ) :
    arena.walk visit start walk =
      attendAll visit (arena.preorder sound.acyclic start.index) walk := by
  simpa [Arena.walk] using
    arena.walkStack_eq_attendAll sound visit _ (arena.ready_start start member) walk

theorem attendAll_total (visit : Visitor σ)
    (total : ∀ node walk, ∃ after, visit node walk = .ok () after) (nodes : List Node) (walk : Walk σ) :
    ∃ after, attendAll visit nodes walk = .ok () after := by
  induction nodes generalizing walk with
  | nil => exact ⟨walk, rfl⟩
  | cons node rest ih =>
      obtain ⟨visited, called⟩ := total node walk
      rw [attendAll_cons, called]
      exact ih _

/-- A visitor that only updates its own state is folded over the nodes. -/
theorem attendAll_foldl (visit : Visitor σ) (update : σ → Node → σ)
    (visits : ∀ node walk, visit node walk = .ok () ⟨walk.parents, update walk.state node⟩)
    (nodes : List Node) (table : ParentTable) (state : σ) :
    attendAll visit nodes ⟨table, state⟩ = .ok () ⟨table.adoptAll nodes, nodes.foldl update state⟩ := by
  induction nodes generalizing table state with
  | nil => rfl
  | cons node rest ih =>
      rw [attendAll_cons, visits]
      exact ih _ _

theorem attendAll_note (nodes : List Node) (table : ParentTable) :
    attendAll Visitor.note nodes ⟨table, #[]⟩ = .ok () ⟨table.adoptAll nodes, nodes.toArray⟩ := by
  rw [attendAll_foldl Visitor.note Array.push fun _ _ => rfl]
  simp

theorem visits_eq_preorder (arena : Arena) (sound : arena.Sound) (start : Node)
    (member : start ∈ arena.nodes) :
    arena.visits start = .ok (arena.preorder sound.acyclic start.index) := by
  simp [visits, arena.walk_eq_attendAll sound Visitor.note start member, attendAll_note]

theorem parent_before_child (arena : Arena) (acyclic : arena.Acyclic) (parent child : Node)
    (parentMember : parent ∈ arena.nodes) (childMember : child ∈ arena.nodes)
    (listed : child.index ∈ parent.children) :
    [parent, child].Sublist (arena.preorder acyclic parent.index) := by
  have below : child ∈ parent.children.flatMap (arena.preorder acyclic) :=
    List.mem_flatMap.mpr
      ⟨child.index, listed, (arena.mem_preorder acyclic child.index child).mpr ⟨childMember, .refl⟩⟩
  rw [arena.preorder_eq acyclic parent parentMember]
  exact (List.singleton_sublist.mpr below).cons_cons parent

/-- A walk is the recursive pre-order. Whatever table and visitor it starts with, it attends to the
nodes of the pre-order in turn. If no position below the start is listed as a child twice, every
reached node is visited once, each parent before its children, and the subtrees of siblings one
after another. -/
theorem walk_visits_preorder (arena : Arena) (sound : arena.Sound) (start : Node)
    (member : start ∈ arena.nodes) :
    let order := arena.preorder sound.acyclic
    (∀ node ∈ arena.nodes, order node.index = node :: node.children.flatMap order) ∧
      (∀ (σ : Type) (visit : Visitor σ) (walk : Walk σ),
        arena.walk visit start walk = attendAll visit (order start.index) walk) ∧
      (∀ table, ∃ after, arena.walk Visitor.note start ⟨table, #[]⟩ =
        .ok () ⟨after, (order start.index).toArray⟩) ∧
      ((∀ child, Relation.TransGen arena.Links start.index child → arena.listings child ≤ 1) →
        (order start.index).Nodup ∧
          (∀ node, node ∈ order start.index ↔
            node ∈ arena.nodes ∧ arena.Reaches start.index node.index) ∧
          (∀ parent ∈ order start.index, ∀ child ∈ arena.nodes, child.index ∈ parent.children →
            [parent, child].Sublist (order start.index)) ∧
          (∀ parent ∈ order start.index, ∀ elder younger, [elder, younger].Sublist parent.children →
            (order elder ++ order younger).Sublist (order start.index))) := by
  intro order
  refine ⟨arena.preorder_eq sound.acyclic, ?_, ?_, ?_⟩
  · intro σ visit walk
    exact arena.walk_eq_attendAll sound visit start member walk
  · intro table
    exact ⟨table.adoptAll (order start.index),
      by rw [arena.walk_eq_attendAll sound Visitor.note start member, attendAll_note]⟩
  · intro once
    refine ⟨arena.preorder_nodup sound.acyclic start.index once,
      arena.mem_preorder sound.acyclic start.index, ?_, ?_⟩
    · intro parent visited child childMember listed
      obtain ⟨parentMember, below⟩ := (arena.mem_preorder sound.acyclic _ parent).mp visited
      have block := arena.preorder_infix sound.acyclic start.index parent.index below
      exact (arena.parent_before_child sound.acyclic parent child parentMember childMember
        listed).trans block.sublist
    · intro parent visited elder younger siblings
      obtain ⟨parentMember, below⟩ := (arena.mem_preorder sound.acyclic _ parent).mp visited
      have block := arena.preorder_infix sound.acyclic start.index parent.index below
      exact (arena.preorder_siblings sound.acyclic parent parentMember elder younger
        siblings).trans block.sublist

/-- A root that lists its only child twice; below that child nothing is shared. -/
def doubled : Arena where
  items := #[
    { kind := "program", children := [1, 1] },
    { kind := "expression_statement", children := [2, 3] },
    { kind := "identifier" },
    { kind := "arguments", children := [4] },
    { kind := "string" }]
  hasRoot := by decide

theorem doubled_sound : doubled.Sound where
  inside := by decide
  acyclic := doubled.acyclic_of_forward (by decide)

theorem doubled_once (child : Nat) (below : Relation.TransGen doubled.Links 1 child) :
    doubled.listings child ≤ 1 := by
  have other : child ≠ 1 := by
    rintro rfl
    exact doubled_sound.acyclic 1 below
  have counted : doubled.listings child = [1, 1, 2, 3, 4].count child := rfl
  rw [counted, List.count_cons_of_ne (Ne.symm other), List.count_cons_of_ne (Ne.symm other)]
  exact List.nodup_iff_count.mp (by decide) child

theorem doubled_visits :
    (∃ after, doubled.walk Visitor.note doubled.root ⟨.empty, #[]⟩ =
        .ok () ⟨after, (doubled.preorder doubled_sound.acyclic 0).toArray⟩) ∧
      (doubled.preorder doubled_sound.acyclic 0).map Node.index = [0, 1, 2, 3, 4, 1, 2, 3, 4] ∧
      (doubled.preorder doubled_sound.acyclic 1).Nodup := by
  obtain ⟨child, member, position⟩ := doubled.exists_node 1 (by decide)
  obtain ⟨_, _, visited, _⟩ :=
    walk_visits_preorder doubled doubled_sound doubled.root (by decide)
  obtain ⟨_, _, _, single⟩ := walk_visits_preorder doubled doubled_sound child member
  rw [position] at single
  refine ⟨visited .empty, ?_, (single doubled_once).1⟩
  cbv

end Arena

end ScriptMetrics
