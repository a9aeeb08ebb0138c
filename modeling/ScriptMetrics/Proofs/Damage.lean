import ScriptMetrics.Proofs.Preorder

/-!
Walks over damaged arenas, in which children may lie past the end. The pre-order leaves such children out. A
walk attends to the pre-order as it would in a sound arena until it comes to a node with a child past the
end: that node is visited, its children are recorded from the last one down to and including the last that
is missing, and there the walk ends.
-/

namespace ScriptMetrics

namespace Arena

/-- A node with a child past the end of the arena. -/
def isBroken (arena : Arena) (node : Node) : Bool :=
  node.children.any (arena.size ≤ ·)

section Breaks

variable (arena : Arena)

theorem isBroken_iff (node : Node) :
    arena.isBroken node = true ↔ ∃ child ∈ node.children, arena.size ≤ child := by
  simp [isBroken]

theorem inside_of_intact {node : Node} (intact : arena.isBroken node = false) :
    ∀ child ∈ node.children, child < arena.size := by
  simpa [isBroken] using intact

/-- Where the children of a broken node first go wrong, seen from the last one. -/
theorem exists_last_missing {node : Node} (broken : arena.isBroken node = true) :
    ∃ lost missing kept, node.children = lost ++ missing :: kept ∧ arena.size ≤ missing ∧
      ∀ child ∈ kept, child < arena.size := by
  have found : (node.children.reverse.find? (arena.size ≤ ·)).isSome := by
    simpa [List.find?_isSome] using (arena.isBroken_iff node).mp broken
  obtain ⟨missing, first⟩ := Option.isSome_iff_exists.mp found
  obtain ⟨outside, kept, lost, split, inside⟩ := List.find?_eq_some_iff_append.mp first
  refine ⟨lost.reverse, missing, kept.reverse, ?_, by simpa using outside, ?_⟩
  · simpa using congrArg List.reverse split
  · intro child listed
    simpa using inside child (List.mem_reverse.mp listed)

theorem exists_first_broken {order : List Node} (broken : ∃ node ∈ order, arena.isBroken node = true) :
    ∃ front node back, order = front ++ node :: back ∧ arena.isBroken node = true ∧
      ∀ earlier ∈ front, arena.isBroken earlier = false := by
  obtain ⟨node, first⟩ := Option.isSome_iff_exists.mp (List.find?_isSome.mpr broken)
  obtain ⟨here, front, back, split, before⟩ := List.find?_eq_some_iff_append.mp first
  refine ⟨front, node, back, split, here, ?_⟩
  intro earlier listed
  simpa using before earlier listed

theorem link_missing (parent levels : Nat) (front : List Nat) (missing : Nat) (back : List Nat)
    (stack : List Pending) (table : ParentTable) (inside : ∀ child ∈ front, child < arena.size)
    (outside : arena.size ≤ missing) :
    arena.link parent levels (front ++ missing :: back) stack table =
      .error .outOfRange (table.adopt parent (front ++ [missing])) := by
  induction front generalizing stack table with
  | nil =>
      have none := (arena.node?_eq_none missing).mpr outside
      simp only [List.nil_append, link, none]
      rfl
  | cons child rest ih =>
      have room := inside child List.mem_cons_self
      cases found : arena.node? child with
      | none => exact absurd ((arena.node?_eq_none child).mp found) (by omega)
      | some node =>
          simp only [List.cons_append, link, found]
          exact ih _ _ fun other listed => inside other (List.mem_cons_of_mem child listed)

end Breaks

section Stacks

variable {σ : Type} {arena : Arena}

/-- What a stack still holds, each pending node with everything below it. -/
def stackOrder (arena : Arena) (acyclic : arena.Acyclic) (stack : List Pending) : List Node :=
  stack.flatMap fun pending => arena.preorder acyclic pending.node.index

theorem stackOrder_step (acyclic : arena.Acyclic) {node : Node} (member : node ∈ arena.nodes) (levels : Nat)
    (rest : List Pending) :
    arena.stackOrder acyclic (⟨node, levels + 1⟩ :: rest) =
      node :: arena.stackOrder acyclic ((arena.inner node).map (⟨·, levels⟩) ++ rest) := by
  simp only [stackOrder, inner, List.flatMap_cons, List.flatMap_append, List.flatMap_map,
    arena.preorder_eq acyclic node member, List.cons_append, flatMap_preorder_inner]

-- The top of a ready stack is the next node in order, and it has a level left for itself.
theorem Ready.next (acyclic : arena.Acyclic) {stack : List Pending} (ready : arena.Ready stack) {node : Node}
    {later : List Node} (order : arena.stackOrder acyclic stack = node :: later) :
    ∃ levels rest, stack = ⟨node, levels + 1⟩ :: rest ∧
      arena.stackOrder acyclic ((arena.inner node).map (⟨·, levels⟩) ++ rest) = later := by
  match stack with
  | [] => cases order
  | ⟨top, 0⟩ :: rest =>
      obtain ⟨member, none⟩ := ready ⟨top, 0⟩ List.mem_cons_self
      have some := arena.card_reach_pos top member
      simp only at none some
      omega
  | ⟨top, levels + 1⟩ :: rest =>
      have member : top ∈ arena.nodes := (ready ⟨top, levels + 1⟩ List.mem_cons_self).1
      rw [stackOrder_step acyclic member] at order
      obtain ⟨rfl, remaining⟩ := List.cons.inj order
      exact ⟨levels, rest, rfl, remaining⟩

theorem walkStack_visited (visit : Visitor σ) {node : Node} {walk visited : Walk σ}
    (called : visit node walk = .ok () visited) (levels : Nat) (rest : List Pending) :
    arena.walkStack visit (⟨node, levels + 1⟩ :: rest) walk =
      match arena.link node.index levels node.children.reverse rest visited.parents with
      | .error fault parents => .error fault { visited with parents }
      | .ok next parents => arena.walkStack visit next { visited with parents } := by
  rw [walkStack]
  simp only [called]
  split <;> next linked => rw [linked]

theorem walkStack_intact (visit : Visitor σ) {node : Node} (intact : arena.isBroken node = false)
    (levels : Nat) (rest : List Pending) (walk : Walk σ) :
    arena.walkStack visit (⟨node, levels + 1⟩ :: rest) walk =
      (attend visit node >>= fun _ =>
        arena.walkStack visit ((arena.inner node).map (⟨·, levels⟩) ++ rest)) walk := by
  have inside := arena.inside_of_intact intact
  have linked := fun table => arena.link_inside node.index levels node.children.reverse rest table
    fun child listed => inside child (List.mem_reverse.mp listed)
  simp only [bind, EStateM.bind, attend]
  cases called : visit node walk with
  | error fault failed =>
      rw [walkStack]
      simp only [called]
  | ok _ visited =>
      rw [walkStack_visited visit called, linked, List.reverse_reverse]
      rfl

theorem walkStack_broken (visit : Visitor σ) {node : Node} {lost kept : List Nat} {missing : Nat}
    (split : node.children = lost ++ missing :: kept) (outside : arena.size ≤ missing)
    (inside : ∀ child ∈ kept, child < arena.size) (levels : Nat) (rest : List Pending) {walk visited : Walk σ}
    (called : visit node walk = .ok () visited) :
    arena.walkStack visit (⟨node, levels + 1⟩ :: rest) walk =
      .error .outOfRange
        { visited with parents := visited.parents.adopt node.index (missing :: kept).reverse } := by
  have reversed : node.children.reverse = kept.reverse ++ missing :: lost.reverse := by simp [split]
  have linked := arena.link_missing node.index levels kept.reverse missing lost.reverse rest visited.parents
    (fun child listed => inside child (List.mem_reverse.mp listed)) outside
  rw [walkStack_visited visit called, reversed, linked, List.reverse_cons]

/-- A walk gets through any intact part of the order that comes first, and goes on with a stack that holds
what comes then. -/
theorem walkStack_front (acyclic : arena.Acyclic) (visit : Visitor σ) (front back : List Node)
    (stack : List Pending) (ready : arena.Ready stack)
    (order : arena.stackOrder acyclic stack = front ++ back)
    (intact : ∀ node ∈ front, arena.isBroken node = false) :
    ∃ rest, arena.Ready rest ∧ arena.stackOrder acyclic rest = back ∧
      ∀ walk, arena.walkStack visit stack walk =
        (attendAll visit front >>= fun _ => arena.walkStack visit rest) walk := by
  induction front generalizing stack with
  | nil => exact ⟨stack, ready, order, fun _ => rfl⟩
  | cons node front ih =>
      obtain ⟨levels, rest, rfl, remaining⟩ := ready.next acyclic order
      obtain ⟨last, lastReady, lastOrder, runs⟩ := ih _ (ready.step acyclic) remaining fun other listed =>
        intact other (List.mem_cons_of_mem node listed)
      refine ⟨last, lastReady, lastOrder, ?_⟩
      intro walk
      have onward := funext runs
      rw [walkStack_intact visit (intact node List.mem_cons_self), inner, onward]
      show _ = (EStateM.bind (EStateM.bind (attend visit node) fun _ => attendAll visit front) fun _ =>
        arena.walkStack visit last) walk
      simp only [bind, EStateM.bind]
      cases attend visit node walk <;> rfl

end Stacks

section Damaged

variable {σ : Type} {arena : Arena} {visit : Visitor σ} {update : σ → Node → σ}

theorem walk_intact (acyclic : arena.Acyclic)
    (visits : ∀ node walk, visit node walk = .ok () ⟨walk.parents, update walk.state node⟩) {start : Node}
    (member : start ∈ arena.nodes)
    (intact : ∀ node ∈ arena.preorder acyclic start.index, arena.isBroken node = false)
    (table : ParentTable) (state : σ) :
    let order := arena.preorder acyclic start.index
    arena.walk visit start ⟨table, state⟩ = .ok () ⟨table.adoptAll order, order.foldl update state⟩ := by
  intro order
  obtain ⟨rest, restReady, nothing, runs⟩ := walkStack_front acyclic visit order [] _
    (arena.ready_start start member) (by simp [stackOrder, order]) intact
  obtain rfl : rest = [] := by
    cases rest with
    | nil => rfl
    | cons pending others =>
        have last := restReady pending List.mem_cons_self
        rw [stackOrder, List.flatMap_cons, arena.preorder_eq acyclic pending.node last.1] at nothing
        cases nothing
  rw [walk, runs]
  simp only [bind, EStateM.bind, attendAll_foldl visit update visits, walkStack]

theorem walk_broken (acyclic : arena.Acyclic)
    (visits : ∀ node walk, visit node walk = .ok () ⟨walk.parents, update walk.state node⟩) {start : Node}
    (member : start ∈ arena.nodes) {front back : List Node} {node : Node}
    (order : arena.preorder acyclic start.index = front ++ node :: back)
    (intact : ∀ earlier ∈ front, arena.isBroken earlier = false) {lost kept : List Nat} {missing : Nat}
    (split : node.children = lost ++ missing :: kept) (outside : arena.size ≤ missing)
    (inside : ∀ child ∈ kept, child < arena.size) (table : ParentTable) (state : σ) :
    arena.walk visit start ⟨table, state⟩ =
      .error .outOfRange ⟨(table.adoptAll front).adopt node.index (missing :: kept).reverse,
        (front ++ [node]).foldl update state⟩ := by
  obtain ⟨stack, stackReady, later, runs⟩ := walkStack_front acyclic visit front (node :: back) _
    (arena.ready_start start member) (by simpa [stackOrder] using order) intact
  obtain ⟨levels, rest, rfl, _⟩ := stackReady.next acyclic later
  rw [walk, runs]
  simp only [bind, EStateM.bind, attendAll_foldl visit update visits]
  rw [walkStack_broken visit split outside inside levels rest (visits node _)]
  simp

end Damaged

/-- A walk over a damaged arena fails at the first broken node and nowhere else. It fails exactly when a
broken node is within reach, and else attends to the whole order. When it fails, the visitor has been
called for the order up to and including the first broken node, and the table holds the records of all
nodes before that one and then those of its children, from the last down to the last that is missing.
The visitor may do anything with its own state. Links past the end lead to no node, so they close no
cycle. -/
theorem walk_breaks_off (arena : Arena) (acyclic : arena.Acyclic) (start : Node) (member : start ∈ arena.nodes)
    {σ : Type} (visit : Visitor σ) (update : σ → Node → σ)
    (visits : ∀ node walk, visit node walk = .ok () ⟨walk.parents, update walk.state node⟩)
    (table : ParentTable) (state : σ) :
    let order := arena.preorder acyclic
    let outcome := arena.walk visit start ⟨table, state⟩
    (∀ node ∈ arena.nodes,
      order node.index = node :: (arena.inner node).flatMap fun child => order child.index) ∧
    ((∃ after, outcome = .error .outOfRange after) ↔
      ∃ node ∈ arena.nodes, arena.Reaches start.index node.index ∧ arena.isBroken node = true) ∧
    ((∃ after, outcome = .error .outOfRange after) ∨
      outcome = .ok () ⟨table.adoptAll (order start.index), (order start.index).foldl update state⟩) ∧
    ∀ after, outcome = .error .outOfRange after →
      ∃ front node back lost missing kept,
        order start.index = front ++ node :: back ∧
        (∀ earlier ∈ front, arena.isBroken earlier = false) ∧
        node.children = lost ++ missing :: kept ∧ arena.size ≤ missing ∧
        (∀ child ∈ kept, child < arena.size) ∧
        after = ⟨(table.adoptAll front).adopt node.index (missing :: kept).reverse,
          (front ++ [node]).foldl update state⟩ := by
  intro order outcome
  have unfolds : ∀ node ∈ arena.nodes,
      order node.index = node :: (arena.inner node).flatMap fun child => order child.index := by
    intro node listed
    rw [inner, flatMap_preorder_inner]
    exact arena.preorder_eq acyclic node listed
  have reached : (∃ node ∈ order start.index, arena.isBroken node = true) ↔
      ∃ node ∈ arena.nodes, arena.Reaches start.index node.index ∧ arena.isBroken node = true := by
    simp only [order, mem_preorder, and_assoc]
  refine ⟨unfolds, ?_⟩
  rw [← reached]
  by_cases broken : ∃ node ∈ order start.index, arena.isBroken node = true
  · obtain ⟨front, node, back, split, here, before⟩ := arena.exists_first_broken broken
    obtain ⟨lost, missing, kept, children, outside, inside⟩ := arena.exists_last_missing here
    have fails : outcome = _ := walk_broken acyclic visits member split before children outside inside table state
    refine ⟨⟨fun _ => broken, fun _ => ⟨_, fails⟩⟩, .inl ⟨_, fails⟩, ?_⟩
    intro after same
    obtain ⟨_, rfl⟩ := EStateM.Result.error.inj (same.symm.trans fails)
    exact ⟨front, node, back, lost, missing, kept, split, before, children, outside, inside, rfl⟩
  · have intact : ∀ node ∈ order start.index, arena.isBroken node = false := by
      simpa using broken
    have ends : outcome = _ := walk_intact acyclic visits member intact table state
    have never : ∀ after, outcome ≠ .error .outOfRange after := by
      intro after failed
      cases ends.symm.trans failed
    refine ⟨⟨?_, fun found => absurd found broken⟩, .inr ends, ?_⟩
    · rintro ⟨after, failed⟩
      exact absurd failed (never after)
    · intro after failed
      exact absurd failed (never after)

/-- A leaf shared by two statements; the second one lists it between children past the end. A third
statement is broken as well, but the walk does not come to it. -/
def frayed : Arena where
  items := #[
    { kind := "program", children := [1, 2, 4] },
    { kind := "expression_statement", children := [3] },
    { kind := "expression_statement", children := [7, 3, 9, 3] },
    { kind := "identifier" },
    { kind := "expression_statement", children := [5] }]
  hasRoot := by decide

theorem frayed_acyclic : frayed.Acyclic :=
  frayed.acyclic_of_forward (by decide)

theorem frayed_breaks_off :
    let table := ParentTable.empty.set 7 4
    ∃ after, frayed.walk Visitor.note frayed.root ⟨table, #[]⟩ = .error .outOfRange after ∧
      after.state.toList.map Node.index = [0, 1, 3, 2] ∧
      after.parents.toList = [(1, 0), (2, 0), (3, 2), (4, 0), (7, 4), (9, 2)] := by
  intro table
  obtain ⟨_, fails, _⟩ := walk_breaks_off frayed frayed_acyclic frayed.root frayed.root_mem Visitor.note
    Array.push (fun _ _ => rfl) table #[]
  let second := frayed.nodes.getD 2 frayed.root
  have reached : frayed.Reaches 0 second.index := .single ⟨frayed.root, by decide, rfl, by decide⟩
  obtain ⟨after, failed⟩ := fails.mpr ⟨second, by decide, reached, by decide⟩
  have left : (match frayed.walk Visitor.note frayed.root ⟨table, #[]⟩ with
      | .error _ walk => (walk.state.toList.map Node.index, walk.parents.toList)
      | .ok _ _ => ([], [])) =
        ([0, 1, 3, 2], [(1, 0), (2, 0), (3, 2), (4, 0), (7, 4), (9, 2)]) := by
    decide +kernel
  rw [failed] at left
  obtain ⟨visited, recorded⟩ := Prod.mk.inj left
  exact ⟨after, failed, visited, recorded⟩

end Arena

end ScriptMetrics
