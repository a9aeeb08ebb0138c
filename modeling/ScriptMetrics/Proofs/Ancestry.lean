import ScriptMetrics.Proofs.Preorder

/-!
Ancestry during a walk. A position is rooted in a table if following the recorded parents leads along
real links to the top of the walk. Every pending node of a walk is rooted when its turn comes,
whatever the table held before; recording the parent of its children roots them and uproots nobody,
since no descendant of a node stands above it.
-/

namespace ScriptMetrics

/-- A position whose recorded parents lead along links to the top. -/
inductive Rooted (arena : Arena) (table : ParentTable) (top : Nat) : Nat → Prop where
  | top : Rooted arena table top top
  | child {index parent : Nat} (below : index ≠ top) (recorded : table.parent? index = some parent)
      (linked : arena.Links parent index) (above : Rooted arena table top parent) :
      Rooted arena table top index

namespace Rooted

variable {arena : Arena} {table : ParentTable} {top index : Nat}

theorem reaches (rooted : Rooted arena table top index) : arena.Reaches top index := by
  induction rooted with
  | top => exact .refl
  | child _ _ linked _ ih => exact ih.tail linked

section Adopt

variable {node : Node}

theorem adopt_above (acyclic : arena.Acyclic) (member : node ∈ arena.nodes)
    (rooted : Rooted arena table top index) (above : arena.Reaches index node.index) :
    Rooted arena (table.adopt node.index node.children.reverse) top index := by
  induction rooted with
  | top => exact .top
  | child below recorded linked _ ih =>
      -- A position above the node cannot be one of its children, so its record stays.
      have unlisted : _ ∉ node.children.reverse := fun listed =>
        acyclic node.index (.head' ⟨node, member, rfl, List.mem_reverse.mp listed⟩ above)
      refine .child below ?_ linked (ih (above.head linked))
      rwa [ParentTable.parent?_adopt, if_neg unlisted]

theorem adopt_child (acyclic : arena.Acyclic) (member : node ∈ arena.nodes)
    (rooted : Rooted arena table top node.index) (listed : index ∈ node.children) :
    Rooted arena (table.adopt node.index node.children.reverse) top index := by
  have linked : arena.Links node.index index := ⟨node, member, rfl, listed⟩
  have below : index ≠ top := by
    rintro rfl
    exact acyclic node.index (.head' linked rooted.reaches)
  refine .child below ?_ linked (rooted.adopt_above acyclic member .refl)
  rw [ParentTable.parent?_adopt, if_pos (List.mem_reverse.mpr listed)]

theorem adopt (acyclic : arena.Acyclic) (member : node ∈ arena.nodes)
    (parent : Rooted arena table top node.index) (rooted : Rooted arena table top index) :
    Rooted arena (table.adopt node.index node.children.reverse) top index := by
  induction rooted with
  | top => exact .top
  | @child index _ below recorded linked _ ih =>
      by_cases listed : index ∈ node.children
      · exact parent.adopt_child acyclic member listed
      · refine .child below ?_ linked ih
        rwa [ParentTable.parent?_adopt, if_neg (by simpa using listed)]

end Adopt

end Rooted

/-- The state a walk ends in, whether it succeeds or fails. -/
def Walk.settled {σ : Type} : EStateM.Result Fault (Walk σ) Unit → Walk σ
  | .ok _ walk => walk
  | .error _ walk => walk

namespace Visitor

variable {σ : Type}

/-- A visitor may write into the table as long as nothing rooted gets uprooted. -/
def Keeps (visit : Visitor σ) (arena : Arena) (top : Nat) : Prop :=
  ∀ node walk after, node ∈ arena.nodes → Rooted arena walk.parents top node.index →
    visit node walk = .ok () after →
      ∀ index, Rooted arena walk.parents top index → Rooted arena after.parents top index

def Silent (visit : Visitor σ) : Prop :=
  ∀ node walk after, visit node walk = .ok () after → after.parents = walk.parents

theorem Silent.keeps {visit : Visitor σ} (silent : visit.Silent) (arena : Arena) (top : Nat) :
    visit.Keeps arena top := by
  intro node walk after _ _ visited index rooted
  rwa [silent node walk after visited]

theorem note_silent : note.Silent := by
  intro node walk after visited
  obtain ⟨_, rfl⟩ := EStateM.Result.ok.inj visited
  rfl

/-- Does what a visitor does and keeps each call with the table of that moment. -/
def observed (visit : Visitor σ) : Visitor (σ × List (Node × ParentTable)) := fun node walk =>
  let calls := walk.state.2 ++ [(node, walk.parents)]
  match visit node ⟨walk.parents, walk.state.1⟩ with
  | .ok _ after => .ok () ⟨after.parents, after.state, calls⟩
  | .error fault after => .error fault ⟨after.parents, after.state, calls⟩

theorem calls_observed (visit : Visitor σ) (node : Node) (walk : Walk (σ × List (Node × ParentTable))) :
    (Walk.settled (visit.observed node walk)).state.2 = walk.state.2 ++ [(node, walk.parents)] := by
  unfold observed
  cases visit node ⟨walk.parents, walk.state.1⟩ <;> rfl

theorem observed_ok (visit : Visitor σ) (node : Node) (walk after : Walk (σ × List (Node × ParentTable)))
    (called : visit.observed node walk = .ok () after) :
    visit node ⟨walk.parents, walk.state.1⟩ = .ok () ⟨after.parents, after.state.1⟩ := by
  unfold observed at called
  cases result : visit node ⟨walk.parents, walk.state.1⟩ with
  | ok _ inner =>
      simp only [result, EStateM.Result.ok.injEq, true_and] at called
      subst called
      rfl
  | error fault inner => simp [result] at called

end Visitor

namespace Arena

variable {σ : Type}

def RootedStack (arena : Arena) (table : ParentTable) (top : Nat) (stack : List Pending) : Prop :=
  ∀ pending ∈ stack, pending.node ∈ arena.nodes ∧ Rooted arena table top pending.node.index

theorem RootedStack.step {arena : Arena} (acyclic : arena.Acyclic) {table : ParentTable} {top : Nat}
    {node : Node} {levels : Nat} {rest : List Pending}
    (rooted : arena.RootedStack table top (⟨node, levels + 1⟩ :: rest)) :
    arena.RootedStack (table.adopt node.index node.children.reverse) top
      ((node.children.filterMap arena.node?).map (⟨·, levels⟩) ++ rest) := by
  obtain ⟨member, parent⟩ := rooted ⟨node, levels + 1⟩ List.mem_cons_self
  intro pending waiting
  rcases List.mem_append.mp waiting with below | later
  · obtain ⟨child, inner, rfl⟩ := List.mem_map.mp below
    obtain ⟨index, listed, found⟩ := List.mem_filterMap.mp inner
    have same := arena.index_of_node? index child found
    subst same
    exact ⟨(arena.mem_nodes child).mpr found, parent.adopt_child acyclic member listed⟩
  · obtain ⟨laterMember, laterRooted⟩ := rooted pending (List.mem_cons_of_mem _ later)
    exact ⟨laterMember, parent.adopt acyclic member laterRooted⟩

theorem RootedStack.mono {arena : Arena} {table after : ParentTable} {top : Nat} {stack : List Pending}
    (rooted : arena.RootedStack table top stack)
    (kept : ∀ index, Rooted arena table top index → Rooted arena after top index) :
    arena.RootedStack after top stack := by
  intro pending waiting
  obtain ⟨member, line⟩ := rooted pending waiting
  exact ⟨member, kept _ line⟩

/-- A walk uproots nothing and roots everything below its pending nodes. -/
theorem walkStack_roots (arena : Arena) (sound : arena.Sound) (visit : Visitor σ) (top : Nat)
    (keeps : visit.Keeps arena top) (stack : List Pending) (walk after : Walk σ)
    (rooted : arena.RootedStack walk.parents top stack)
    (run : arena.walkStack visit stack walk = .ok () after) :
    (∀ index, Rooted arena walk.parents top index → Rooted arena after.parents top index) ∧
      ∀ pending ∈ stack, ∀ index, arena.Reaches pending.node.index index →
        Rooted arena after.parents top index := by
  fun_induction walkStack arena visit stack walk with
  | case1 walk =>
      obtain ⟨_, rfl⟩ := EStateM.Result.ok.inj run
      exact ⟨fun _ line => line, by simp⟩
  | case2 => cases run
  | case3 => cases run
  | case4 => cases run
  | case5 node levels rest walk _ visited called next parents linked ih =>
      obtain ⟨member, line⟩ := rooted ⟨node, levels + 1⟩ List.mem_cons_self
      rw [arena.link_children sound node member] at linked
      obtain ⟨rfl, rfl⟩ := EStateM.Result.ok.inj linked
      have kept := keeps node walk visited member line called
      have ready := rooted.mono kept
      obtain ⟨later, below⟩ := ih (ready.step sound.acyclic) run
      have whole : ∀ index, Rooted arena walk.parents top index → Rooted arena after.parents top index :=
        fun index known => later index ((kept _ line).adopt sound.acyclic member (kept index known))
      refine ⟨whole, ?_⟩
      intro pending waiting index reached
      rcases List.mem_cons.mp waiting with here | behind
      · subst here
        rcases Relation.ReflTransGen.cases_head reached with same | ⟨child, step, rest⟩
        · subst same
          exact whole _ line
        -- Whatever else is below the node is below one of the children it has just pushed.
        · have listed := (arena.links_iff node member child).mp step
          obtain ⟨inner, innerMember, rfl⟩ := arena.exists_node child (sound.links_inside step)
          have pushed : inner ∈ node.children.filterMap arena.node? :=
            List.mem_filterMap.mpr ⟨inner.index, listed, (arena.mem_nodes inner).mp innerMember⟩
          exact below ⟨inner, levels⟩
            (List.mem_append_left _ (List.mem_map.mpr ⟨inner, pushed, rfl⟩)) index rest
      · exact below pending (List.mem_append_right _ behind) index reached

theorem rootedStack_start (arena : Arena) (start : Node) (member : start ∈ arena.nodes)
    (table : ParentTable) (top : Nat) (rooted : Rooted arena table top start.index) :
    arena.RootedStack table top [⟨start, arena.size⟩] :=
  List.forall_mem_singleton.mpr ⟨member, rooted⟩

theorem walk_roots (arena : Arena) (sound : arena.Sound) (visit : Visitor σ) (top : Nat)
    (keeps : visit.Keeps arena top) (start : Node) (member : start ∈ arena.nodes) (walk after : Walk σ)
    (rooted : Rooted arena walk.parents top start.index)
    (run : arena.walk visit start walk = .ok () after) :
    (∀ index, Rooted arena walk.parents top index → Rooted arena after.parents top index) ∧
      ∀ index, arena.Reaches start.index index → Rooted arena after.parents top index := by
  have stack := arena.rootedStack_start start member walk.parents top rooted
  obtain ⟨kept, below⟩ := arena.walkStack_roots sound visit top keeps _ walk after stack run
  exact ⟨kept, below _ List.mem_cons_self⟩

/-- Each call found its node rooted in the table of that moment. -/
def RootedCalls (arena : Arena) (top : Nat) (calls : List (Node × ParentTable)) : Prop :=
  ∀ call ∈ calls, call.1 ∈ arena.nodes ∧ Rooted arena call.2 top call.1.index

theorem RootedCalls.step {arena : Arena} {top : Nat} (visit : Visitor σ) {node : Node}
    {walk : Walk (σ × List (Node × ParentTable))} (before : arena.RootedCalls top walk.state.2)
    (member : node ∈ arena.nodes) (rooted : Rooted arena walk.parents top node.index) :
    arena.RootedCalls top (Walk.settled (visit.observed node walk)).state.2 := by
  intro call made
  rw [visit.calls_observed, List.mem_append, List.mem_singleton] at made
  rcases made with earlier | now
  · exact before call earlier
  · rw [now]
    exact ⟨member, rooted⟩

theorem walkStack_calls (arena : Arena) (sound : arena.Sound) (visit : Visitor σ) (top : Nat)
    (keeps : visit.Keeps arena top) (stack : List Pending)
    (walk : Walk (σ × List (Node × ParentTable)))
    (rooted : arena.RootedStack walk.parents top stack) (before : arena.RootedCalls top walk.state.2) :
    arena.RootedCalls top (Walk.settled (arena.walkStack visit.observed stack walk)).state.2 := by
  fun_induction walkStack arena visit.observed stack walk with
  | case1 walk => exact before
  | case2 => exact before
  | case3 node levels rest walk fault failed called =>
      obtain ⟨member, line⟩ := rooted ⟨node, levels + 1⟩ List.mem_cons_self
      have logged := before.step visit member line
      rwa [called] at logged
  | case4 node levels rest walk _ visited called fault parents linked =>
      obtain ⟨member, line⟩ := rooted ⟨node, levels + 1⟩ List.mem_cons_self
      rw [arena.link_children sound node member] at linked
      cases linked
  | case5 node levels rest walk _ visited called next parents linked ih =>
      obtain ⟨member, line⟩ := rooted ⟨node, levels + 1⟩ List.mem_cons_self
      have logged := before.step visit member line
      rw [called] at logged
      rw [arena.link_children sound node member] at linked
      obtain ⟨rfl, rfl⟩ := EStateM.Result.ok.inj linked
      have kept := keeps node _ _ member line (visit.observed_ok node walk visited called)
      exact ih ((rooted.mono kept).step sound.acyclic) logged

/-- A way up from a node to the top, the top left out: each node is a child of the next one, and the
last one is a child of the top. -/
inductive Ascent (arena : Arena) (top : Node) : Node → List Node → Prop where
  | top : Ascent arena top top []
  | step {node parent : Node} {chain : List Node} (member : node ∈ arena.nodes) (below : node ≠ top)
      (listed : node.index ∈ parent.children) (above : Ascent arena top parent chain) :
      Ascent arena top node (node :: chain)

theorem Ascent.member {arena : Arena} {top node : Node} {chain : List Node}
    (topMember : top ∈ arena.nodes) (ascent : arena.Ascent top node chain) : node ∈ arena.nodes := by
  cases ascent with
  | top => exact topMember
  | step member _ _ _ => exact member

theorem Ascent.between {arena : Arena} {top node : Node} {chain : List Node}
    (topMember : top ∈ arena.nodes) (ascent : arena.Ascent top node chain) :
    arena.Reaches top.index node.index ∧
      ∀ step ∈ chain, step ∈ arena.nodes ∧ arena.Reaches top.index step.index ∧
        arena.Reaches step.index node.index := by
  induction ascent with
  | top => exact ⟨.refl, by simp⟩
  | step member _ listed above ih =>
      have linked := (arena.links_iff _ (above.member topMember) _).mpr listed
      have reached := ih.1.tail linked
      refine ⟨reached, ?_⟩
      intro step inside
      rcases List.mem_cons.mp inside with here | higher
      · subst here
        exact ⟨member, reached, .refl⟩
      · obtain ⟨stepMember, fromTop, toParent⟩ := ih.2 step higher
        exact ⟨stepMember, fromTop, toParent.tail linked⟩

theorem Ascent.nodup {arena : Arena} {top node : Node} {chain : List Node} (acyclic : arena.Acyclic)
    (topMember : top ∈ arena.nodes) (ascent : arena.Ascent top node chain) : chain.Nodup := by
  induction ascent with
  | top => exact List.nodup_nil
  | @step node parent chain member _ listed above ih =>
      rw [List.nodup_cons]
      refine ⟨?_, ih⟩
      intro again
      -- A node that came again would stand above its own parent.
      have linked := (arena.links_iff parent (above.member topMember) node.index).mpr listed
      have higher := ((above.between topMember).2 node again).2.2
      exact acyclic node.index (.tail' higher linked)

theorem Ascent.unique {arena : Arena} {top node : Node} {chain other : List Node}
    (topMember : top ∈ arena.nodes) (once : ∀ index, arena.listings index ≤ 1)
    (left : arena.Ascent top node chain) (right : arena.Ascent top node other) : other = chain := by
  induction left generalizing other with
  | top =>
      cases right with
      | top => rfl
      | step _ below _ _ => exact absurd rfl below
  | @step node parent chain member below listed above ih =>
      cases right with
      | top => exact absurd rfl below
      | @step _ second others _ _ secondListed secondAbove =>
          have same : second.index = parent.index :=
            arena.parent_unique _ _ node.index (once node.index)
              ((arena.links_iff second (secondAbove.member topMember) _).mpr secondListed)
              ((arena.links_iff parent (above.member topMember) _).mpr listed)
          have equal := arena.eq_of_index_eq second parent (secondAbove.member topMember)
            (above.member topMember) same
          subst equal
          rw [ih secondAbove]

theorem climb_rooted (arena : Arena) (table : ParentTable) (top node : Node) (topMember : top ∈ arena.nodes)
    (member : node ∈ arena.nodes) (rooted : Rooted arena table top.index node.index) :
    ∃ chain, arena.Ascent top node chain ∧
      ∀ steps, chain.length < steps → arena.climb table top steps node = .ok chain := by
  generalize position : node.index = index at rooted
  induction rooted generalizing node with
  | top =>
      have same := arena.eq_of_index_eq node top member topMember position
      subst same
      refine ⟨[], .top, ?_⟩
      intro steps enough
      cases steps with
      | zero => cases enough
      | succ steps => simp [climb, pure, Except.pure]
  | @child index parent below recorded linked above ih =>
      subst position
      obtain ⟨upper, upperMember, rfl, listed⟩ := linked
      obtain ⟨chain, ascent, climbs⟩ := ih upper upperMember rfl
      have apart : node ≠ top := fun same => below (by rw [same])
      refine ⟨node :: chain, .step member apart listed ascent, ?_⟩
      intro steps enough
      cases steps with
      | zero => cases enough
      | succ steps =>
          have found := arena.node_index upper upperMember
          have higher := climbs steps (by simpa using enough)
          simp [climb, below, recorded, found, higher, bind, Except.bind, pure, Except.pure]

/-- What the climb from a node yields: the distinct nodes of a way up to the top, which is the only
one if every position is listed at most once. -/
def Traceable (arena : Arena) (table : ParentTable) (top node : Node) : Prop :=
  ∃ chain, arena.ancestors table node top = .ok chain ∧ arena.Ascent top node chain ∧ chain.Nodup ∧
    (∀ step ∈ chain, arena.Reaches top.index step.index) ∧
    ((∀ index, arena.listings index ≤ 1) → ∀ other, arena.Ascent top node other → other = chain)

theorem traceable_of_rooted (arena : Arena) (acyclic : arena.Acyclic) (table : ParentTable)
    (top node : Node) (topMember : top ∈ arena.nodes) (member : node ∈ arena.nodes)
    (rooted : Rooted arena table top.index node.index) : arena.Traceable table top node := by
  obtain ⟨chain, ascent, climbs⟩ := arena.climb_rooted table top node topMember member rooted
  have distinct := ascent.nodup acyclic topMember
  have between := (ascent.between topMember).2
  -- The steps of a climb suffice, since its nodes are distinct.
  have short : chain.length ≤ arena.nodes.length :=
    distinct.length_le_of_subset fun step inside => (between step inside).1
  have size : arena.nodes.length = arena.size := by simp [nodes, Arena.size]
  refine ⟨chain, climbs _ (by omega), ascent, distinct, fun step inside => (between step inside).2.1, ?_⟩
  intro once other otherAscent
  exact ascent.unique topMember once otherAscent

/-- Observing a run changes nothing about it and finds one call for each node, in order. -/
theorem attendAll_observed (visit : Visitor σ) (nodes : List Node) (walk after : Walk σ)
    (calls : List (Node × ParentTable)) (run : attendAll visit nodes walk = .ok () after) :
    ∃ later, attendAll visit.observed nodes ⟨walk.parents, walk.state, calls⟩ =
        .ok () ⟨after.parents, after.state, calls ++ later⟩ ∧ later.map Prod.fst = nodes := by
  induction nodes generalizing walk calls with
  | nil =>
      obtain ⟨_, rfl⟩ := EStateM.Result.ok.inj run
      exact ⟨[], by simp [attendAll_nil], rfl⟩
  | cons node rest ih =>
      rw [attendAll_cons] at run
      cases called : visit node walk with
      | error fault failed => simp [called] at run
      | ok _ visited =>
          simp only [called] at run
          obtain ⟨later, observed, order⟩ := ih _ (calls ++ [(node, walk.parents)]) run
          refine ⟨(node, walk.parents) :: later, ?_, by rw [List.map_cons, order]⟩
          rw [attendAll_cons]
          simpa [Visitor.observed, called] using observed

/-- Ancestry is available and real throughout a walk. Whatever the table held before, each call of the
visitor finds the line of its node in the table of that moment. Only the visitor can stop a walk; one
that finishes has called the visitor for the whole pre-order and leaves the line of every reached node.
The visitor is free to write into the table as long as it uproots nobody. -/
theorem walk_ancestry (arena : Arena) (sound : arena.Sound) (start : Node) (member : start ∈ arena.nodes)
    {σ : Type} (visit : Visitor σ) (keeps : visit.Keeps arena start.index) (table : ParentTable)
    (state : σ) :
    (∀ call ∈ (Walk.settled (arena.walk visit.observed start ⟨table, state, []⟩)).state.2,
        arena.Traceable call.2 start call.1) ∧
      ((∀ node walk, ∃ after, visit node walk = .ok () after) →
        ∃ after, arena.walk visit start ⟨table, state⟩ = .ok () after) ∧
      ∀ after, arena.walk visit start ⟨table, state⟩ = .ok () after →
        (∃ calls, arena.walk visit.observed start ⟨table, state, []⟩ =
            .ok () ⟨after.parents, after.state, calls⟩ ∧
          calls.map Prod.fst = arena.preorder sound.acyclic start.index) ∧
        ∀ node ∈ arena.nodes, arena.Reaches start.index node.index →
          arena.Traceable after.parents start node := by
  refine ⟨?_, ?_, ?_⟩
  · intro call made
    obtain ⟨callMember, line⟩ := arena.walkStack_calls sound visit start.index keeps _
      ⟨table, state, []⟩ (arena.rootedStack_start start member table _ .top) (List.forall_mem_nil _) call made
    exact arena.traceable_of_rooted sound.acyclic call.2 start call.1 member callMember line
  · intro total
    rw [arena.walk_eq_attendAll sound visit start member]
    exact attendAll_total visit total _ _
  · intro after run
    constructor
    · have attended := run
      rw [arena.walk_eq_attendAll sound visit start member] at attended
      obtain ⟨calls, observed, order⟩ := attendAll_observed visit _ _ after [] attended
      refine ⟨calls, ?_, order⟩
      rw [arena.walk_eq_attendAll sound visit.observed start member, observed]
      rfl
    · intro node nodeMember reached
      have line := (arena.walk_roots sound visit start.index keeps start member _ after .top run).2
        node.index reached
      exact arena.traceable_of_rooted sound.acyclic after.parents start node member nodeMember line

def astray : ParentTable :=
  (ParentTable.empty.set 3 4).set 4 3

theorem doubled_ancestry :
    doubled.ancestors astray (doubled.nodes.getD 4 doubled.root) doubled.root = .error .endless ∧
      (∀ call ∈ (Walk.settled (doubled.walk Visitor.note.observed doubled.root ⟨astray, #[], []⟩)).state.2,
        doubled.Traceable call.2 doubled.root call.1) ∧
      ∃ after, doubled.walk Visitor.note doubled.root ⟨astray, #[]⟩ = .ok () after ∧
        ∀ node ∈ doubled.nodes, doubled.Reaches 0 node.index →
          doubled.Traceable after.parents doubled.root node := by
  obtain ⟨called, total, finished⟩ := walk_ancestry doubled doubled_sound doubled.root doubled.root_mem
    Visitor.note (Visitor.note_silent.keeps doubled 0) astray #[]
  obtain ⟨after, run⟩ := total fun _ _ => ⟨_, rfl⟩
  refine ⟨?_, called, after, run, (finished after run).2⟩
  cbv

end Arena

end ScriptMetrics
