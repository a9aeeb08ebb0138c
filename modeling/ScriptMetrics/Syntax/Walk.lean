import ScriptMetrics.Syntax.Arena
import ScriptMetrics.Syntax.ParentTable

/-!
Depth-first walks. A walk keeps a stack of pending nodes: it hands the top one to the visitor,
then records that node as the parent of each of its children, last child first, and pushes them,
so that the first child is visited next. The visitor sees and may change the parent table.

Every pending node also carries how many levels a walk may still go down from it. A walk starts
with as many levels as the arena has nodes, more than any path without repetition needs; running
out of levels means that some node is its own descendant.
-/

namespace ScriptMetrics

structure Walk (σ : Type) where
  parents : ParentTable
  state : σ

/-- What is done at each node. Where a fault stops it, the walk's last state is kept. -/
abbrev Visitor (σ : Type) := Node → EStateM Fault (Walk σ) Unit

namespace Visitor

def note : Visitor (Array Node) := fun node =>
  modify fun walk => { walk with state := walk.state.push node }

end Visitor

/-- A node waiting for its visit, and the levels left below and including it. -/
structure Pending where
  node : Node
  levels : Nat

namespace Arena

variable {σ : Type}

/-- How many nodes a walk of so many levels meets below and including a node. -/
def effort (arena : Arena) : Nat → Node → Nat
  | 0, _ => 1
  | levels + 1, node =>
      1 + (arena.inner node).foldr (fun child others => arena.effort levels child + others) 0

def stackEffort (arena : Arena) : List Pending → Nat
  | [] => 0
  | pending :: rest => arena.effort pending.levels pending.node + arena.stackEffort rest

theorem stackEffort_append (arena : Arena) (levels : Nat) (nodes : List Node) (rest : List Pending) :
    arena.stackEffort (nodes.map (⟨·, levels⟩) ++ rest) =
      nodes.foldr (fun child others => arena.effort levels child + others) 0 + arena.stackEffort rest := by
  induction nodes with
  | nil => simp
  | cons node nodes ih => simp [stackEffort, ih, Nat.add_assoc]

/-- Records a parent for each of the given children in turn and pushes them. A child past the end
of the arena is still recorded before it stops the walk. -/
def link (arena : Arena) (parent levels : Nat) :
    List Nat → List Pending → EStateM Fault ParentTable (List Pending)
  | [], stack, table => .ok stack table
  | child :: rest, stack, table =>
      match arena.node? child with
      | none => .error .outOfRange (table.set child parent)
      | some node => arena.link parent levels rest (⟨node, levels⟩ :: stack) (table.set child parent)

theorem link_eq_ok (arena : Arena) (parent levels : Nat) (children : List Nat)
    (stack next : List Pending) (table after : ParentTable)
    (linked : arena.link parent levels children stack table = .ok next after) :
    next = (children.reverse.filterMap arena.node?).map (⟨·, levels⟩) ++ stack := by
  induction children generalizing stack table with
  | nil => simp_all [link]
  | cons child rest ih =>
      simp only [link] at linked
      split at linked
      · cases linked
      · next node found =>
          rw [ih _ _ linked]
          simp [found]

theorem stackEffort_link (arena : Arena) (node : Node) (levels : Nat) (rest next : List Pending)
    (table after : ParentTable)
    (linked : arena.link node.index levels node.children.reverse rest table = .ok next after) :
    arena.stackEffort next < arena.stackEffort (⟨node, levels + 1⟩ :: rest) := by
  rw [link_eq_ok arena _ _ _ _ _ _ _ linked, List.reverse_reverse, stackEffort_append]
  simp only [stackEffort, effort, inner]
  omega

def walkStack (arena : Arena) (visit : Visitor σ) :
    List Pending → EStateM Fault (Walk σ) Unit
  | [], walk => .ok () walk
  | ⟨_, 0⟩ :: _, walk => .error .endless walk
  | ⟨node, levels + 1⟩ :: rest, walk =>
      match visit node walk with
      | .error fault walk => .error fault walk
      | .ok _ walk =>
          match _linked : arena.link node.index levels node.children.reverse rest walk.parents with
          | .error fault parents => .error fault { walk with parents }
          | .ok next parents => arena.walkStack visit next { walk with parents }
termination_by stack => arena.stackEffort stack
decreasing_by exact arena.stackEffort_link node levels rest next _ _ _linked

def walk (arena : Arena) (visit : Visitor σ) (start : Node) : EStateM Fault (Walk σ) Unit :=
  arena.walkStack visit [⟨start, arena.size⟩]

def visits (arena : Arena) (start : Node) : Except Fault (List Node) :=
  match arena.walk Visitor.note start ⟨.empty, #[]⟩ with
  | .ok _ walk => .ok walk.state.toList
  | .error fault _ => .error fault

/-- A node and its recorded ancestors up to but excluding the stop. A node without a recorded
parent ends the climb early. -/
def climb (arena : Arena) (parents : ParentTable) (stop : Node) : Nat → Node → Except Fault (List Node)
  | 0, _ => .error .endless
  | steps + 1, node => do
      if node.index = stop.index then
        return []
      match parents.parent? node.index with
      | none => return [node]
      | some parent =>
          let above ← arena.climb parents stop steps (← arena.node parent)
          return node :: above

/-- The climb from a node to the stop. As no node of an arena comes twice on a climb that ends,
one step more than the arena has nodes is enough. -/
def ancestors (arena : Arena) (parents : ParentTable) (node stop : Node) : Except Fault (List Node) :=
  arena.climb parents stop (arena.size + 1) node

end Arena

end ScriptMetrics
