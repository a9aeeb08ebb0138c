/-!
Parsed scripts as arenas. An arena is a non-empty row of items; an item names its children and
its grammar fields by position, so links may be shared between parents or point past the end.
A node is an item together with its own position.
-/

namespace ScriptMetrics

inductive Fault where
  /-- A link points past the end of the arena. -/
  | outOfRange
  /-- Following links never comes to an end. -/
  | endless
deriving DecidableEq, Repr

/-- What a node says about itself: its grammar kind, its lines (counted from one), its links, and
the source text or operator it carries, if its kind has one. -/
structure Item where
  kind : String
  firstLine : Int := 1
  lastLine : Int := 1
  children : List Nat := []
  fields : List (String × List Nat) := []
  text : Option String := none
  operator : Option String := none
deriving DecidableEq, Repr

structure Node extends Item where
  index : Nat
deriving DecidableEq, Repr

namespace Node

def isLeaf (node : Node) : Bool :=
  node.children.isEmpty

def fieldIndex? (node : Node) (name : String) : Option Nat :=
  (node.fields.lookup name).bind List.head?

end Node

/-- A parsed script, its root at position zero. -/
structure Arena where
  items : Array Item
  hasErrors : Bool := false
  hasRoot : 0 < items.size

namespace Arena

/-- An arena needs at least a root. -/
def ofItems? (items : Array Item) (hasErrors : Bool) : Option Arena :=
  if hasRoot : 0 < items.size then some { items, hasErrors, hasRoot } else none

def size (arena : Arena) : Nat :=
  arena.items.size

def node? (arena : Arena) (index : Nat) : Option Node :=
  arena.items[index]?.map fun item => { item with index }

/-- The node at a position; a position past the end is a fault. -/
def node (arena : Arena) (index : Nat) : Except Fault Node :=
  match arena.node? index with
  | some found => .ok found
  | none => .error .outOfRange

def root (arena : Arena) : Node :=
  have := arena.hasRoot
  { arena.items[0] with index := 0 }

def nodes (arena : Arena) : List Node :=
  arena.items.toList.mapIdx fun index item => { item with index }

/-- The children of a node that lie inside the arena. -/
def inner (arena : Arena) (node : Node) : List Node :=
  node.children.filterMap arena.node?

/-- The children of a node, all of which have to lie inside the arena. -/
def children (arena : Arena) (node : Node) : Except Fault (List Node) :=
  node.children.mapM arena.node

def firstChild? (arena : Arena) (node : Node) : Except Fault (Option Node) :=
  node.children.head?.mapM arena.node

def field? (arena : Arena) (node : Node) (name : String) : Except Fault (Option Node) :=
  (node.fieldIndex? name).mapM arena.node

theorem getElem?_nodes (arena : Arena) (index : Nat) : arena.nodes[index]? = arena.node? index := by
  simp [nodes, node?]

theorem index_of_node? (arena : Arena) (index : Nat) (node : Node)
    (found : arena.node? index = some node) : node.index = index := by
  obtain ⟨item, _, same⟩ := Option.map_eq_some_iff.mp found
  rw [← same]

theorem mem_nodes (arena : Arena) (node : Node) :
    node ∈ arena.nodes ↔ arena.node? node.index = some node := by
  rw [List.mem_iff_getElem?]
  constructor
  · rintro ⟨index, found⟩
    rw [getElem?_nodes] at found
    rwa [arena.index_of_node? index node found]
  · intro found
    exact ⟨node.index, by rwa [getElem?_nodes]⟩

theorem root_mem (arena : Arena) : arena.root ∈ arena.nodes := by
  rw [mem_nodes]
  simp [root, node?, Array.getElem?_eq_getElem arena.hasRoot]

theorem node_index (arena : Arena) (node : Node) (member : node ∈ arena.nodes) :
    arena.node node.index = .ok node := by
  rw [Arena.node, (arena.mem_nodes node).mp member]

theorem node?_eq_none (arena : Arena) (index : Nat) : arena.node? index = none ↔ arena.size ≤ index := by
  simp [node?, size]

theorem items_of_nodes (arena : Arena) : arena.nodes.map Node.toItem = arena.items.toList := by
  apply List.ext_getElem?
  intro index
  rw [List.getElem?_map, getElem?_nodes, node?, Option.map_map]
  simp [Function.comp_def]

end Arena

end ScriptMetrics
