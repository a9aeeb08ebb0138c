import Mathlib.Data.Finset.Image
import ScriptMetrics.Proofs.Composition

/-!
Vocabularies up to renaming. Putting other words for the texts and operators of an arena changes no kind,
no link and no position, so the same nodes are met below each position, under their new words. Operators
and names share one vocabulary; a renaming may merge words of either sort and never splits one.
-/

namespace ScriptMetrics

/-- The item with other words for its text and its operator. -/
def Item.renamed (rename : String → String) (item : Item) : Item :=
  { item with text := item.text.map rename, operator := item.operator.map rename }

/-- The renamed node stays where it is. -/
def Node.renamed (rename : String → String) (node : Node) : Node :=
  { node.toItem.renamed rename with index := node.index }

namespace Arena

def renamed (rename : String → String) (arena : Arena) : Arena where
  items := arena.items.map (Item.renamed rename)
  hasErrors := arena.hasErrors
  hasRoot := by simpa using arena.hasRoot

/-- A word is spoken below a position if the node there, or one below it, adds it to the vocabulary. -/
def Speaks (arena : Arena) (index : Nat) (word : String) : Prop :=
  ∃ node ∈ arena.nodes, arena.Reaches index node.index ∧ node.symbol? = some word

section Shape

variable (arena : Arena) (rename : String → String)

theorem size_renamed : (arena.renamed rename).size = arena.size := by
  simp [size, renamed]

theorem node?_renamed (index : Nat) :
    (arena.renamed rename).node? index = (arena.node? index).map (Node.renamed rename) := by
  simp only [node?, renamed, Array.getElem?_map, Option.map_map]
  rfl

theorem nodes_renamed : (arena.renamed rename).nodes = arena.nodes.map (Node.renamed rename) := by
  apply List.ext_getElem?
  intro index
  rw [List.getElem?_map, getElem?_nodes, getElem?_nodes, node?_renamed]

theorem links_renamed (parent child : Nat) :
    (arena.renamed rename).Links parent child ↔ arena.Links parent child := by
  unfold Links
  rw [nodes_renamed]
  constructor
  · rintro ⟨_, member, position, listed⟩
    obtain ⟨node, inside, rfl⟩ := List.mem_map.mp member
    exact ⟨node, inside, position, listed⟩
  · rintro ⟨node, inside, position, listed⟩
    exact ⟨node.renamed rename, List.mem_map_of_mem inside, position, listed⟩

variable {arena}

theorem Sound.renamed (sound : arena.Sound) : (arena.renamed rename).Sound where
  inside node member child listed := by
    rw [nodes_renamed] at member
    obtain ⟨old, inside, rfl⟩ := List.mem_map.mp member
    rw [size_renamed]
    exact sound.inside old inside child listed
  acyclic index cycle :=
    sound.acyclic index (Relation.TransGen.mono (fun _ _ => (arena.links_renamed rename _ _).mp) _ _ cycle)

theorem preorder_renamed (acyclic : arena.Acyclic) (acyclicRenamed : (arena.renamed rename).Acyclic)
    (index : Nat) :
    (arena.renamed rename).preorder acyclicRenamed index =
      (arena.preorder acyclic index).map (Node.renamed rename) := by
  induction index using acyclic.descent with
  | step index ih =>
      have renamed := arena.node?_renamed rename index
      cases found : arena.node? index with
      | none =>
          rw [found] at renamed
          rw [preorder_outside _ _ _ found, preorder_outside _ _ _ renamed, List.map_nil]
      | some node =>
          rw [found] at renamed
          rw [preorder_node? _ _ _ _ found, preorder_node? _ _ _ _ renamed, List.map_cons, List.map_flatMap]
          refine congrArg _ (List.flatMap_congr ?_)
          intro child listed
          exact ih child (arena.links_of_node? index child node found listed)

end Shape

section Words

variable {arena : Arena} {rename : String → String} (blank : ∀ word, rename word = "" ↔ word = "")

theorem mem_vocabulary (acyclic : arena.Acyclic) (index : Nat) (word : String) :
    word ∈ arena.vocabulary acyclic index ↔ arena.Speaks index word := by
  simp only [vocabulary, List.mem_toFinset, List.mem_filterMap, mem_preorder, Speaks, and_assoc]

theorem vocabulary_eq_empty_iff (acyclic : arena.Acyclic) (index : Nat) :
    arena.vocabulary acyclic index = ∅ ↔
      ∀ node ∈ arena.nodes, arena.Reaches index node.index → node.symbol? = none := by
  simp only [vocabulary, List.toFinset_eq_empty_iff, List.filterMap_eq_nil_iff, mem_preorder, and_imp]

include blank

theorem filter_renamed (word? : Option String) :
    (word?.map rename).filter (· ≠ "") = (word?.filter (· ≠ "")).map rename := by
  cases word? with
  | none => rfl
  | some word => by_cases empty : word = "" <;> simp [Option.filter, blank, empty]

theorem symbol?_renamed (node : Node) : (node.renamed rename).symbol? = node.symbol?.map rename := by
  unfold Node.symbol?
  simp only [Node.renamed, Item.renamed, filter_renamed blank]
  split <;> split <;> simp [Option.map_or]

/-- The words below a position are the new words for those that were there. -/
theorem vocabulary_renamed (acyclic : arena.Acyclic) (acyclicRenamed : (arena.renamed rename).Acyclic)
    (index : Nat) :
    (arena.renamed rename).vocabulary acyclicRenamed index =
      (arena.vocabulary acyclic index).image rename := by
  have spoken : Node.symbol? ∘ Node.renamed rename = fun node => node.symbol?.map rename :=
    funext (symbol?_renamed blank)
  unfold vocabulary
  rw [preorder_renamed rename acyclic, List.filterMap_map, spoken, ← List.map_filterMap]
  ext word
  simp

theorem Sound.halstead_renamed_eq (sound : arena.Sound) {function : Node} (member : function ∈ arena.nodes) :
    (arena.renamed rename).halstead (function.renamed rename) =
      .ok (((arena.vocabulary sound.acyclic function.index).image rename).card - 1) := by
  have renamed := sound.renamed rename
  have inside : function.renamed rename ∈ (arena.renamed rename).nodes := by
    rw [nodes_renamed]
    exact List.mem_map_of_mem member
  rw [← vocabulary_renamed blank sound.acyclic renamed.acyclic]
  exact renamed.halstead_eq inside

end Words

/-- Vocabularies are counted up to renaming. A renaming that keeps the empty word, and makes no other word
empty, never makes a vocabulary larger, and it leaves the count alone just if it tells apart the words spoken
at or below the function. No count is below minus one, and it is minus one just if nothing there adds a word. -/
theorem halstead_renamed (arena : Arena) (sound : arena.Sound) (function : Node)
    (member : function ∈ arena.nodes) (rename : String → String)
    (blank : ∀ word, rename word = "" ↔ word = "") :
    ∃ count after, arena.halstead function = .ok count ∧
      (arena.renamed rename).halstead (function.renamed rename) = .ok after ∧
      after ≤ count ∧
      (after = count ↔ Set.InjOn rename {word | arena.Speaks function.index word}) ∧
      -1 ≤ count ∧
      (count = -1 ↔
        ∀ node ∈ arena.nodes, arena.Reaches function.index node.index → node.symbol? = none) := by
  have spoken : {word | arena.Speaks function.index word} = arena.vocabulary sound.acyclic function.index :=
    Set.ext fun word => (mem_vocabulary sound.acyclic function.index word).symm
  have fewer := Finset.card_image_le (s := arena.vocabulary sound.acyclic function.index) (f := rename)
  refine ⟨_, _, sound.halstead_eq member, sound.halstead_renamed_eq blank member, ?_, ?_, ?_, ?_⟩
  · omega
  · rw [spoken, ← Finset.card_image_iff]
    omega
  · omega
  · rw [← vocabulary_eq_empty_iff sound.acyclic, ← Finset.card_eq_zero]
    omega

/-- Calls the operator of the test in `shared` by the name of a list. -/
def merging (word : String) : String :=
  if word = "&&" then "list" else word

/-- A declaration whose name and whose operator, listed twice, are empty. -/
def wordless : Arena where
  items := #[
    { kind := "function_declaration", children := [1, 2, 2], fields := [("name", [1])] },
    { kind := "identifier", text := some "" },
    { kind := "binary_expression", operator := some "" }]
  hasRoot := by decide

theorem wordless_sound : wordless.Sound where
  inside := by decide
  acyclic := wordless.acyclic_of_forward (by decide)

theorem merging_renamed :
    shared.halstead shared.root = .ok 3 ∧
      (shared.renamed merging).halstead (shared.root.renamed merging) = .ok 2 ∧
      ¬ Set.InjOn merging {word | shared.Speaks 0 word} ∧
      wordless.halstead wordless.root = .ok (-1) := by
  have blank : ∀ word, merging word = "" ↔ word = "" := by
    intro word
    unfold merging
    split
    · next operator => simp [operator]
    · rfl
  have original : shared.halstead shared.root = .ok 3 := by decide +kernel
  have merged : (shared.renamed merging).halstead (shared.root.renamed merging) = .ok 2 := by decide +kernel
  refine ⟨original, merged, ?_, ?_⟩
  · obtain ⟨count, after, counted, recounted, _, same, _⟩ :=
      halstead_renamed shared shared_complete.toSound shared.root shared.root_mem merging blank
    obtain rfl := Except.ok.inj (counted.symm.trans original)
    obtain rfl := Except.ok.inj (recounted.symm.trans merged)
    exact mt same.mpr (by decide)
  · obtain ⟨count, _, counted, _, _, _, _, silent⟩ :=
      halstead_renamed wordless wordless_sound wordless.root wordless.root_mem merging blank
    have none : ∀ node ∈ wordless.nodes, node.symbol? = none := by decide
    rw [counted, silent.mpr fun node member _ => none node member]

end Arena

end ScriptMetrics
