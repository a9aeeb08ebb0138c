import ScriptMetrics.Proofs.Collection
import ScriptMetrics.Proofs.Unfolding

/-!
Likeness of nodes in two arenas. Two nodes are alike if they unfold to the same outline, wherever they
stand and whatever surrounds them. Every measure follows links, fields and recorded parents by
position, and the positions of two arenas have nothing to do with each other; still each step of a
measure leads from alike nodes to alike nodes, so that alike nodes get the same record.
-/

namespace ScriptMetrics

section Agreement

variable {α β γ δ : Type} {R : α → β → Prop} {S : γ → δ → Prop}

/-- Two computations both have results, and the results are related. -/
def Agree (R : α → β → Prop) (left : Except Fault α) (right : Except Fault β) : Prop :=
  ∃ a b, left = .ok a ∧ right = .ok b ∧ R a b

theorem Agree.pure {a : α} {b : β} (related : R a b) : Agree R (Pure.pure a) (Pure.pure b) :=
  ⟨a, b, rfl, rfl, related⟩

theorem Agree.bind {left : Except Fault α} {right : Except Fault β} {f : α → Except Fault γ}
    {g : β → Except Fault δ} (agree : Agree R left right)
    (next : ∀ a b, R a b → Agree S (f a) (g b)) : Agree S (left >>= f) (right >>= g) := by
  obtain ⟨a, b, rfl, rfl, related⟩ := agree
  exact next a b related

theorem Agree.eq {left right : Except Fault α} (agree : Agree Eq left right) : left = right := by
  obtain ⟨a, b, rfl, rfl, rfl⟩ := agree
  rfl

theorem Agree.mapM {f : α → Except Fault γ} {g : β → Except Fault δ} {left : List α} {right : List β}
    (related : List.Forall₂ R left right) (each : ∀ a b, R a b → Agree S (f a) (g b)) :
    Agree (List.Forall₂ S) (left.mapM f) (right.mapM g) := by
  induction related with
  | nil => exact .pure .nil
  | cons first _ ih =>
      rw [List.mapM_cons, List.mapM_cons]
      refine (each _ _ first).bind fun a b head => ?_
      refine ih.bind fun as bs tail => ?_
      exact .pure (.cons head tail)

theorem Agree.optionMapM {f : α → Except Fault γ} {g : β → Except Fault δ} {left : Option α}
    {right : Option β} (related : Option.Rel R left right)
    (each : ∀ a b, R a b → Agree S (f a) (g b)) :
    Agree (Option.Rel S) (left.mapM f) (right.mapM g) := by
  cases related with
  | none => exact .pure .none
  | some first =>
      obtain ⟨a, b, fetched, other, found⟩ := each _ _ first
      refine ⟨some a, some b, ?_, ?_, .some found⟩
      · rw [Option.mapM_some, fetched]
        rfl
      · rw [Option.mapM_some, other]
        rfl

end Agreement

namespace Label

def bare (label : Label) : Node :=
  { label.item [] with index := 0 }

end Label

namespace Draft

theorem Indexes.fieldIndex? {node : Node} {links : List (Nat × Option String)}
    (indexes : Indexes node.fields links) (name : String) :
    node.fieldIndex? name = if name = "" then none else (filling links name).head? := by
  unfold Node.fieldIndex?
  rw [indexes.lookup]
  by_cases blank : name = ""
  · simp [blank]
  · by_cases empty : filling links name = [] <;> simp [blank, empty]

end Draft

namespace Arena

/-- Two positions that unfold to one outline. -/
def AlikeAt (left right : Arena) (i j : Nat) : Prop :=
  ∃ outline, left.Unfolds i outline ∧ right.Unfolds j outline

structure Alike (left right : Arena) (l r : Node) : Prop where
  leftMember : l ∈ left.nodes
  rightMember : r ∈ right.nodes
  unfolds : left.AlikeAt right l.index r.index

/-- A node of the one arena with its counterpart in the other: they carry the same label, and their
children are alike in order and fill the same fields. -/
structure Counterparts (left right : Arena) (l r : Node) (fields : List (Option String)) : Prop where
  label : l.label = r.label
  children : List.Forall₂ (left.AlikeAt right) l.children r.children
  leftFields : Draft.Indexes l.fields (l.children.zip fields)
  rightFields : Draft.Indexes r.fields (r.children.zip fields)

theorem Alike.counterparts {left right : Arena} {l r : Node} (alike : left.Alike right l r) :
    ∃ fields, left.Counterparts right l r fields := by
  obtain ⟨outline, leftUnfolds, rightUnfolds⟩ := alike.unfolds
  cases leftUnfolds with
  | @node _ _ _ parts l' leftFound leftLabel leftIndexed leftBelow =>
      cases rightUnfolds with
      | node r' rightFound rightLabel rightIndexed rightBelow =>
          rw [(left.mem_nodes l).mp alike.leftMember] at leftFound
          rw [(right.mem_nodes r).mp alike.rightMember] at rightFound
          cases leftFound
          cases rightFound
          exact ⟨parts.map Outline.field, leftLabel.trans rightLabel.symm,
            forall₂_join leftBelow rightBelow, leftIndexed, rightIndexed⟩

theorem index_of_node (arena : Arena) {index : Nat} (node : Node) (found : arena.node index = .ok node) :
    node.index = index := by
  unfold Arena.node at found
  split at found
  · next other located =>
      cases found
      exact arena.index_of_node? index node located
  · cases found

theorem AlikeAt.nodes {left right : Arena} {i j : Nat} (alike : left.AlikeAt right i j) :
    Agree (left.Alike right) (left.node i) (right.node j) := by
  obtain ⟨outline, leftUnfolds, rightUnfolds⟩ := id alike
  cases leftUnfolds with
  | node l leftFound _ _ _ =>
      cases rightUnfolds with
      | node r rightFound _ _ _ =>
          have leftIndex := left.index_of_node? i l leftFound
          have rightIndex := right.index_of_node? j r rightFound
          subst leftIndex rightIndex
          have leftMember := (left.mem_nodes l).mpr leftFound
          have rightMember := (right.mem_nodes r).mpr rightFound
          exact ⟨l, r, left.node_index l leftMember, right.node_index r rightMember,
            leftMember, rightMember, alike⟩

section Alike

variable {left right : Arena} {l r : Node}

theorem Alike.label (alike : left.Alike right l r) : l.label = r.label := by
  obtain ⟨_, counterparts⟩ := alike.counterparts
  exact counterparts.label

-- What a node is, links and position apart, reads off its label and so off its counterpart's.
theorem Alike.reads {α : Type} (alike : left.Alike right l r) (f : Node → α)
    (labelled : ∀ node, f node = f node.label.bare) : f l = f r := by
  rw [labelled l, labelled r, alike.label]

theorem Alike.childCount (alike : left.Alike right l r) : l.children.length = r.children.length := by
  obtain ⟨_, counterparts⟩ := alike.counterparts
  exact counterparts.children.length_eq

theorem Alike.isLeaf (alike : left.Alike right l r) : l.isLeaf = r.isLeaf := by
  have same := alike.childCount
  rw [Bool.eq_iff_iff]
  simp only [Node.isLeaf, List.isEmpty_iff_length_eq_zero, same]

theorem filling_alike {is js : List Nat} (children : List.Forall₂ (left.AlikeAt right) is js)
    (fields : List (Option String)) (name : String) :
    List.Forall₂ (left.AlikeAt right) (Draft.filling (is.zip fields) name)
      (Draft.filling (js.zip fields) name) := by
  induction children generalizing fields with
  | nil => exact .nil
  | cons first _ ih =>
      cases fields with
      | nil => exact .nil
      | cons field rest =>
          have tail := ih rest
          unfold Draft.filling at tail ⊢
          rw [List.zip_cons_cons, List.zip_cons_cons, List.filter_cons, List.filter_cons]
          by_cases fills : field == some name
          · simp only [fills, ↓reduceIte, List.map_cons]
            exact .cons first tail
          · simp only [fills, Bool.false_eq_true, ↓reduceIte]
            exact tail

theorem head?_alike {is js : List Nat} (children : List.Forall₂ (left.AlikeAt right) is js) :
    Option.Rel (left.AlikeAt right) is.head? js.head? := by
  cases children with
  | nil => exact .none
  | cons first _ => exact .some first

theorem Alike.field? (alike : left.Alike right l r) (name : String) :
    Agree (Option.Rel (left.Alike right)) (left.field? l name) (right.field? r name) := by
  obtain ⟨fields, counterparts⟩ := alike.counterparts
  refine Agree.optionMapM ?_ fun i j => AlikeAt.nodes
  rw [counterparts.leftFields.fieldIndex?, counterparts.rightFields.fieldIndex?]
  by_cases blank : name = ""
  · rw [if_pos blank, if_pos blank]
    exact .none
  · rw [if_neg blank, if_neg blank]
    exact head?_alike (filling_alike counterparts.children fields name)

theorem Alike.firstChild? (alike : left.Alike right l r) :
    Agree (Option.Rel (left.Alike right)) (left.firstChild? l) (right.firstChild? r) := by
  obtain ⟨_, counterparts⟩ := alike.counterparts
  exact Agree.optionMapM (head?_alike counterparts.children) fun i j => AlikeAt.nodes

theorem Alike.children (alike : left.Alike right l r) :
    Agree (List.Forall₂ (left.Alike right)) (left.children l) (right.children r) := by
  obtain ⟨_, counterparts⟩ := alike.counterparts
  exact Agree.mapM counterparts.children fun i j => AlikeAt.nodes

end Alike

/-- Alike nodes, each reached from a top of its own, with alike nodes on the way up. -/
structure Kin (left right : Arena) (top other l r : Node) : Prop where
  alike : left.Alike right l r
  lines : ∃ up down, left.Ascent top l up ∧ right.Ascent other r down ∧
    List.Forall₂ (left.Alike right) up down

section Kin

variable {left right : Arena} {top other l r : Node}

theorem Kin.start (alike : left.Alike right top other) : left.Kin right top other top other :=
  ⟨alike, [], [], .top, .top, .nil⟩

theorem Ascent.child {arena : Arena} (acyclic : arena.Acyclic) {top node child : Node} {chain : List Node}
    (topMember : top ∈ arena.nodes) (ascent : arena.Ascent top node chain)
    (member : child ∈ arena.nodes) (listed : child.index ∈ node.children) :
    arena.Ascent top child (child :: chain) := by
  refine .step member ?_ listed ascent
  rintro rfl
  -- The top would be a child of a node that is below it.
  have linked := (arena.links_iff node (ascent.member topMember) child.index).mpr listed
  exact acyclic child.index (.tail' (ascent.between topMember).1 linked)

theorem Kin.child (leftAcyclic : left.Acyclic) (rightAcyclic : right.Acyclic)
    (leftTop : top ∈ left.nodes) (rightTop : other ∈ right.nodes) (kin : left.Kin right top other l r)
    {c d : Node} (alike : left.Alike right c d) (leftListed : c.index ∈ l.children)
    (rightListed : d.index ∈ r.children) : left.Kin right top other c d := by
  obtain ⟨up, down, leftAscent, rightAscent, related⟩ := kin.lines
  exact ⟨alike, c :: up, d :: down, leftAscent.child leftAcyclic leftTop alike.leftMember leftListed,
    rightAscent.child rightAcyclic rightTop alike.rightMember rightListed, .cons alike related⟩

/-- What is below kin nodes in the one arena and in the other is kin, node by node in pre-order. -/
theorem Kin.preorder (leftAcyclic : left.Acyclic) (rightAcyclic : right.Acyclic)
    (leftTop : top ∈ left.nodes) (rightTop : other ∈ right.nodes) (kin : left.Kin right top other l r) :
    List.Forall₂ (left.Kin right top other) (left.preorder leftAcyclic l.index)
      (right.preorder rightAcyclic r.index) := by
  generalize position : l.index = index
  induction index using leftAcyclic.descent generalizing l r with
  | step index ih =>
      subst position
      rw [left.preorder_eq leftAcyclic l kin.alike.leftMember,
        right.preorder_eq rightAcyclic r kin.alike.rightMember]
      refine .cons kin ?_
      obtain ⟨_, counterparts⟩ := kin.alike.counterparts
      refine List.rel_flatMap (forall₂_mem counterparts.children) ?_
      rintro i j ⟨leftListed, rightListed, alike⟩
      obtain ⟨c, d, leftFound, rightFound, below⟩ := alike.nodes
      obtain rfl := left.index_of_node c leftFound
      obtain rfl := right.index_of_node d rightFound
      exact ih c.index ((left.links_iff l kin.alike.leftMember c.index).mpr leftListed)
        (kin.child leftAcyclic rightAcyclic leftTop rightTop below leftListed rightListed) rfl

end Kin

end Arena

end ScriptMetrics
