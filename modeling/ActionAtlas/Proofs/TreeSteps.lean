import ActionAtlas.Syntax.Builder

/-!
# What a step of the builder does to a tree

A step adds a node, puts the only child of a node in its place, or changes a hint. Each of the three
is a relation between the tree before and the tree after that says what became of kinds, spans,
parents and child lists; arguments about built trees look at these relations and never at the table.
-/

namespace ActionAtlas.Syntax

/-- The span of a node; a position outside the table has the empty span at the start. -/
def Tree.span (tree : Tree) (pos : Nat) : Span :=
  ((tree.node? pos).map (·.span)).getD ⟨0, 0⟩

def Builder.draft (builder : Builder) (filePath source : String) : Tree where
  filePath
  source
  nodes := builder.nodes

namespace Tree

/-- A node of the given kind and span was added as the last child of `outer`. -/
structure Entered (old new : Tree) (kind : Kind) (span : Span) (outer : Nat) : Prop where
  size_eq : new.nodes.size = old.nodes.size + 1
  kind_eq : ∀ pos, new.kind pos = if pos = old.nodes.size then kind else old.kind pos
  span_eq : ∀ pos, new.span pos = if pos = old.nodes.size then span else old.span pos
  parent_eq : ∀ pos,
    new.parent? pos = if pos = old.nodes.size then some outer else old.parent? pos
  children_eq : ∀ pos,
    new.children pos =
      if pos = outer then old.children pos ++ [old.nodes.size] else old.children pos

/-- The child `inner` took the place of `gone` below `outer`. -/
structure Contracted (old new : Tree) (gone outer inner : Nat) : Prop where
  size_eq : new.nodes.size = old.nodes.size
  kind_eq : ∀ pos, new.kind pos = old.kind pos
  span_eq : ∀ pos, new.span pos = old.span pos
  parent_eq : ∀ pos,
    new.parent? pos =
      if pos = gone then none else if pos = inner then some outer else old.parent? pos
  children_eq : ∀ pos,
    new.children pos =
      if pos = gone then []
      else if pos = outer then (old.children pos).map fun child => if child = gone then inner else child
      else old.children pos

/-- Nothing changed but hints. -/
structure Alike (old new : Tree) : Prop where
  size_eq : new.nodes.size = old.nodes.size
  kind_eq : ∀ pos, new.kind pos = old.kind pos
  span_eq : ∀ pos, new.span pos = old.span pos
  parent_eq : ∀ pos, new.parent? pos = old.parent? pos
  children_eq : ∀ pos, new.children pos = old.children pos

/-- A node that adds nothing: of no kind of interest, with one child, which has its own span. -/
def Wraps (tree : Tree) (pos inner : Nat) : Prop :=
  tree.kind pos = .other ∧ tree.children pos = [inner] ∧ tree.span inner = tree.span pos

theorem parent?_eq_none_of_size_le {tree : Tree} {pos : Nat} (h : tree.nodes.size ≤ pos) :
    tree.parent? pos = none := by
  simp [parent?, node?, Array.getElem?_eq_none h]

theorem lt_size_of_parent {tree : Tree} {pos outer : Nat} (h : tree.parent? pos = some outer) :
    pos < tree.nodes.size := by
  refine Nat.lt_of_not_le fun hout => ?_
  rw [parent?_eq_none_of_size_le hout] at h
  cases h

theorem children_eq_nil_of_size_le {tree : Tree} {pos : Nat} (h : tree.nodes.size ≤ pos) :
    tree.children pos = [] := by
  simp [children, node?, Array.getElem?_eq_none h]

end Tree

/-! ## The steps of the builder -/

namespace Builder

variable {builder : Builder} {filePath source : String}

theorem enter_entered (h : builder.innermost < builder.nodes.size) (kind : Kind) (span : Span) :
    (builder.draft filePath source).Entered ((builder.enter kind span).draft filePath source)
      kind span builder.innermost := by
  have hne : builder.innermost ≠ builder.nodes.size := Nat.ne_of_lt h
  constructor
  · simp [draft, enter]
  -- a read at any position: the new node, the node around it, or one that is as before
  all_goals
    intro pos
    simp only [draft, enter, Tree.kind, Tree.span, Tree.parent?, Tree.children, Tree.node?,
      Array.getElem?_modify, Array.getElem?_push]
    by_cases hpos : pos = builder.nodes.size
    · subst hpos
      simp [hne, hne.symm]
    · by_cases houter : pos = builder.innermost
      · subst houter
        simp [hpos, Array.getElem?_eq_getElem h]
      · simp [hpos, houter, Ne.symm houter]

theorem setHint_alike (pos : Nat) (text : String) :
    (builder.draft filePath source).Alike ((builder.setHint pos text).draft filePath source) := by
  constructor
  · simp [draft, setHint]
  all_goals
    intro place
    simp only [draft, setHint, Tree.kind, Tree.span, Tree.parent?, Tree.children, Tree.node?,
      Array.getElem?_modify]
    by_cases hat : pos = place
    · subst hat
      cases builder.nodes[pos]? <;> simp
    · simp [hat]

/-- Field by field, a change to one node is seen at its position only. -/
private theorem map_getElem?_modify {β : Type} (field : Node → β) (nodes : Array Node) (place pos : Nat)
    (change : Node → Node) :
    (nodes.modify place change)[pos]?.map field =
      if pos = place then nodes[pos]?.map fun node => field (change node)
      else nodes[pos]?.map field := by
  rw [Array.getElem?_modify]
  by_cases h : pos = place
  · simp [h, Function.comp_def]
  · simp [h, Ne.symm h]

theorem wrapped?_eq_some_iff {nodes : Array Node} {pos outer inner : Nat} :
    wrapped? nodes pos = some (outer, inner) ↔
      ∃ node, nodes[pos]? = some node ∧ node.kind = .other ∧ node.parent = some outer ∧
        node.children = [inner] ∧ nodes[inner]?.map (·.span) = some node.span := by
  constructor
  · intro h
    unfold wrapped? at h
    split at h
    · rename_i hnode
      split at h
      · rename_i hspan
        cases h
        exact ⟨_, hnode, rfl, rfl, rfl, hspan⟩
      · cases h
    · cases h
  · rintro ⟨⟨_, span, _, _, _, _⟩, hnode, rfl, rfl, rfl, hspan⟩
    simp only [wrapped?, hnode, hspan, if_true]

/-- Where children lie in the table, the nodes that are found to wrap another one are those that add
nothing. -/
theorem wrapped?_iff_wraps {pos outer inner : Nat}
    (hbound : ∀ child ∈ (builder.draft filePath source).children pos, child < builder.nodes.size) :
    wrapped? builder.nodes pos = some (outer, inner) ↔
      (builder.draft filePath source).parent? pos = some outer ∧
        (builder.draft filePath source).Wraps pos inner := by
  simp only [wrapped?_eq_some_iff, Tree.Wraps, draft, Tree.parent?, Tree.kind, Tree.span,
    Tree.children, Tree.node?] at hbound ⊢
  cases hnode : builder.nodes[pos]? with
  | none => simp
  | some node =>
      simp only [hnode, Option.some.injEq, exists_eq_left', Option.map_some, Option.getD_some,
        Option.bind_some] at hbound ⊢
      have hspan : node.children = [inner] →
          (builder.nodes[inner]?.map (·.span) = some node.span ↔
            (builder.nodes[inner]?.map (·.span)).getD ⟨0, 0⟩ = node.span) := by
        intro hchildren
        have hinner : inner < builder.nodes.size := hbound inner (by simp [hchildren])
        simp [Array.getElem?_eq_getElem hinner]
      constructor
      · rintro ⟨hkind, hparent, hchildren, hsame⟩
        exact ⟨hparent, hkind, hchildren, (hspan hchildren).mp hsame⟩
      · rintro ⟨hparent, hkind, hchildren, hsame⟩
        exact ⟨hkind, hparent, hchildren, (hspan hchildren).mpr hsame⟩

theorem contract_contracted {pos outer inner : Nat}
    (h : wrapped? builder.nodes pos = some (outer, inner)) :
    (builder.draft filePath source).Contracted
      (({ builder with nodes := contract builder.nodes pos }).draft filePath source)
      pos outer inner := by
  obtain ⟨_, _, _, _, _, hinner⟩ := wrapped?_eq_some_iff.mp h
  obtain ⟨child, hchild, _⟩ := Option.map_eq_some_iff.mp hinner
  have bind_parent : ∀ found : Option Node, found.bind (·.parent) = (found.map (·.parent)).join := by
    intro found
    cases found <;> rfl
  constructor
  · simp [draft, contract, h]
  · intro place
    simp only [draft, contract, h, Tree.kind, Tree.node?, map_getElem?_modify, ite_self]
  · intro place
    simp only [draft, contract, h, Tree.span, Tree.node?, map_getElem?_modify, ite_self]
  · intro place
    simp only [draft, contract, h, Tree.parent?, Tree.node?, bind_parent, map_getElem?_modify, ite_self]
    split
    · cases builder.nodes[place]? <;> rfl
    · split
      · rename_i hat
        simp [hat, hchild]
      · rfl
  · intro place
    simp only [draft, contract, h, Tree.children, Tree.node?, map_getElem?_modify, ite_self]
    split
    · cases builder.nodes[place]? <;> rfl
    · split
      · cases builder.nodes[place]? <;> rfl
      · rfl

end Builder

end ActionAtlas.Syntax
