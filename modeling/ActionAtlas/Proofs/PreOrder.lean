import ActionAtlas.Proofs.Contraction

/-!
# Searches in pre-order

A search keeps a list of the nodes that it has yet to look at. It takes the first of them and puts the
children of this node in its place, so that the list may grow with every step. In a linked tree it comes
to an end all the same, and by then it has looked at all that is below the node it began at, in the
order of the table. A search for the first node of a kind goes the same way and stops earlier.
-/

namespace ActionAtlas.Syntax.Tree

variable {tree : Tree} {kind : Kind} {pos : Nat} {pending visited : List Nat}

/-! ## The order by recursion -/

theorem Linked.child_bounds (linked : tree.Linked) {child : Nat} (h : child ∈ tree.children pos) :
    pos < child ∧ child < tree.nodes.size := by
  have hparent : tree.parent? child = some pos := linked.mem_children.mp h
  exact ⟨linked.parent_lt hparent, lt_size_of_parent hparent⟩

/-- Nothing is deeper below a node than there are nodes behind it in the table. -/
theorem Linked.below_succ (linked : tree.Linked) {depth : Nat}
    (h : tree.nodes.size ≤ pos + depth + 1) : tree.below (depth + 1) pos = tree.below depth pos := by
  induction depth generalizing pos with
  | zero =>
      have hleaf : tree.children pos = [] := by
        refine List.eq_nil_iff_forall_not_mem.mpr fun child hchild => ?_
        have := linked.child_bounds hchild
        omega
      simp [below, hleaf]
  | succ depth ih =>
      rw [below, below]
      refine List.flatMap_congr fun child hchild => ?_
      have hlt := (linked.child_bounds hchild).1
      rw [ih (by omega)]

/-- What is below a node: each child, with what is below the child right behind it. -/
theorem Linked.below_eq_flatMap (linked : tree.Linked) (pos : Nat) :
    tree.below tree.nodes.size pos =
      (tree.children pos).flatMap fun child => child :: tree.below tree.nodes.size child := by
  rw [← linked.below_succ (by omega), below]

theorem Linked.descendants_eq_flatMap (linked : tree.Linked) (pos : Nat) (kind : Kind) :
    tree.descendants pos kind =
      (tree.children pos).flatMap fun child =>
        (if tree.kind child = kind then [child] else []) ++ tree.descendants child kind := by
  unfold descendants
  rw [linked.below_eq_flatMap pos, List.filter_flatMap]
  refine List.flatMap_congr fun child _ => ?_
  by_cases hkind : tree.kind child = kind
  · simp [hkind]
  · simp [hkind]

/-! ## Searches with a list of pending nodes -/

/-- A search with `pending` to look at comes to its end after looking at `visited`, in this order. -/
inductive Visits (tree : Tree) : List Nat → List Nat → Prop
  | done : Visits tree [] []
  | next {pos : Nat} {pending visited : List Nat}
      (rest : Visits tree (tree.children pos ++ pending) visited) :
      Visits tree (pos :: pending) (pos :: visited)

/-- A search that stops at the first node of one kind ends with this answer. -/
inductive Finds (tree : Tree) (kind : Kind) : List Nat → Option Nat → Prop
  | nothing : Finds tree kind [] none
  | here {pos : Nat} {pending : List Nat} (h : tree.kind pos = kind) :
      Finds tree kind (pos :: pending) (some pos)
  | next {pos : Nat} {pending : List Nat} {found : Option Nat} (h : tree.kind pos ≠ kind)
      (rest : Finds tree kind (tree.children pos ++ pending) found) :
      Finds tree kind (pos :: pending) found

/-- A search is through with some nodes once it is through with each of them and all below it. -/
theorem Visits.flatMap {nodes : List Nat} {beneath : Nat → List Nat}
    (each : ∀ pos ∈ nodes, ∀ {pending visited}, tree.Visits pending visited →
      tree.Visits (pos :: pending) (pos :: (beneath pos ++ visited)))
    (rest : tree.Visits pending visited) :
    tree.Visits (nodes ++ pending)
      ((nodes.flatMap fun pos => pos :: beneath pos) ++ visited) := by
  induction nodes with
  | nil => exact rest
  | cons pos others ih =>
      have hothers := ih fun other hother => each other (List.mem_cons_of_mem pos hother)
      have hpos := each pos List.mem_cons_self hothers
      rw [List.flatMap_cons, List.append_assoc]
      exact hpos

theorem Linked.visits_below (linked : tree.Linked) (pos : Nat) (rest : tree.Visits pending visited) :
    tree.Visits (tree.children pos ++ pending) (tree.below tree.nodes.size pos ++ visited) := by
  -- children stand further back in the table, so the induction is on what is left of it
  induction hleft : tree.nodes.size - pos using Nat.strongRecOn generalizing pos pending visited with
  | _ left ih =>
      rw [linked.below_eq_flatMap]
      refine Visits.flatMap (fun child hchild pending visited rest => .next ?_) rest
      obtain ⟨hlt, hsize⟩ := linked.child_bounds hchild
      exact ih (tree.nodes.size - child) (by omega) child rest rfl

/-- Both searches look at the same nodes up to the one that is found. -/
theorem Visits.finds (h : tree.Visits pending visited) (kind : Kind) :
    tree.Finds kind pending (visited.find? (tree.kind · == kind)) := by
  induction h with
  | done => exact .nothing
  | @next pos pending visited _ ih =>
      by_cases hkind : tree.kind pos = kind
      · rw [List.find?_cons_of_pos (by simpa using hkind)]
        exact .here hkind
      · rw [List.find?_cons_of_neg (by simpa using hkind)]
        exact .next hkind ih

theorem firstDescendant?_eq_find? (tree : Tree) (pos : Nat) (kind : Kind) :
    tree.firstDescendant? pos kind =
      (tree.below tree.nodes.size pos).find? (tree.kind · == kind) := by
  rw [firstDescendant?_eq_head?, descendants, List.head?_filter]

/-- The nodes of a kind below a node of a built tree. A search with a list of pending nodes ends and
finds just these, in the order of a recursion over the children, which is that of the table; so none
comes twice. They are the nodes of the kind that have the node among their ancestors. A search for the
first of them ends as well, with the head of the list. -/
theorem ofSteps_descendants_in_order (filePath source : String) (steps : List Step) (pos : Nat)
    (kind : Kind) :
    let tree := Tree.ofSteps filePath source steps
    (∃ visited, tree.Visits (tree.children pos) visited ∧
      tree.descendants pos kind = visited.filter (tree.kind · == kind)) ∧
    tree.descendants pos kind =
      ((tree.children pos).flatMap fun child =>
        (if tree.kind child = kind then [child] else []) ++ tree.descendants child kind) ∧
    (tree.descendants pos kind).Pairwise (· < ·) ∧
    (∀ inner, inner ∈ tree.descendants pos kind ↔
      tree.kind inner = kind ∧ pos ∈ tree.ancestors inner) ∧
    tree.Finds kind (tree.children pos) (tree.firstDescendant? pos kind) ∧
    tree.firstDescendant? pos kind = (tree.descendants pos kind).head? := by
  intro tree
  have linked : tree.Linked := ofSteps_linked filePath source steps
  have hvisits : tree.Visits (tree.children pos) (tree.below tree.nodes.size pos) := by
    simpa using linked.visits_below pos .done
  have hfinds := hvisits.finds kind
  rw [← firstDescendant?_eq_find?] at hfinds
  exact ⟨⟨_, hvisits, rfl⟩, linked.descendants_eq_flatMap pos kind,
    linked.descendants_sorted (ofSteps_contiguous filePath source steps) pos kind,
    fun _ => linked.mem_descendants_iff, hfinds, firstDescendant?_eq_head? tree pos kind⟩

end ActionAtlas.Syntax.Tree
