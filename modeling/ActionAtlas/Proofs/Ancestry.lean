import ActionAtlas.Proofs.TreeLinks
import ActionAtlas.Syntax.Query

/-!
# Ancestors and descendants

In a linked tree the bounds of the searches never cut anything off: parents come before their
children, so no path is longer than the table. What is found below a node is what has the node among
its ancestors, and where subtrees lie in one piece it is found in the order of the table.
-/

namespace ActionAtlas.Syntax.Tree

variable {tree : Tree} {pos inner outer : Nat}

/-! ## Going up -/

theorem Linked.above_succ (linked : tree.Linked) {height : Nat} (h : pos ≤ height) :
    tree.above (height + 1) pos = tree.above height pos := by
  induction height generalizing pos with
  | zero =>
      have hroot : pos = root := Nat.le_zero.mp h
      simp [above, hroot, linked.root_parent]
  | succ height ih =>
      rw [above, above]
      cases hparent : tree.parent? pos with
      | none => rfl
      | some outer =>
          have hlt : outer < pos := linked.parent_lt hparent
          simp only
          rw [ih (by omega)]

theorem ancestors_of_no_parent (h : tree.parent? pos = none) : tree.ancestors pos = [] := by
  unfold ancestors
  cases tree.nodes.size <;> simp [above, h]

theorem Linked.ancestors_of_parent (linked : tree.Linked) (h : tree.parent? pos = some outer) :
    tree.ancestors pos = outer :: tree.ancestors outer := by
  have hlt : outer < pos := linked.parent_lt h
  have hsize : pos < tree.nodes.size := lt_size_of_parent h
  obtain ⟨height, hheight⟩ : ∃ height, tree.nodes.size = height + 1 :=
    Nat.exists_eq_succ_of_ne_zero (by omega)
  have houter : outer ≤ height := by omega
  unfold ancestors
  rw [hheight, above, h, linked.above_succ houter]

theorem Linked.mem_ancestors_iff (linked : tree.Linked) :
    outer ∈ tree.ancestors inner ↔
      ∃ parent, tree.parent? inner = some parent ∧
        (outer = parent ∨ outer ∈ tree.ancestors parent) := by
  cases h : tree.parent? inner with
  | none => simp [ancestors_of_no_parent h]
  | some parent => simp [linked.ancestors_of_parent h]

theorem Linked.lt_of_mem_ancestors (linked : tree.Linked) (h : outer ∈ tree.ancestors inner) :
    outer < inner := by
  induction inner using Nat.strongRecOn with
  | _ inner ih =>
      obtain ⟨parent, hparent, rfl | habove⟩ := linked.mem_ancestors_iff.mp h
      · exact linked.parent_lt hparent
      · have hlt : parent < inner := linked.parent_lt hparent
        exact Nat.lt_trans (ih parent hlt habove) hlt

theorem Linked.mem_ancestors_trans (linked : tree.Linked) {middle : Nat}
    (hout : outer ∈ tree.ancestors middle) (hin : middle ∈ tree.ancestors inner) :
    outer ∈ tree.ancestors inner := by
  induction inner using Nat.strongRecOn with
  | _ inner ih =>
      obtain ⟨parent, hparent, hmiddle⟩ := linked.mem_ancestors_iff.mp hin
      refine linked.mem_ancestors_iff.mpr ⟨parent, hparent, Or.inr ?_⟩
      rcases hmiddle with rfl | habove
      · exact hout
      · exact ih parent (linked.parent_lt hparent) habove

/-- The path down from an ancestor begins with one of its children. -/
theorem Linked.exists_child_toward (linked : tree.Linked) (h : outer ∈ tree.ancestors inner) :
    ∃ child, tree.parent? child = some outer ∧
      (child = inner ∨ child ∈ tree.ancestors inner) := by
  induction inner using Nat.strongRecOn with
  | _ inner ih =>
      obtain ⟨parent, hparent, rfl | habove⟩ := linked.mem_ancestors_iff.mp h
      · exact ⟨inner, hparent, Or.inl rfl⟩
      · obtain ⟨child, hchild, hpath⟩ := ih parent (linked.parent_lt hparent) habove
        refine ⟨child, hchild, Or.inr (linked.mem_ancestors_iff.mpr ⟨parent, hparent, hpath⟩)⟩

/-! ## Going down -/

theorem Linked.mem_below (linked : tree.Linked) {depth : Nat} (h : inner ∈ tree.below depth outer) :
    outer ∈ tree.ancestors inner := by
  induction depth generalizing outer with
  | zero => cases h
  | succ depth ih =>
      rw [below, List.mem_flatMap] at h
      obtain ⟨child, hchild, hinner⟩ := h
      have hparent : tree.parent? child = some outer := linked.mem_children.mp hchild
      have hup : outer ∈ tree.ancestors child :=
        linked.mem_ancestors_iff.mpr ⟨outer, hparent, Or.inl rfl⟩
      rcases List.mem_cons.mp hinner with rfl | hdeep
      · exact hup
      · exact linked.mem_ancestors_trans hup (ih hdeep)

theorem Linked.below_complete (linked : tree.Linked) {depth : Nat} (h : outer ∈ tree.ancestors inner)
    (hdepth : inner ≤ outer + depth) : inner ∈ tree.below depth outer := by
  induction depth generalizing outer with
  | zero =>
      have := linked.lt_of_mem_ancestors h
      omega
  | succ depth ih =>
      obtain ⟨child, hchild, hpath⟩ := linked.exists_child_toward h
      have hlt : outer < child := linked.parent_lt hchild
      rw [below, List.mem_flatMap]
      refine ⟨child, linked.mem_children.mpr hchild, List.mem_cons.mpr ?_⟩
      rcases hpath with rfl | habove
      · exact Or.inl rfl
      · exact Or.inr (ih habove (by omega))

theorem Linked.mem_descendants_iff (linked : tree.Linked) {kind : Kind} :
    inner ∈ tree.descendants outer kind ↔
      tree.kind inner = kind ∧ outer ∈ tree.ancestors inner := by
  unfold descendants
  rw [List.mem_filter, beq_iff_eq, and_comm]
  refine and_congr_right fun _ => ⟨linked.mem_below, fun h => ?_⟩
  obtain ⟨_, hparent, _⟩ := linked.mem_ancestors_iff.mp h
  have hsize : inner < tree.nodes.size := lt_size_of_parent hparent
  exact linked.below_complete h (by omega)

theorem kind_of_mem_descendants {kind : Kind} (h : inner ∈ tree.descendants outer kind) :
    tree.kind inner = kind :=
  beq_iff_eq.mp (List.mem_filter.mp h).2

/-- Subtrees lie in one piece: a node between another one and something below that one is below it,
too. -/
def Contiguous (tree : Tree) : Prop :=
  ∀ outer middle inner, outer ∈ tree.ancestors inner → outer < middle → middle < inner →
    tree.survives middle = true → outer ∈ tree.ancestors middle

theorem Linked.not_mem_ancestors_of_sibling (linked : tree.Linked) {left right : Nat}
    (hleft : tree.parent? left = some pos) (hright : tree.parent? right = some pos) :
    left ∉ tree.ancestors right := by
  intro h
  have hlt : pos < left := linked.parent_lt hleft
  obtain ⟨parent, hparent, habove⟩ := linked.mem_ancestors_iff.mp h
  cases hparent.symm.trans hright
  rcases habove with rfl | habove
  · exact Nat.lt_irrefl _ hlt
  · exact Nat.lt_asymm hlt (linked.lt_of_mem_ancestors habove)

/-- All that is below a node comes before the siblings that follow it. -/
theorem Linked.lt_sibling (linked : tree.Linked) (contiguous : tree.Contiguous) {left right : Nat}
    (hleft : tree.parent? left = some pos) (hright : tree.parent? right = some pos)
    (hlt : left < right) (h : inner = left ∨ left ∈ tree.ancestors inner) : inner < right := by
  have hapart := linked.not_mem_ancestors_of_sibling hleft hright
  rcases h with rfl | habove
  · exact hlt
  · rcases Nat.lt_trichotomy inner right with hbefore | rfl | hafter
    · exact hbefore
    · exact absurd habove hapart
    · exact absurd (contiguous _ _ _ habove hlt hafter (survives_iff.mpr (Or.inr ⟨_, hright⟩))) hapart

theorem Linked.below_sorted (linked : tree.Linked) (contiguous : tree.Contiguous) (depth pos : Nat) :
    (tree.below depth pos).Pairwise (· < ·) := by
  induction depth generalizing pos with
  | zero => exact List.Pairwise.nil
  | succ depth ih =>
      rw [below, List.pairwise_flatMap]
      constructor
      · intro child _
        refine List.pairwise_cons.mpr ⟨?_, ih child⟩
        intro deep hdeep
        exact linked.lt_of_mem_ancestors (linked.mem_below hdeep)
      · refine (linked.sorted pos).imp_of_mem ?_
        intro left right hleft hright hlt x hx y hy
        have hbefore : x < right :=
          linked.lt_sibling contiguous (linked.mem_children.mp hleft)
            (linked.mem_children.mp hright) hlt ((List.mem_cons.mp hx).imp id linked.mem_below)
        have hafter : right ≤ y := by
          rcases List.mem_cons.mp hy with rfl | hdeep
          · exact Nat.le_refl _
          · exact Nat.le_of_lt (linked.lt_of_mem_ancestors (linked.mem_below hdeep))
        omega

theorem Linked.descendants_sorted (linked : tree.Linked) (contiguous : tree.Contiguous) (pos : Nat)
    (kind : Kind) : (tree.descendants pos kind).Pairwise (· < ·) :=
  (linked.below_sorted contiguous _ pos).filter _

theorem firstBelow?_eq_head? (tree : Tree) (kind : Kind) (depth pos : Nat) :
    tree.firstBelow? kind depth pos =
      ((tree.below depth pos).filter (tree.kind · == kind)).head? := by
  induction depth generalizing pos with
  | zero => rfl
  | succ depth ih =>
      rw [firstBelow?, below, List.filter_flatMap, List.head?_flatMap]
      congr 1
      funext child
      by_cases hkind : tree.kind child = kind
      · simp [hkind]
      · simp [hkind, ih child]

theorem firstDescendant?_eq_head? (tree : Tree) (pos : Nat) (kind : Kind) :
    tree.firstDescendant? pos kind = (tree.descendants pos kind).head? :=
  firstBelow?_eq_head? tree kind _ pos

end ActionAtlas.Syntax.Tree
