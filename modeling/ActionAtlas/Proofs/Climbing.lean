import ActionAtlas.Proofs.Ancestry

/-!
# Going up while something holds

A climb looks at one parent after the other. It ends below the first of them that stops it, or at the
top; and a node whose own parent stops it does not climb at all, which `highestWhile?` tells apart from
a climb that ends at the node.
-/

namespace ActionAtlas.Syntax.Tree

variable {tree : Tree} {holds : Nat → Bool} {kind : Kind} {pos inner outer : Nat}

theorem highestWhile?_of_no_parent (h : tree.parent? pos = none) :
    tree.highestWhile? holds pos = none := by
  simp [highestWhile?, ancestors_of_no_parent h]

theorem Linked.highestWhile?_of_parent (linked : tree.Linked) (h : tree.parent? pos = some outer) :
    tree.highestWhile? holds pos =
      if holds outer then some ((tree.highestWhile? holds outer).getD outer) else none := by
  unfold highestWhile?
  rw [linked.ancestors_of_parent h, List.takeWhile_cons]
  by_cases houter : holds outer = true
  · rw [if_pos houter, if_pos houter, List.getLast?_cons]
  · rw [if_neg houter, if_neg houter, List.getLast?_nil]

/-- Above the end of a climb stands the first ancestor that stops it. -/
theorem Linked.parent?_highestWhile? (linked : tree.Linked) (holds : Nat → Bool) (pos : Nat) :
    tree.parent? ((tree.highestWhile? holds pos).getD pos) =
      (tree.ancestors pos).find? fun above => !holds above := by
  induction pos using Nat.strongRecOn with
  | _ pos ih =>
      cases hparent : tree.parent? pos with
      | none =>
          rw [highestWhile?_of_no_parent hparent, ancestors_of_no_parent hparent]
          exact hparent
      | some outer =>
          have hlt : outer < pos := linked.parent_lt hparent
          rw [linked.highestWhile?_of_parent hparent, linked.ancestors_of_parent hparent]
          by_cases houter : holds outer = true
          · rw [if_pos houter, Option.getD_some, ih outer hlt]
            simp [houter]
          · rw [if_neg houter, Option.getD_none, hparent]
            simp [houter]

/-- Where a climb has an end of its own, the ancestor that stops it is not the parent. -/
theorem Linked.bind_highestWhile?_eq_some_iff (linked : tree.Linked) :
    (tree.highestWhile? holds pos).bind tree.parent? = some outer ↔
      ((tree.ancestors pos).find? fun above => !holds above) = some outer ∧
        tree.parent? pos ≠ some outer := by
  have hstop := linked.parent?_highestWhile? holds pos
  cases hend : tree.highestWhile? holds pos with
  | none =>
      rw [hend, Option.getD_none] at hstop
      rw [← hstop]
      simp
  | some last =>
      rw [hend, Option.getD_some] at hstop
      rw [Option.bind_some, hstop]
      refine iff_self_and.mpr fun hfound hparent => ?_
      have hfails : holds outer = false := by simpa using List.find?_some hfound
      rw [linked.highestWhile?_of_parent hparent, hfails] at hend
      cases hend

/-! ## The nearest ancestor of a kind -/

theorem exists_nearest?_iff :
    (∃ found, tree.nearest? pos kind = some found) ↔
      ∃ above ∈ tree.ancestors pos, tree.kind above = kind := by
  rw [← Option.isSome_iff_exists, nearest?, List.find?_isSome]
  simp only [beq_iff_eq]

theorem Linked.nearest?_of_parent (linked : tree.Linked) (h : tree.parent? pos = some outer) :
    tree.nearest? pos kind =
      if tree.kind outer = kind then some outer else tree.nearest? outer kind := by
  unfold nearest?
  rw [linked.ancestors_of_parent h]
  by_cases hkind : tree.kind outer = kind
  · simp [hkind]
  · simp [hkind]

theorem Linked.parent_ne_nearest_iff (linked : tree.Linked) (h : tree.nearest? pos kind = some outer) :
    tree.parent? pos ≠ some outer ↔
      ∀ parent, tree.parent? pos = some parent → tree.kind parent ≠ kind := by
  constructor
  · intro hapart parent hparent hkind
    have hnearest : tree.nearest? pos kind = some parent := by
      rw [linked.nearest?_of_parent hparent, if_pos hkind]
    exact hapart (hparent.trans (hnearest.symm.trans h))
  · intro hfree hparent
    have hkind : tree.kind outer = kind := by simpa using List.find?_some h
    exact hfree outer hparent hkind

/-- The nearest ancestor of a kind stands below a given ancestor, or is also the nearest one from
there. -/
theorem Linked.nearest?_from_ancestor (linked : tree.Linked) (h : outer ∈ tree.ancestors pos)
    (hkind : tree.kind outer ≠ kind) :
    (∃ inner, tree.nearest? pos kind = some inner ∧ outer ∈ tree.ancestors inner) ∨
      tree.nearest? pos kind = tree.nearest? outer kind := by
  induction pos using Nat.strongRecOn with
  | _ pos ih =>
      obtain ⟨parent, hparent, hpath⟩ := linked.mem_ancestors_iff.mp h
      rw [linked.nearest?_of_parent hparent]
      rcases hpath with rfl | habove
      · exact Or.inr (if_neg hkind)
      · by_cases hhere : tree.kind parent = kind
        · exact Or.inl ⟨parent, if_pos hhere, habove⟩
        · rw [if_neg hhere]
          exact ih parent (linked.parent_lt hparent) habove

/-! ## Through parents of one kind -/

/-- The climb from a node through parents of one kind ends at `outer`. -/
inductive ClimbsTo (tree : Tree) (kind : Kind) : Nat → Nat → Prop
  | here {pos : Nat} (h : ∀ parent, tree.parent? pos = some parent → tree.kind parent ≠ kind) :
      ClimbsTo tree kind pos pos
  | up {pos parent outer : Nat} (hparent : tree.parent? pos = some parent)
      (hkind : tree.kind parent = kind) (rest : ClimbsTo tree kind parent outer) :
      ClimbsTo tree kind pos outer

theorem Linked.climbsTo_highestWhile? (linked : tree.Linked) (kind : Kind) (pos : Nat) :
    tree.ClimbsTo kind pos ((tree.highestWhile? (tree.kind · == kind) pos).getD pos) := by
  induction pos using Nat.strongRecOn with
  | _ pos ih =>
      cases hparent : tree.parent? pos with
      | none =>
          rw [highestWhile?_of_no_parent hparent, Option.getD_none]
          refine .here fun parent h => ?_
          rw [hparent] at h
          cases h
      | some outer =>
          have hlt : outer < pos := linked.parent_lt hparent
          rw [linked.highestWhile?_of_parent hparent]
          by_cases hkind : tree.kind outer = kind
          · rw [if_pos (beq_iff_eq.mpr hkind), Option.getD_some]
            exact .up hparent hkind (ih outer hlt)
          · rw [if_neg (by simpa using hkind), Option.getD_none]
            refine .here fun parent h => ?_
            cases hparent.symm.trans h
            exact hkind

theorem Linked.climbsTo_iff (linked : tree.Linked) :
    tree.ClimbsTo kind inner outer ↔
      (tree.highestWhile? (tree.kind · == kind) inner).getD inner = outer := by
  constructor
  · intro h
    induction h with
    | @here pos hstop =>
        cases hparent : tree.parent? pos with
        | none => rw [highestWhile?_of_no_parent hparent, Option.getD_none]
        | some parent =>
            rw [linked.highestWhile?_of_parent hparent,
              if_neg (by simpa using hstop parent hparent), Option.getD_none]
    | @up pos parent outer hparent hkind _ ih =>
        rw [linked.highestWhile?_of_parent hparent, if_pos (beq_iff_eq.mpr hkind), Option.getD_some]
        exact ih
  · rintro rfl
    exact linked.climbsTo_highestWhile? kind inner

end ActionAtlas.Syntax.Tree
