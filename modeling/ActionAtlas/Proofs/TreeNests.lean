import ActionAtlas.Proofs.Nesting
import ActionAtlas.Proofs.TreeLinks

/-!
# Trees read as nests

A node of a tree with all that is below it, as a nest. A step changes the nests of open nodes only:
what has ended stands below an open node as its contraction and stays as it is, and no node that has
ended adds nothing.
-/

namespace ActionAtlas.Syntax.Tree

variable {old new tree : Tree} {opened : List Nat} {kind : Kind} {span : Span}
  {outer gone inner pos : Nat}

/-! ## Trees as nests -/

def nestAt (tree : Tree) : Nat → Nat → Nest
  | 0, pos => .node pos (tree.kind pos) (tree.span pos) []
  | depth + 1, pos =>
      .node pos (tree.kind pos) (tree.span pos) ((tree.children pos).map (tree.nestAt depth))

def nest (tree : Tree) (pos : Nat) : Nest := tree.nestAt tree.nodes.size pos

theorem Linked.nestAt_succ (linked : tree.Linked) {depth : Nat} (h : tree.nodes.size ≤ pos + depth) :
    tree.nestAt (depth + 1) pos = tree.nestAt depth pos := by
  induction depth generalizing pos with
  | zero =>
      have hend : tree.nodes.size ≤ pos := h
      rw [nestAt, nestAt, children_eq_nil_of_size_le hend, List.map_nil]
  | succ depth ih =>
      rw [nestAt, nestAt]
      congr 1
      refine List.map_congr_left fun child hchild => ih ?_
      have hlt : pos < child := linked.parent_lt (linked.mem_children.mp hchild)
      omega

theorem Linked.nest_eq (linked : tree.Linked) (pos : Nat) :
    tree.nest pos =
      .node pos (tree.kind pos) (tree.span pos) ((tree.children pos).map tree.nest) := by
  unfold nest
  rw [← linked.nestAt_succ (Nat.le_add_left _ _)]
  rfl

/-- Two trees that agree on a set of nodes with all that is below them have the same nests there. -/
theorem nestAt_congr {P : Nat → Prop}
    (closed : ∀ {pos child}, P pos → child ∈ old.children pos → P child)
    (hkind : ∀ {pos}, P pos → new.kind pos = old.kind pos)
    (hspan : ∀ {pos}, P pos → new.span pos = old.span pos)
    (hchildren : ∀ {pos}, P pos → new.children pos = old.children pos) (depth : Nat) (h : P pos) :
    new.nestAt depth pos = old.nestAt depth pos := by
  induction depth generalizing pos with
  | zero => rw [nestAt, nestAt, hkind h, hspan h]
  | succ depth ih =>
      rw [nestAt, nestAt, hkind h, hspan h, hchildren h]
      congr 1
      exact List.map_congr_left fun child hchild => ih (closed h hchild)

/-! ## Open nodes -/

theorem Opened.le_innermost (linked : tree.Linked) (h : tree.Opened opened)
    (hpos : pos ∈ opened ++ [root]) : pos ≤ opened.headD root := by
  induction opened with
  | nil => exact Nat.le_of_eq (List.mem_singleton.mp hpos)
  | cons last outer ih =>
      have hlt : outer.headD root < last := linked.parent_lt h.1.1
      rcases List.mem_cons.mp hpos with rfl | hrest
      · exact Nat.le_refl _
      · exact Nat.le_trans (ih h.2 hrest) (Nat.le_of_lt hlt)

theorem Opened.sorted (linked : tree.Linked) (h : tree.Opened opened) :
    (opened ++ [root]).Pairwise (· > ·) := by
  induction opened with
  | nil => exact List.pairwise_singleton _ _
  | cons last outer ih =>
      have hlt : outer.headD root < last := linked.parent_lt h.1.1
      refine List.pairwise_cons.mpr ⟨?_, ih h.2⟩
      intro pos hpos
      exact Nat.lt_of_le_of_lt (Opened.le_innermost linked h.2 hpos) hlt

theorem Opened.parent_mem (h : tree.Opened opened) (hinner : inner ∈ opened)
    (hparent : tree.parent? inner = some outer) : outer ∈ opened ++ [root] := by
  induction opened with
  | nil => cases hinner
  | cons last rest ih =>
      rcases List.mem_cons.mp hinner with rfl | hrest
      · cases h.1.1.symm.trans hparent
        cases rest <;> simp
      · exact List.mem_cons_of_mem _ (ih h.2 hrest)

/-- What is below a node that has ended has ended. -/
def ClosedBelow (tree : Tree) (openNow : List Nat) : Prop :=
  ∀ outer inner, outer ∉ openNow → inner ∈ tree.children outer → inner ∉ openNow

theorem Opened.closedBelow (linked : tree.Linked) (h : tree.Opened opened) :
    tree.ClosedBelow (opened ++ [root]) := by
  intro outer inner houter hinner
  have hparent : tree.parent? inner = some outer := linked.mem_children.mp hinner
  intro hopen
  rcases List.mem_append.mp hopen with hopened | hroot
  · exact houter (h.parent_mem hopened hparent)
  · rw [List.mem_singleton.mp hroot, linked.root_parent] at hparent
    cases hparent

/-! ## Nests that a step keeps -/

variable {openNow : List Nat}

theorem Entered.nest_eq (step : old.Entered new kind span outer) (linked : old.Linked)
    (closed : old.ClosedBelow openNow) (houter : outer ∈ openNow) (hlt : pos < old.nodes.size)
    (hpos : pos ∉ openNow) : new.nest pos = old.nest pos := by
  have hsame : new.nestAt new.nodes.size pos = old.nestAt new.nodes.size pos := by
    refine nestAt_congr (P := fun pos => pos < old.nodes.size ∧ pos ∉ openNow) ?_ ?_ ?_ ?_ _ ⟨hlt, hpos⟩
    · intro pos child hpos hchild
      exact ⟨lt_size_of_parent (linked.mem_children.mp hchild), closed pos child hpos.2 hchild⟩
    · intro pos hpos
      rw [step.kind_eq, if_neg (Nat.ne_of_lt hpos.1)]
    · intro pos hpos
      rw [step.span_eq, if_neg (Nat.ne_of_lt hpos.1)]
    · intro pos hpos
      rw [step.children_eq, if_neg (ne_of_mem_of_not_mem houter hpos.2).symm]
  unfold nest
  rw [hsame, step.size_eq, linked.nestAt_succ (Nat.le_add_left _ _)]

theorem Contracted.nest_eq (step : old.Contracted new gone outer inner)
    (closed : old.ClosedBelow openNow) (hgone : gone ∈ openNow) (houter : outer ∈ openNow)
    (hpos : pos ∉ openNow) : new.nest pos = old.nest pos := by
  unfold nest
  rw [step.size_eq]
  refine nestAt_congr (P := fun pos => pos ∉ openNow) (closed _ _) ?_ ?_ ?_ _ hpos
  · intro pos _
    exact step.kind_eq pos
  · intro pos _
    exact step.span_eq pos
  · intro pos hpos
    rw [step.children_eq, if_neg (ne_of_mem_of_not_mem hgone hpos).symm,
      if_neg (ne_of_mem_of_not_mem houter hpos).symm]

theorem Alike.nest_eq (step : old.Alike new) (pos : Nat) : new.nest pos = old.nest pos := by
  unfold nest
  rw [step.size_eq]
  exact nestAt_congr (P := fun _ => True) (fun _ _ => trivial) (fun _ => step.kind_eq _)
    (fun _ => step.span_eq _) (fun _ => step.children_eq _) _ trivial

/-! ## What has ended inside an open node -/

/-- The children of an open node are what has ended inside it, contracted, and then the node within
it that is open. -/
structure ShowsFrame (tree : Tree) (openNow within : List Nat) (frame : Frame) : Prop where
  kind_eq : tree.kind frame.pos = frame.kind
  span_eq : tree.span frame.pos = frame.span
  ended : ∃ ended, tree.children frame.pos = ended ++ within ∧ (∀ child ∈ ended, child ∉ openNow) ∧
    Nest.contractAll frame.inner = ended.map tree.nest

def Shows (tree : Tree) (openNow : List Nat) : List Nat → List Frame → Prop
  | _, [] => True
  | within, frame :: outer =>
      tree.ShowsFrame openNow within frame ∧ tree.Shows openNow [frame.pos] outer

variable {openNew within : List Nat} {frame : Frame} {frames : List Frame}

theorem ShowsFrame.mono (h : old.ShowsFrame openNow within frame)
    (hkind : new.kind frame.pos = old.kind frame.pos) (hspan : new.span frame.pos = old.span frame.pos)
    (hchildren : new.children frame.pos = old.children frame.pos)
    (keep : ∀ {child}, child ∈ old.children frame.pos → child ∉ openNow →
      child ∉ openNew ∧ new.nest child = old.nest child) :
    new.ShowsFrame openNew within frame := by
  obtain ⟨ended, hsplit, hended, hinner⟩ := h.ended
  have hmem : ∀ child ∈ ended, child ∉ openNew ∧ new.nest child = old.nest child :=
    fun child hchild => keep (by rw [hsplit]; exact List.mem_append_left _ hchild) (hended child hchild)
  refine ⟨hkind.trans h.kind_eq, hspan.trans h.span_eq, ended, hchildren.trans hsplit,
    fun child hchild => (hmem child hchild).1, ?_⟩
  rw [hinner]
  exact List.map_congr_left fun child hchild => (hmem child hchild).2.symm

theorem Shows.mono
    (keep : ∀ {frame within}, frame ∈ frames → old.ShowsFrame openNow within frame →
      new.ShowsFrame openNew within frame)
    (h : old.Shows openNow within frames) : new.Shows openNew within frames := by
  induction frames generalizing within with
  | nil => trivial
  | cons frame outer ih =>
      exact ⟨keep (List.mem_cons_self ..) h.1,
        ih (fun hframe => keep (List.mem_cons_of_mem _ hframe)) h.2⟩

theorem Entered.shows (step : old.Entered new kind span frame.pos) (linked : old.Linked)
    (closed : old.ClosedBelow openNow) (hopen : openNow = frame.pos :: frames.map (·.pos))
    (hsorted : openNow.Pairwise (· > ·)) (hlt : frame.pos < old.nodes.size)
    (h : old.Shows openNow [] (frame :: frames)) :
    new.Shows (old.nodes.size :: openNow) [] (⟨old.nodes.size, kind, span, []⟩ :: frame :: frames) := by
  have hpos : frame.pos ∈ openNow := by simp [hopen]
  have hbelow : ∀ other ∈ frames, other.pos < frame.pos := by
    rw [hopen] at hsorted
    exact fun other hother => (List.pairwise_cons.mp hsorted).1 _ (List.mem_map_of_mem hother)
  have hkeep : ∀ {pos child}, child ∈ old.children pos → child ∉ openNow →
      child ∉ old.nodes.size :: openNow ∧ new.nest child = old.nest child := by
    intro pos child hchild hclosed
    have hsize : child < old.nodes.size := lt_size_of_parent (linked.mem_children.mp hchild)
    refine ⟨?_, step.nest_eq linked closed hpos hsize hclosed⟩
    rw [List.mem_cons, not_or]
    exact ⟨Nat.ne_of_lt hsize, hclosed⟩
  refine ⟨⟨?_, ?_, [], ?_, by simp, rfl⟩, ⟨?_, ?_, ?_⟩, ?_⟩
  · rw [step.kind_eq, if_pos rfl]
  · rw [step.span_eq, if_pos rfl]
  · rw [step.children_eq, if_neg (Nat.ne_of_gt hlt), children_eq_nil_of_size_le (Nat.le_refl _)]
    rfl
  · rw [step.kind_eq, if_neg (Nat.ne_of_lt hlt), h.1.kind_eq]
  · rw [step.span_eq, if_neg (Nat.ne_of_lt hlt), h.1.span_eq]
  · obtain ⟨ended, hsplit, hended, hinner⟩ := h.1.ended
    rw [List.append_nil] at hsplit
    have hmem : ∀ child ∈ ended, child ∉ old.nodes.size :: openNow ∧ new.nest child = old.nest child :=
      fun child hchild => hkeep (hsplit ▸ hchild) (hended child hchild)
    refine ⟨ended, ?_, fun child hchild => (hmem child hchild).1, ?_⟩
    · rw [step.children_eq, if_pos rfl, hsplit]
    · rw [hinner]
      exact List.map_congr_left fun child hchild => (hmem child hchild).2.symm
  · refine h.2.mono fun hframe hshown => ?_
    have hother := hbelow _ hframe
    refine hshown.mono ?_ ?_ ?_ hkeep
    · rw [step.kind_eq, if_neg (by omega)]
    · rw [step.span_eq, if_neg (by omega)]
    · rw [step.children_eq, if_neg (by omega)]

/-! ### The innermost node ends -/

theorem nest_span (tree : Tree) (pos : Nat) : (tree.nest pos).span = tree.span pos := by
  unfold nest
  cases tree.nodes.size <;> rfl

theorem ShowsFrame.contract_of_wraps (h : tree.ShowsFrame openNow [] frame)
    (hwraps : tree.Wraps frame.pos inner) : frame.nest.contract = tree.nest inner := by
  obtain ⟨hother, hchildren, hspan⟩ := hwraps
  obtain ⟨ended, hsplit, _, hinner⟩ := h.ended
  have hended : ended = [inner] := by rw [← hchildren, hsplit, List.append_nil]
  rw [hended, List.map_singleton] at hinner
  rw [Frame.nest, Nest.contract, hinner, ← h.kind_eq, ← h.span_eq, hother, Nest.settle, nest_span,
    if_pos hspan]

theorem ShowsFrame.contract_of_not_wraps (h : tree.ShowsFrame openNow [] frame) (linked : tree.Linked)
    (hwraps : ∀ inner, ¬ tree.Wraps frame.pos inner) : frame.nest.contract = tree.nest frame.pos := by
  obtain ⟨ended, hsplit, _, hinner⟩ := h.ended
  rw [List.append_nil] at hsplit
  rw [Frame.nest, Nest.contract, hinner, ← h.kind_eq, ← h.span_eq, linked.nest_eq frame.pos, hsplit]
  unfold Nest.settle
  split
  · rename_i hother honly
    obtain ⟨inner, rfl, rfl⟩ := List.map_eq_singleton_iff.mp honly
    have hspan : tree.span inner ≠ tree.span frame.pos :=
      fun hspan => hwraps inner ⟨hother, hsplit, hspan⟩
    rw [nest_span, if_neg hspan]
  · rfl

/-- When the innermost node ends and the node at `place` stands for it, what was shown inside the next
one has grown by its contraction. -/
theorem Shows.leave {next : Frame} (place : Nat)
    (h : old.Shows openNow [] (frame :: next :: frames))
    (hopen : openNow = frame.pos :: next.pos :: frames.map (·.pos))
    (hkind : ∀ pos, new.kind pos = old.kind pos) (hspan : ∀ pos, new.span pos = old.span pos)
    (hnext : ∀ {ended}, frame.pos ∉ ended → old.children next.pos = ended ++ [frame.pos] →
      new.children next.pos = ended ++ [place])
    (hchildren : ∀ other ∈ frames, new.children other.pos = old.children other.pos)
    (hnest : ∀ {child}, child ∉ openNow → new.nest child = old.nest child)
    (hclosed : place ∉ openNow.tail) (hplace : new.nest place = frame.nest.contract) :
    new.Shows openNow.tail [] ({ next with inner := next.inner ++ [frame.nest] } :: frames) := by
  have hfewer : ∀ {child}, child ∉ openNow → child ∉ openNow.tail :=
    fun hchild htail => hchild (List.mem_of_mem_tail htail)
  obtain ⟨_, hshown, hrest⟩ := h
  refine ⟨⟨?_, ?_, ?_⟩, ?_⟩
  · rw [hkind]
    exact hshown.kind_eq
  · rw [hspan]
    exact hshown.span_eq
  · obtain ⟨ended, hsplit, hended, hinner⟩ := hshown.ended
    have hframe : frame.pos ∉ ended := fun hmem => hended _ hmem (by simp [hopen])
    refine ⟨ended ++ [place], ?_, ?_, ?_⟩
    · rw [List.append_nil]
      exact hnext hframe hsplit
    · intro child hchild
      rcases List.mem_append.mp hchild with hold | hnew
      · exact hfewer (hended child hold)
      · rw [List.mem_singleton.mp hnew]
        exact hclosed
    · rw [Nest.contractAll_eq_map] at hinner ⊢
      rw [List.map_append, List.map_append, hinner, List.map_singleton, List.map_singleton, hplace]
      congr 1
      exact List.map_congr_left fun child hchild => (hnest (hended child hchild)).symm
  · refine hrest.mono fun hframe hold => ?_
    exact hold.mono (hkind _) (hspan _) (hchildren _ hframe)
      fun _ hchild => ⟨hfewer hchild, hnest hchild⟩

theorem Contracted.shows {next : Frame} (step : old.Contracted new frame.pos next.pos inner)
    (linked : old.Linked) (closed : old.ClosedBelow openNow)
    (hopen : openNow = frame.pos :: next.pos :: frames.map (·.pos))
    (hsorted : openNow.Pairwise (· > ·)) (hwraps : old.Wraps frame.pos inner)
    (h : old.Shows openNow [] (frame :: next :: frames)) :
    new.Shows openNow.tail [] ({ next with inner := next.inner ++ [frame.nest] } :: frames) := by
  have hframe : frame.pos ∈ openNow := by simp [hopen]
  have hnext : next.pos ∈ openNow := by simp [hopen]
  rw [hopen, List.pairwise_cons, List.pairwise_cons] at hsorted
  obtain ⟨hbelowFrame, hbelowNext, _⟩ := hsorted
  have hlt : next.pos < frame.pos := hbelowFrame _ (List.mem_cons_self ..)
  have hinner : frame.pos < inner := linked.parent_lt (linked.parent_of_wraps hwraps)
  have hclosed : inner ∉ openNow := by
    rw [hopen]
    intro hmem
    rcases List.mem_cons.mp hmem with heq | hmem
    · omega
    · have := hbelowFrame _ hmem
      omega
  have hnest : ∀ {child}, child ∉ openNow → new.nest child = old.nest child :=
    fun hchild => step.nest_eq closed hframe hnext hchild
  refine h.leave inner hopen step.kind_eq step.span_eq ?_ ?_ hnest
    (fun hmem => hclosed (List.mem_of_mem_tail hmem)) ?_
  · intro ended hframe hsplit
    have hkept : (ended.map fun child => if child = frame.pos then inner else child) = ended := by
      refine (List.map_congr_left fun child hchild => ?_).trans (List.map_id ended)
      exact if_neg (ne_of_mem_of_not_mem hchild hframe)
    rw [step.children_eq, if_neg (Nat.ne_of_lt hlt), if_pos rfl, hsplit, List.map_append, hkept,
      List.map_singleton, if_pos rfl]
  · intro other hother
    have hmem : other.pos ∈ frames.map (·.pos) := List.mem_map_of_mem hother
    have hbelow := hbelowNext _ hmem
    rw [step.children_eq, if_neg (by omega), if_neg (by omega)]
  · rw [hnest hclosed, h.1.contract_of_wraps hwraps]

theorem Shows.leave_unchanged {next : Frame} (linked : tree.Linked)
    (hopen : openNow = frame.pos :: next.pos :: frames.map (·.pos))
    (hsorted : openNow.Pairwise (· > ·)) (hwraps : ∀ inner, ¬ tree.Wraps frame.pos inner)
    (h : tree.Shows openNow [] (frame :: next :: frames)) :
    tree.Shows openNow.tail [] ({ next with inner := next.inner ++ [frame.nest] } :: frames) := by
  refine h.leave frame.pos hopen (fun _ => rfl) (fun _ => rfl) (fun _ hsplit => hsplit) (fun _ _ => rfl)
    (fun _ => rfl) ?_ (h.1.contract_of_not_wraps linked hwraps).symm
  rw [hopen, List.pairwise_cons] at hsorted
  rw [hopen, List.tail_cons]
  intro hmem
  exact Nat.lt_irrefl _ (hsorted.1 _ hmem)

/-! ## Nodes that have ended add something -/

/-- No node that has ended adds nothing. -/
def Settled (tree : Tree) (openNow : List Nat) : Prop :=
  ∀ pos inner, pos ∉ openNow → ¬ tree.Wraps pos inner

theorem Entered.settled (step : old.Entered new kind span outer) (linked : old.Linked)
    (houter : outer ∈ openNow) (h : old.Settled openNow) :
    new.Settled (old.nodes.size :: openNow) := by
  intro pos inner hpos hwraps
  obtain ⟨hsize, hclosed⟩ := not_or.mp (fun hmem => hpos (List.mem_cons.mpr hmem))
  obtain ⟨hkind, hchildren, hspan⟩ := hwraps
  rw [step.kind_eq, if_neg hsize] at hkind
  rw [step.children_eq, if_neg (ne_of_mem_of_not_mem houter hclosed).symm] at hchildren
  have hmem : inner ∈ old.children pos := by simp [hchildren]
  have hinner : inner < old.nodes.size := lt_size_of_parent (linked.mem_children.mp hmem)
  rw [step.span_eq, step.span_eq, if_neg hsize, if_neg (Nat.ne_of_lt hinner)] at hspan
  exact h pos inner hclosed ⟨hkind, hchildren, hspan⟩

theorem Contracted.settled (step : old.Contracted new gone outer inner) (houter : outer ∈ openNow)
    (h : old.Settled (gone :: openNow)) : new.Settled openNow := by
  intro pos child hpos hwraps
  obtain ⟨hkind, hchildren, hspan⟩ := hwraps
  rw [step.children_eq] at hchildren
  rw [step.kind_eq] at hkind
  rw [step.span_eq, step.span_eq] at hspan
  split at hchildren
  · cases hchildren
  · rename_i hgone
    rw [if_neg (ne_of_mem_of_not_mem houter hpos).symm] at hchildren
    exact h pos child (by simp [hgone, hpos]) ⟨hkind, hchildren, hspan⟩

theorem Settled.leave (h : tree.Settled (gone :: openNow)) (hgone : ∀ inner, ¬ tree.Wraps gone inner) :
    tree.Settled openNow := by
  intro pos inner hpos
  by_cases heq : pos = gone
  · rw [heq]
    exact hgone inner
  · exact h pos inner (by simp [heq, hpos])

theorem Alike.settled (step : old.Alike new) (h : old.Settled openNow) : new.Settled openNow := by
  intro pos inner hpos
  rw [Wraps, step.kind_eq, step.children_eq, step.span_eq, step.span_eq]
  exact h pos inner hpos

end ActionAtlas.Syntax.Tree
