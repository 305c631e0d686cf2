import ActionAtlas.Proofs.TreeSteps
import Mathlib.Data.List.Nodup
import Mathlib.Logic.Relation

/-!
# Links of a built tree

Parents and child lists of a tree in the making, after every sequence of steps. `Linked` is about the
tree, `Opened` about the nodes that have not ended: each of them is the last child of the next one,
which is why a contraction keeps child lists in order.
-/

namespace ActionAtlas.Syntax

/-! ## Linked trees -/

namespace Tree

/-- Whether a node has a place in the tree: it is the root, or has a parent. -/
def survives (tree : Tree) (pos : Nat) : Bool := pos == root || (tree.parent? pos).isSome

theorem survives_iff {tree : Tree} {pos : Nat} :
    tree.survives pos = true ↔ pos = root ∨ ∃ outer, tree.parent? pos = some outer := by
  simp [survives, Option.isSome_iff_exists]

/-- Parents and child lists say the same, parents come first, and a node without a place has nothing
left but its kind. -/
structure Linked (tree : Tree) : Prop where
  root_lt : root < tree.nodes.size
  root_kind : tree.kind root = .sourceFile
  root_parent : tree.parent? root = none
  mem_children : ∀ {outer inner}, inner ∈ tree.children outer ↔ tree.parent? inner = some outer
  parent_lt : ∀ {outer inner}, tree.parent? inner = some outer → outer < inner
  sorted : ∀ pos, (tree.children pos).Pairwise (· < ·)
  bare : ∀ {pos}, tree.survives pos = false → tree.kind pos = .other ∧ tree.children pos = []

def LastIn (tree : Tree) (inner outer : Nat) : Prop :=
  tree.parent? inner = some outer ∧ ∀ sibling ∈ tree.children outer, sibling ≤ inner

/-- Nodes that have not ended, innermost first: each is the last child of the next, and the last one
is the last child of the root. -/
def Opened (tree : Tree) : List Nat → Prop
  | [] => True
  | pos :: outer => tree.LastIn pos (outer.headD root) ∧ tree.Opened outer

variable {old new tree : Tree} {opened : List Nat} {kind : Kind} {span : Span}
  {outer gone inner pos : Nat}

theorem Linked.lt_size_of_survives (linked : tree.Linked) (h : tree.survives pos = true) :
    pos < tree.nodes.size := by
  rcases survives_iff.mp h with rfl | ⟨outer, hparent⟩
  · exact linked.root_lt
  · exact lt_size_of_parent hparent

theorem Linked.parent_of_wraps (linked : tree.Linked) (h : tree.Wraps pos inner) :
    tree.parent? inner = some pos := by
  refine linked.mem_children.mp ?_
  rw [h.2.1]
  exact List.mem_singleton.mpr rfl

theorem Opened.survives_innermost (h : tree.Opened opened) :
    tree.survives (opened.headD root) = true := by
  cases opened with
  | nil => simp [survives]
  | cons pos outer => exact survives_iff.mpr (Or.inr ⟨_, h.1.1⟩)

/-- A step that touches no child list below the innermost node keeps the chain. -/
theorem Opened.mono (linked : old.Linked) {bound : Nat}
    (keep : ∀ {inner outer}, outer < bound → old.LastIn inner outer → new.LastIn inner outer)
    (h : old.Opened opened) (hbound : opened.headD root ≤ bound) : new.Opened opened := by
  induction opened with
  | nil => trivial
  | cons pos outer ih =>
      obtain ⟨hlast, hrest⟩ := h
      have hlt : outer.headD root < pos := linked.parent_lt hlast.1
      have hpos : pos ≤ bound := hbound
      exact ⟨keep (by omega) hlast, ih hrest (by omega)⟩

/-! ### A node is added -/

theorem Entered.survives_eq (step : old.Entered new kind span outer) (pos : Nat) :
    new.survives pos = (pos == old.nodes.size || old.survives pos) := by
  simp only [survives, step.parent_eq]
  by_cases hpos : pos = old.nodes.size <;> simp [hpos]

theorem Entered.linked (step : old.Entered new kind span outer) (linked : old.Linked)
    (houter : old.survives outer = true) : new.Linked := by
  have hlt : outer < old.nodes.size := linked.lt_size_of_survives houter
  have hfresh : old.parent? old.nodes.size = none := parent?_eq_none_of_size_le (Nat.le_refl _)
  have hroot : root ≠ old.nodes.size := Nat.ne_of_lt linked.root_lt
  constructor
  · rw [step.size_eq]
    exact Nat.lt_succ_of_lt linked.root_lt
  · rw [step.kind_eq, if_neg hroot, linked.root_kind]
  · rw [step.parent_eq, if_neg hroot, linked.root_parent]
  · intro o i
    have hold := @linked.mem_children o i
    rw [step.children_eq, step.parent_eq]
    by_cases ho : o = outer
    · subst ho
      by_cases hi : i = old.nodes.size
      · simp [hi]
      · simp [hi, hold]
    · by_cases hi : i = old.nodes.size
      · subst hi
        simp [ho, hold, hfresh, Ne.symm ho]
      · simp [ho, hi, hold]
  · intro o i h
    rw [step.parent_eq] at h
    split at h
    · cases h
      omega
    · exact linked.parent_lt h
  · intro pos
    rw [step.children_eq]
    split
    · refine List.pairwise_append.mpr ⟨linked.sorted pos, List.pairwise_singleton _ _, ?_⟩
      intro child hchild fresh hfresh
      rw [List.mem_singleton.mp hfresh]
      exact lt_size_of_parent (linked.mem_children.mp hchild)
    · exact linked.sorted pos
  · intro pos h
    rw [step.survives_eq, Bool.or_eq_false_iff] at h
    have hpos : pos ≠ old.nodes.size := by simpa using h.1
    have hne : pos ≠ outer := by
      rintro rfl
      simp [houter] at h
    rw [step.kind_eq, step.children_eq, if_neg hpos, if_neg hne]
    exact linked.bare h.2

theorem Entered.opened_cons (step : old.Entered new kind span (opened.headD root)) (linked : old.Linked)
    (h : old.Opened opened) : new.Opened (old.nodes.size :: opened) := by
  have hlt : opened.headD root < old.nodes.size :=
    linked.lt_size_of_survives h.survives_innermost
  constructor
  · constructor
    · rw [step.parent_eq, if_pos rfl]
    · intro sibling hsibling
      rw [step.children_eq, if_pos rfl, List.mem_append, List.mem_singleton] at hsibling
      rcases hsibling with hold | rfl
      · exact Nat.le_of_lt (lt_size_of_parent (linked.mem_children.mp hold))
      · exact Nat.le_refl _
  · refine h.mono linked ?_ (Nat.le_refl _)
    intro i o ho hlast
    have hi : i ≠ old.nodes.size := Nat.ne_of_lt (lt_size_of_parent hlast.1)
    rw [LastIn, step.parent_eq, step.children_eq, if_neg hi, if_neg (Nat.ne_of_lt ho)]
    exact hlast

/-! ### A node is contracted -/

theorem Contracted.survives_eq (step : old.Contracted new gone outer inner)
    (hinner : old.parent? inner = some gone) (hgone : gone ≠ root) (pos : Nat) :
    new.survives pos = (pos != gone && old.survives pos) := by
  simp only [survives, step.parent_eq]
  by_cases hpos : pos = gone
  · subst hpos
    simp [hgone]
  · by_cases hin : pos = inner
    · subst hin
      simp [hpos, hinner]
    · simp [hpos, hin]

theorem Contracted.linked (step : old.Contracted new gone outer inner) (linked : old.Linked)
    (hlast : old.LastIn gone outer) (hwraps : old.Wraps gone inner) : new.Linked := by
  have hinner : old.parent? inner = some gone := linked.parent_of_wraps hwraps
  obtain ⟨hother, hchildren, _⟩ := hwraps
  have hparent : old.parent? gone = some outer := hlast.1
  have houter_lt : outer < gone := linked.parent_lt hparent
  have hinner_lt : gone < inner := linked.parent_lt hinner
  have hgone : gone ≠ root := Nat.ne_of_gt (Nat.zero_lt_of_lt houter_lt)
  constructor
  · rw [step.size_eq]
    exact linked.root_lt
  · rw [step.kind_eq, linked.root_kind]
  · have hroot : root ≠ inner := Nat.ne_of_lt (Nat.zero_lt_of_lt hinner_lt)
    rw [step.parent_eq, if_neg hgone.symm, if_neg hroot, linked.root_parent]
  · intro o i
    have hold : ∀ {a}, a ∈ old.children o ↔ old.parent? a = some o := linked.mem_children
    rw [step.children_eq, step.parent_eq]
    by_cases ho : o = gone
    · subst ho
      rw [if_pos rfl]
      grind
    · by_cases hout : o = outer
      · subst hout
        rw [if_neg ho, if_pos rfl, List.mem_map]
        grind
      · rw [if_neg ho, if_neg hout, hold]
        grind
  · intro o i h
    rw [step.parent_eq] at h
    split at h
    · cases h
    · split at h
      · cases h
        omega
      · exact linked.parent_lt h
  · intro pos
    rw [step.children_eq]
    split
    · exact List.Pairwise.nil
    · split
      · -- the node that goes is the last child, so its place is the end of the list
        subst pos
        refine List.pairwise_map.mpr ((linked.sorted outer).imp_of_mem ?_)
        intro a b ha hb hab
        have hb_le : b ≤ gone := hlast.2 b hb
        have ha_ne : a ≠ gone := by omega
        rw [if_neg ha_ne]
        split <;> omega
      · exact linked.sorted pos
  · intro pos h
    rw [step.survives_eq hinner hgone, Bool.and_eq_false_iff] at h
    rw [step.kind_eq, step.children_eq]
    rcases h with hpos | hdead
    · have hpos : pos = gone := by simpa using hpos
      simp [hpos, hother]
    · have hne : pos ≠ outer := by
        rintro rfl
        simpa [(linked.bare hdead).2] using linked.mem_children.mpr hparent
      rw [if_neg hne, (linked.bare hdead).1, (linked.bare hdead).2]
      simp

theorem Contracted.opened_tail (step : old.Contracted new gone (opened.headD root) inner)
    (linked : old.Linked) (hinner : old.parent? inner = some gone)
    (h : old.Opened (gone :: opened)) : new.Opened opened := by
  have hparent : old.parent? gone = some (opened.headD root) := h.1.1
  have hlt : opened.headD root < gone := linked.parent_lt hparent
  refine h.2.mono linked ?_ (Nat.le_refl _)
  intro i o ho hlast
  have hi : i ≠ gone := by
    rintro rfl
    have := Option.some.inj (hlast.1.symm.trans hparent)
    omega
  have hin : i ≠ inner := by
    rintro rfl
    have := Option.some.inj (hlast.1.symm.trans hinner)
    omega
  rw [LastIn, step.parent_eq, step.children_eq, if_neg hi, if_neg hin, if_neg (by omega),
    if_neg (by omega)]
  exact hlast

/-! ### Hints -/

theorem Alike.linked (step : old.Alike new) (linked : old.Linked) : new.Linked := by
  have hsurvives : ∀ pos, new.survives pos = old.survives pos := fun pos => by
    simp only [survives, step.parent_eq]
  constructor
  · rw [step.size_eq]
    exact linked.root_lt
  · rw [step.kind_eq, linked.root_kind]
  · rw [step.parent_eq, linked.root_parent]
  · intro o i
    rw [step.children_eq, step.parent_eq, linked.mem_children]
  · intro o i h
    rw [step.parent_eq] at h
    exact linked.parent_lt h
  · intro pos
    rw [step.children_eq]
    exact linked.sorted pos
  · intro pos h
    rw [hsurvives] at h
    rw [step.kind_eq, step.children_eq]
    exact linked.bare h

theorem Alike.opened_same (step : old.Alike new) (linked : old.Linked) (h : old.Opened opened) :
    new.Opened opened := by
  refine h.mono linked ?_ (Nat.le_refl _)
  intro i o _ hlast
  rw [LastIn, step.parent_eq, step.children_eq]
  exact hlast

/-! ## What follows in a linked tree -/

/-- A node that was contracted away: it has no parent and no children, and is nobody's child. -/
structure Detached (tree : Tree) (pos : Nat) : Prop where
  kind_other : tree.kind pos = .other
  no_parent : tree.parent? pos = none
  no_children : tree.children pos = []
  no_child : ∀ outer, pos ∉ tree.children outer

theorem Linked.detached_iff (linked : tree.Linked) :
    tree.Detached pos ↔ tree.survives pos = false := by
  constructor
  · intro detached
    have hroot : pos ≠ root := by
      rintro rfl
      simpa [linked.root_kind] using detached.kind_other
    simp [survives, hroot, detached.no_parent]
  · intro h
    have hparent : tree.parent? pos = none := by simpa [survives] using (Bool.or_eq_false_iff.mp h).2
    refine ⟨(linked.bare h).1, hparent, (linked.bare h).2, ?_⟩
    intro outer hchild
    simpa [hparent] using linked.mem_children.mp hchild

theorem Linked.count_children (linked : tree.Linked) (h : tree.parent? inner = some outer) :
    (tree.children outer).count inner = 1 := by
  have hnodup : (tree.children outer).Nodup := (linked.sorted outer).imp Nat.ne_of_lt
  exact List.count_eq_one_of_mem hnodup (linked.mem_children.mpr h)

/-- Going up from a node with a place ends at the root, since every parent comes earlier. -/
theorem Linked.reaches_root (linked : tree.Linked) (h : tree.survives pos = true) :
    Relation.ReflTransGen (fun inner outer => tree.parent? inner = some outer) pos root := by
  induction pos using Nat.strongRecOn with
  | _ pos ih =>
      rcases survives_iff.mp h with rfl | ⟨outer, hparent⟩
      · exact Relation.ReflTransGen.refl
      · have houter : tree.survives outer = true := by
          by_contra hdead
          have hnone := (linked.bare (Bool.eq_false_iff.mpr hdead)).2
          simpa [hnone] using linked.mem_children.mpr hparent
        exact Relation.ReflTransGen.head hparent (ih outer (linked.parent_lt hparent) houter)

end Tree

/-! ## Every run of the builder -/

namespace Builder

structure Sound (builder : Builder) (filePath source : String) : Prop where
  linked : (builder.draft filePath source).Linked
  opened : (builder.draft filePath source).Opened builder.opened

variable {builder : Builder} {filePath source : String}

theorem start_lone (filePath source : String) (pos : Nat) :
    ((start source).draft filePath source).parent? pos = none ∧
      ((start source).draft filePath source).children pos = [] := by
  cases pos with
  | zero => exact ⟨rfl, rfl⟩
  | succ pos => simp [draft, start, Tree.parent?, Tree.children, Tree.node?]

theorem start_sound (filePath source : String) : (start source).Sound filePath source := by
  have hlone := start_lone filePath source
  refine ⟨⟨Nat.zero_lt_one, rfl, rfl, ?_, ?_, ?_, ?_⟩, trivial⟩
  · intro outer inner
    simp [hlone]
  · intro outer inner h
    simp [hlone] at h
  · intro pos
    rw [(hlone pos).2]
    exact List.Pairwise.nil
  · intro pos h
    cases pos with
    | zero => cases h
    | succ pos => exact ⟨by simp [draft, start, Tree.kind, Tree.node?], (hlone _).2⟩

theorem Sound.innermost_survives (sound : builder.Sound filePath source) :
    (builder.draft filePath source).survives builder.innermost = true :=
  sound.opened.survives_innermost

theorem Sound.entered (sound : builder.Sound filePath source) (kind : Kind) (span : Span) :
    (builder.draft filePath source).Entered ((builder.enter kind span).draft filePath source)
      kind span builder.innermost :=
  enter_entered (sound.linked.lt_size_of_survives sound.innermost_survives) kind span

/-- Ending a node contracts it when it adds nothing, and changes nothing else. -/
theorem Sound.leave_cases (sound : builder.Sound filePath source) {pos : Nat} {outer : List Nat}
    (h : builder.opened = pos :: outer) :
    (∃ inner, (builder.draft filePath source).Wraps pos inner ∧
      (builder.draft filePath source).Contracted (builder.leave.draft filePath source)
        pos (outer.headD Tree.root) inner) ∨
    (∀ inner, ¬ (builder.draft filePath source).Wraps pos inner) ∧
      builder.leave.draft filePath source = builder.draft filePath source := by
  have hopened := sound.opened
  rw [h] at hopened
  have hparent : (builder.draft filePath source).parent? pos = some (outer.headD Tree.root) :=
    hopened.1.1
  have hbound : ∀ child ∈ (builder.draft filePath source).children pos,
      child < builder.nodes.size :=
    fun child hchild => Tree.lt_size_of_parent (sound.linked.mem_children.mp hchild)
  have hleave :
      builder.leave = { builder with nodes := contract builder.nodes pos, opened := outer } := by
    simp [leave, h]
  cases hwrapped : wrapped? builder.nodes pos with
  | none =>
      refine Or.inr ⟨?_, by simp [hleave, draft, contract, hwrapped]⟩
      intro inner hwraps
      simpa [hwrapped] using (wrapped?_iff_wraps hbound).mpr ⟨hparent, hwraps⟩
  | some found =>
      obtain ⟨found, inner⟩ := found
      obtain ⟨hfound, hwraps⟩ := (wrapped?_iff_wraps hbound).mp hwrapped
      cases hfound.symm.trans hparent
      refine Or.inl ⟨inner, hwraps, ?_⟩
      rw [hleave]
      exact contract_contracted hwrapped

theorem leave_opened (builder : Builder) : builder.leave.opened = builder.opened.tail := by
  cases h : builder.opened <;> simp [leave, h]

theorem leave_of_nothing_opened (h : builder.opened = []) : builder.leave = builder := by
  simp [leave, h]

theorem Sound.enter (sound : builder.Sound filePath source) (kind : Kind) (span : Span) :
    (builder.enter kind span).Sound filePath source where
  linked := (sound.entered kind span).linked sound.linked sound.innermost_survives
  opened := (sound.entered kind span).opened_cons sound.linked sound.opened

theorem Sound.leave (sound : builder.Sound filePath source) : builder.leave.Sound filePath source := by
  cases hopened : builder.opened with
  | nil =>
      rw [leave_of_nothing_opened hopened]
      exact sound
  | cons pos outer =>
      have hchain := sound.opened
      have htail : builder.leave.opened = outer := by rw [leave_opened, hopened, List.tail_cons]
      rw [hopened] at hchain
      rcases sound.leave_cases hopened with ⟨inner, hwraps, step⟩ | ⟨_, hsame⟩
      · refine ⟨step.linked sound.linked hchain.1 hwraps, ?_⟩
        rw [htail]
        exact step.opened_tail sound.linked (sound.linked.parent_of_wraps hwraps) hchain
      · refine ⟨?_, ?_⟩
        · rw [hsame]
          exact sound.linked
        · rw [hsame, htail]
          exact hchain.2

theorem Sound.setHint (sound : builder.Sound filePath source) (pos : Nat) (text : String) :
    (builder.setHint pos text).Sound filePath source where
  linked := (setHint_alike pos text).linked sound.linked
  opened := (setHint_alike pos text).opened_same sound.linked sound.opened

theorem Sound.run (sound : builder.Sound filePath source) (step : Step) :
    (builder.run step).Sound filePath source := by
  cases step with
  | enter kind span => exact sound.enter kind span
  | leaf kind span => exact (sound.enter kind span).leave
  | leave => exact sound.leave
  | hint pos text => exact sound.setHint pos text

theorem Sound.foldl_run (sound : builder.Sound filePath source) (steps : List Step) :
    (steps.foldl Builder.run builder).Sound filePath source := by
  induction steps generalizing builder with
  | nil => exact sound
  | cons step rest ih => exact ih (sound.run step)

theorem Sound.close (sound : builder.Sound filePath source) :
    builder.close.Sound filePath source := by
  unfold Builder.close
  generalize builder.opened = opened
  induction opened generalizing builder with
  | nil => exact sound
  | cons pos outer ih => exact ih sound.leave

end Builder

theorem Tree.ofSteps_linked (filePath source : String) (steps : List Step) :
    (Tree.ofSteps filePath source steps).Linked :=
  ((Builder.start_sound filePath source).foldl_run steps).close.linked

/-- The links of a finished tree, whatever steps it was built by. The root alone has no parent and yet
a place. Every other node is detached, or stands once in one child list, that of its parent. Parents
come before their children and child lists are in order, so every position in the tree lies in the
table and every node with a place is below the root. -/
theorem Tree.ofSteps_well_formed (filePath source : String) (steps : List Step) :
    let tree := Tree.ofSteps filePath source steps
    let Parent := fun inner outer => tree.parent? inner = some outer
    (∀ pos < tree.nodes.size, tree.parent? pos = none ∧ ¬ tree.Detached pos ↔ pos = root) ∧
    (∀ pos < tree.nodes.size, pos ≠ root →
      tree.Detached pos ∨
      ∃ outer, Parent pos outer ∧ (tree.children outer).count pos = 1 ∧
        ∀ other, pos ∈ tree.children other → other = outer) ∧
    (∀ inner outer, Parent inner outer → outer < inner) ∧
    (∀ inner outer, inner ∈ tree.children outer → outer < inner) ∧
    (∀ pos, (tree.children pos).Pairwise (· < ·)) ∧
    (∀ inner outer, Parent inner outer → outer < tree.nodes.size) ∧
    (∀ inner outer, inner ∈ tree.children outer → inner < tree.nodes.size) ∧
    root < tree.nodes.size ∧
    (∀ pos < tree.nodes.size, ¬ tree.Detached pos → Relation.ReflTransGen Parent pos root) := by
  intro tree Parent
  have linked : tree.Linked := ofSteps_linked filePath source steps
  have hplace : ∀ {pos}, ¬ tree.Detached pos → tree.survives pos = true := fun h => by
    simpa [linked.detached_iff] using h
  refine ⟨?_, ?_, fun _ _ h => linked.parent_lt h,
    fun _ _ h => linked.parent_lt (linked.mem_children.mp h), linked.sorted, ?_,
    fun _ _ h => lt_size_of_parent (linked.mem_children.mp h), linked.root_lt,
    fun _ _ h => linked.reaches_root (hplace h)⟩
  · intro pos _
    constructor
    · rintro ⟨hparent, hkept⟩
      rcases survives_iff.mp (hplace hkept) with hroot | ⟨outer, houter⟩
      · exact hroot
      · rw [hparent] at houter
        cases houter
    · rintro rfl
      refine ⟨linked.root_parent, fun detached => ?_⟩
      have hkind := detached.kind_other
      rw [linked.root_kind] at hkind
      cases hkind
  · intro pos _ hroot
    by_cases hdetached : tree.Detached pos
    · exact Or.inl hdetached
    · obtain hpos | ⟨outer, hparent⟩ := survives_iff.mp (hplace hdetached)
      · exact absurd hpos hroot
      · refine Or.inr ⟨outer, hparent, linked.count_children hparent, ?_⟩
        intro other hother
        exact Option.some.inj ((linked.mem_children.mp hother).symm.trans hparent)
  · intro inner outer h
    exact Nat.lt_trans (linked.parent_lt h) (lt_size_of_parent h)

end ActionAtlas.Syntax
