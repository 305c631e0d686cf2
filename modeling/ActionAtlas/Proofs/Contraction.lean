import ActionAtlas.Proofs.TreeHistory
import ActionAtlas.Proofs.TreeNests

/-!
# A built tree is the contraction of its nesting

The builder and the nesting go through the steps side by side. At every moment the nodes that are
open are the same, what has ended inside an open node stands below it in the tree as its contraction,
and the parent of a node is the nearest of the nodes it began inside of that is still there. At the
end only the root is open, so the tree is the contraction of all that the steps describe.
-/

namespace ActionAtlas.Syntax

/-! ## The builder and the nesting side by side -/

/-- What a builder and the nesting of the same steps have in common. -/
structure Builder.Follows (builder : Builder) (nesting : Nesting) (filePath source : String) : Prop where
  sound : builder.Sound filePath source
  count : nesting.begun.length = (builder.draft filePath source).nodes.size
  openNow_eq : nesting.openNow = builder.opened ++ [Tree.root]
  chronicle : Nesting.Chronicle nesting.begun nesting.openNow
  records : (builder.draft filePath source).Records nesting.begun
  remembers : (builder.draft filePath source).Remembers nesting.begun
  shows : (builder.draft filePath source).Shows nesting.openNow [] (nesting.innermost :: nesting.outer)
  settled : (builder.draft filePath source).Settled nesting.openNow

namespace Builder

variable {builder : Builder} {nesting : Nesting} {filePath source : String}

theorem start_follows (filePath source : String) :
    (start source).Follows (Nesting.start source) filePath source := by
  have sound := start_sound filePath source
  have hlone := start_lone filePath source
  refine ⟨sound, rfl, rfl, ⟨?_, ?_, ?_⟩, ?_, ?_, ⟨⟨rfl, rfl, [], rfl, by simp, rfl⟩, trivial⟩, ?_⟩
  · intro before h
    cases h
    rfl
  · intro pos before after _ h
    cases h
  · intro pos before h _
    cases pos with
    | zero =>
        cases h
        exact List.suffix_refl _
    | succ pos => cases h
  · intro pos beginning h
    cases pos with
    | zero =>
        cases h
        exact ⟨rfl, rfl⟩
    | succ pos => cases h
  · intro pos beginning h _
    cases pos with
    | zero =>
        cases h
        rfl
    | succ pos => cases h
  · intro pos inner _ hwraps
    have hchildren := hwraps.2.1
    rw [(hlone pos).2] at hchildren
    cases hchildren

namespace Follows

theorem innermost_eq (h : builder.Follows nesting filePath source) :
    builder.innermost = nesting.innermost.pos := by
  have hopen := h.openNow_eq
  unfold Nesting.openNow at hopen
  unfold Builder.innermost
  cases hopened : builder.opened with
  | nil => simp_all
  | cons pos outer => simp_all

theorem sorted (h : builder.Follows nesting filePath source) :
    nesting.openNow.Pairwise (· > ·) := by
  rw [h.openNow_eq]
  exact Tree.Opened.sorted h.sound.linked h.sound.opened

theorem closed (h : builder.Follows nesting filePath source) :
    (builder.draft filePath source).ClosedBelow nesting.openNow := by
  rw [h.openNow_eq]
  exact Tree.Opened.closedBelow h.sound.linked h.sound.opened

theorem enter (h : builder.Follows nesting filePath source) (kind : Kind) (span : Span) :
    (builder.enter kind span).Follows (nesting.enter kind span) filePath source := by
  have hentered := h.sound.entered kind span
  have hsurvives := h.sound.innermost_survives
  rw [h.innermost_eq] at hentered hsurvives
  have hlt := h.sound.linked.lt_size_of_survives hsurvives
  have hmem : nesting.innermost.pos ∈ nesting.openNow := List.mem_cons_self ..
  have hbegun : nesting.begun ≠ [] := by
    refine List.ne_nil_of_length_pos ?_
    rw [h.count]
    exact h.sound.linked.root_lt
  have hopen : (nesting.enter kind span).openNow =
      (builder.draft filePath source).nodes.size :: nesting.openNow := by
    rw [← h.count]
    rfl
  refine ⟨h.sound.enter kind span, ?_, ?_, h.chronicle.enter hbegun kind span, ?_, ?_, ?_, ?_⟩
  · rw [hentered.size_eq, ← h.count]
    exact List.length_append
  · rw [hopen, h.openNow_eq]
    rfl
  · exact hentered.records h.count nesting.openNow h.records
  · exact hentered.remembers h.chronicle h.count hsurvives _ h.remembers
  · have hshows := hentered.shows h.sound.linked h.closed rfl h.sorted hlt h.shows
    rw [hopen]
    rw [← h.count] at hshows ⊢
    exact hshows
  · rw [hopen]
    exact hentered.settled h.sound.linked hmem h.settled

/-- The open nodes of both sides when there is one besides the root. -/
theorem open_cases (h : builder.Follows nesting filePath source) :
    (nesting.outer = [] ∧ builder.opened = []) ∨
    ∃ next frames outer, nesting.outer = next :: frames ∧
      builder.opened = nesting.innermost.pos :: outer ∧ outer.headD Tree.root = next.pos ∧
      outer ++ [Tree.root] = next.pos :: frames.map (·.pos) := by
  have hopen := h.openNow_eq
  unfold Nesting.openNow at hopen
  cases hopened : builder.opened with
  | nil =>
      rw [hopened] at hopen
      exact Or.inl ⟨List.map_eq_nil_iff.mp (List.cons.inj hopen).2, rfl⟩
  | cons pos outer =>
      rw [hopened, List.cons_append, List.cons.injEq] at hopen
      obtain ⟨hpos, hrest⟩ := hopen
      cases hframes : nesting.outer with
      | nil => simp [hframes] at hrest
      | cons next frames =>
          rw [hframes, List.map_cons] at hrest
          refine Or.inr ⟨next, frames, outer, rfl, by rw [hpos], ?_, hrest.symm⟩
          cases outer with
          | nil => exact (List.cons.inj hrest).1.symm
          | cons first rest => exact (List.cons.inj hrest).1.symm

theorem leave (h : builder.Follows nesting filePath source) :
    builder.leave.Follows nesting.leave filePath source := by
  rcases h.open_cases with ⟨hnone, hopened⟩ | ⟨next, frames, outer, hframes, hopened, hnext, houter⟩
  · rw [leave_of_nothing_opened hopened, Nesting.leave, hnone]
    exact h
  · have hopen : nesting.openNow = nesting.innermost.pos :: next.pos :: frames.map (·.pos) := by
      rw [Nesting.openNow, hframes, List.map_cons]
    have hleave : nesting.leave =
        { nesting with
          innermost := { next with inner := next.inner ++ [nesting.innermost.nest] }
          outer := frames } := by
      rw [Nesting.leave, hframes]
    have htail : nesting.leave.openNow = nesting.openNow.tail := by
      rw [hleave, hopen]
      rfl
    have hopenEq : nesting.leave.openNow = builder.leave.opened ++ [Tree.root] := by
      rw [htail, hopen, leave_opened, hopened, List.tail_cons, List.tail_cons, houter]
    have hchronicle : Nesting.Chronicle nesting.leave.begun nesting.leave.openNow := by
      have hchronicle := h.chronicle
      rw [hopen] at hchronicle
      rw [htail, hopen, hleave]
      exact hchronicle.leave
    have hshows := h.shows
    have hsettled := h.settled
    have hlast := h.sound.opened
    rw [hframes] at hshows
    rw [hopen] at hsettled
    rw [hopened] at hlast
    rcases h.sound.leave_cases hopened with ⟨inner, hwraps, step⟩ | ⟨hwraps, hsame⟩
    · -- its only child takes its place
      rw [hnext] at step
      have hparent := hlast.1.1
      rw [hnext] at hparent
      refine ⟨h.sound.leave, ?_, hopenEq, hchronicle, ?_, ?_, ?_, ?_⟩
      · rw [step.size_eq, hleave]
        exact h.count
      · intro pos beginning hpos
        rw [hleave] at hpos
        rw [step.kind_eq, step.span_eq]
        exact h.records pos beginning hpos
      · rw [hleave]
        exact step.remembers h.sound.linked h.chronicle hparent hwraps.2.1 h.remembers
      · rw [htail, hleave]
        exact step.shows h.sound.linked h.closed hopen h.sorted hwraps hshows
      · rw [htail, hopen]
        exact step.settled (List.mem_cons_self ..) hsettled
    · -- it stays, and the tree is what it was
      refine ⟨h.sound.leave, ?_, hopenEq, hchronicle, ?_, ?_, ?_, ?_⟩
      all_goals rw [hsame]
      · rw [hleave]
        exact h.count
      · rw [hleave]
        exact h.records
      · rw [hleave]
        exact h.remembers
      · rw [htail, hleave]
        exact hshows.leave_unchanged h.sound.linked hopen h.sorted hwraps
      · rw [htail, hopen]
        exact hsettled.leave hwraps

theorem setHint (h : builder.Follows nesting filePath source) (pos : Nat) (text : String) :
    (builder.setHint pos text).Follows nesting filePath source := by
  have step : (builder.draft filePath source).Alike ((builder.setHint pos text).draft filePath source) :=
    setHint_alike pos text
  refine ⟨h.sound.setHint pos text, h.count.trans step.size_eq.symm, h.openNow_eq, h.chronicle, ?_,
    step.remembers h.remembers, ?_, step.settled h.settled⟩
  · intro pos beginning hpos
    rw [step.kind_eq, step.span_eq]
    exact h.records pos beginning hpos
  · refine h.shows.mono fun _ hshown => ?_
    exact hshown.mono (step.kind_eq _) (step.span_eq _) (step.children_eq _)
      fun _ hchild => ⟨hchild, step.nest_eq _⟩

theorem run (h : builder.Follows nesting filePath source) (step : Step) :
    (builder.run step).Follows (nesting.run step) filePath source := by
  cases step with
  | enter kind span => exact h.enter kind span
  | leaf kind span => exact (h.enter kind span).leave
  | leave => exact h.leave
  | hint pos text => exact h.setHint pos text

theorem foldl_run (h : builder.Follows nesting filePath source) (steps : List Step) :
    (steps.foldl Builder.run builder).Follows (steps.foldl Nesting.run nesting) filePath source := by
  induction steps generalizing builder nesting with
  | nil => exact h
  | cons step rest ih => exact ih (h.run step)

theorem foldl_leave (h : builder.Follows nesting filePath source) {opened : List Nat}
    {frames : List Frame} (hlength : opened.length = frames.length) :
    (opened.foldl (fun b _ => b.leave) builder).Follows
      (frames.foldl (fun n _ => n.leave) nesting) filePath source := by
  induction opened generalizing builder nesting frames with
  | nil =>
      cases List.length_eq_zero_iff.mp hlength.symm
      exact h
  | cons pos outer ih =>
      cases frames with
      | nil => cases hlength
      | cons frame rest => exact ih h.leave (Nat.succ.inj hlength)

theorem close (h : builder.Follows nesting filePath source) :
    builder.close.Follows nesting.close filePath source := by
  have hlength := congrArg List.length h.openNow_eq
  simp only [Nesting.openNow, List.length_cons, List.length_map, List.length_append, List.length_nil]
    at hlength
  exact h.foldl_leave (by omega)

end Follows

theorem ofSteps_follows (filePath source : String) (steps : List Step) :
    (steps.foldl run (start source)).close.Follows (Nesting.ofSteps source steps) filePath source :=
  ((start_follows filePath source).foldl_run steps).close

end Builder

/-! ## Finished trees -/

namespace Tree

variable (filePath source : String) (steps : List Step)

theorem ofSteps_begun {pos : Nat} (h : (Tree.ofSteps filePath source steps).survives pos = true) :
    ∃ beginning, (Nesting.ofSteps source steps).begun[pos]? = some beginning := by
  have follows := Builder.ofSteps_follows filePath source steps
  have hsize := follows.sound.linked.lt_size_of_survives h
  rw [← follows.count] at hsize
  exact ⟨_, List.getElem?_eq_getElem hsize⟩

/-- Above a node is what is left of the nodes that were open when it began. -/
theorem ofSteps_ancestors {pos : Nat} {beginning : Beginning}
    (hbegun : (Nesting.ofSteps source steps).begun[pos]? = some beginning)
    (h : (Tree.ofSteps filePath source steps).survives pos = true) :
    (Tree.ofSteps filePath source steps).ancestors pos =
      beginning.around.filter (Tree.ofSteps filePath source steps).survives := by
  have follows := Builder.ofSteps_follows filePath source steps
  exact follows.remembers.ancestors_eq follows.sound.linked follows.chronicle hbegun h

theorem ofSteps_contiguous : (Tree.ofSteps filePath source steps).Contiguous := by
  have follows := Builder.ofSteps_follows filePath source steps
  intro outer middle inner houter hlow hhigh hmiddle
  obtain ⟨parent, hparent, _⟩ := (ofSteps_linked filePath source steps).mem_ancestors_iff.mp houter
  have hinner : (Tree.ofSteps filePath source steps).survives inner = true :=
    survives_iff.mpr (Or.inr ⟨parent, hparent⟩)
  obtain ⟨beginning, hbegun⟩ := ofSteps_begun filePath source steps hinner
  obtain ⟨between, hbetween⟩ := ofSteps_begun filePath source steps hmiddle
  rw [ofSteps_ancestors filePath source steps hbegun hinner, List.mem_filter] at houter
  rw [ofSteps_ancestors filePath source steps hbetween hmiddle, List.mem_filter]
  exact ⟨follows.chronicle.mem_around_between hbegun houter.1 hbetween hlow hhigh, houter.2⟩

theorem ofSteps_innermost : (Nesting.ofSteps source steps).innermost.pos = root := by
  have follows := Builder.ofSteps_follows "" source steps
  have hopen := follows.openNow_eq
  have hclosed : (Nesting.ofSteps source steps).outer = [] := Nesting.close_outer _
  rw [Nesting.openNow, hclosed] at hopen
  cases hopened : (steps.foldl Builder.run (Builder.start source)).close.opened with
  | nil =>
      rw [hopened] at hopen
      exact (List.cons.inj hopen).1
  | cons pos outer =>
      rw [hopened] at hopen
      simp at hopen

theorem ofSteps_nest :
    (Tree.ofSteps filePath source steps).nest root = (Nesting.ofSteps source steps).whole.contract := by
  have follows := Builder.ofSteps_follows filePath source steps
  have hwraps : ∀ inner, ¬ (Tree.ofSteps filePath source steps).Wraps root inner := by
    intro inner hwraps
    have hkind := hwraps.1
    rw [(ofSteps_linked filePath source steps).root_kind] at hkind
    cases hkind
  rw [← ofSteps_innermost source steps] at hwraps ⊢
  exact (follows.shows.1.contract_of_not_wraps follows.sound.linked hwraps).symm

/-- A finished tree is the contraction of the nesting that its steps describe. So no node that is left
adds nothing, every node of a kind of interest is left, and of two nodes that are left one is above the
other exactly when it was open when the other one began. -/
theorem ofSteps_contracts_nesting (filePath source : String) (steps : List Step) :
    let tree := Tree.ofSteps filePath source steps
    let nesting := Nesting.ofSteps source steps
    tree.nest root = nesting.whole.contract ∧
    (∀ pos, tree.survives pos = true → tree.kind pos = .other →
      ∀ inner, tree.children pos = [inner] → tree.span inner ≠ tree.span pos) ∧
    tree.nodes.size = nesting.begun.length ∧
    (∀ pos beginning, nesting.begun[pos]? = some beginning →
      tree.kind pos = beginning.kind ∧ tree.span pos = beginning.span ∧
      (beginning.kind ≠ .other → tree.survives pos = true)) ∧
    (∀ inner outer, tree.survives inner = true → tree.survives outer = true →
      (outer ∈ tree.ancestors inner ↔ outer ∈ nesting.openWhen inner)) := by
  intro tree nesting
  have follows := Builder.ofSteps_follows filePath source steps
  have linked : tree.Linked := ofSteps_linked filePath source steps
  have hclosed : (Nesting.ofSteps source steps).outer = [] := Nesting.close_outer _
  refine ⟨ofSteps_nest filePath source steps, ?_, follows.count.symm, ?_, ?_⟩
  · intro pos _ hother inner hchildren hspan
    refine follows.settled pos inner ?_ ⟨hother, hchildren, hspan⟩
    rw [Nesting.openNow, hclosed, List.map_nil, ofSteps_innermost, List.mem_singleton]
    rintro rfl
    rw [linked.root_kind] at hother
    cases hother
  · intro pos beginning hbegun
    obtain ⟨hkind, hspan⟩ := follows.records pos beginning hbegun
    refine ⟨hkind, hspan, fun hother => ?_⟩
    by_contra hgone
    exact hother (hkind.symm.trans (linked.bare (Bool.eq_false_iff.mpr hgone)).1)
  · intro inner outer hinner houter
    obtain ⟨beginning, hbegun⟩ := ofSteps_begun filePath source steps hinner
    have hopen : nesting.openWhen inner = beginning.around := by
      rw [Nesting.openWhen, hbegun, Option.map_some, Option.getD_some]
    rw [ofSteps_ancestors filePath source steps hbegun hinner, hopen, List.mem_filter]
    exact and_iff_left houter

end Tree
end ActionAtlas.Syntax
