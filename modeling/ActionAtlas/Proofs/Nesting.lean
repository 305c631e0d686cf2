import ActionAtlas.Syntax.Builder
import Mathlib.Data.List.Infix

/-!
# The nesting that steps describe

Steps read as nodes inside nodes, with no table and no node ever removed. A node is inside those that
were open when it began; a step that ends nothing is passed over, and what has not ended ends with the
root. `Nest.contract` is what a tree should keep of it: from the inside out, a node that adds nothing
gives way to its only child.

The nodes that were open when one node began and those open when the next one began differ by what
ended in between. That is the one law of `Chronicle`, and all that is said here about who was open
when follows from it.
-/

namespace ActionAtlas.Syntax

/-- Nodes inside nodes, each with the position that it has in the table. -/
inductive Nest where
  | node (pos : Nat) (kind : Kind) (span : Span) (inner : List Nest)

namespace Nest

def span : Nest → Span
  | .node _ _ span _ => span

/-- A node around others; it gives way to its only child when it adds nothing to it. -/
def settle (pos : Nat) (kind : Kind) (span : Span) (inner : List Nest) : Nest :=
  match kind, inner with
  | .other, [only] => if only.span = span then only else .node pos kind span inner
  | _, _ => .node pos kind span inner

mutual

/-- The nest without the nodes that add nothing, from the inside out. -/
def contract : Nest → Nest
  | .node pos kind span inner => settle pos kind span (contractAll inner)

def contractAll : List Nest → List Nest
  | [] => []
  | first :: rest => first.contract :: contractAll rest

end

theorem contractAll_eq_map (nests : List Nest) : contractAll nests = nests.map contract := by
  induction nests with
  | nil => rfl
  | cons first rest ih => rw [contractAll, ih, List.map_cons]

end Nest

/-- A node that has not ended, with what has ended inside it. -/
structure Frame where
  pos : Nat
  kind : Kind
  span : Span
  inner : List Nest

def Frame.nest (frame : Frame) : Nest := .node frame.pos frame.kind frame.span frame.inner

/-- How a node began: what it is, and the nodes that were open then, innermost first. -/
structure Beginning where
  kind : Kind
  span : Span
  around : List Nat

/-- The nodes begun so far, in order, and those of them that have not ended: the innermost one, and
the ones around it up to the root. -/
structure Nesting where
  begun : List Beginning
  innermost : Frame
  outer : List Frame

namespace Nesting

def start (source : String) : Nesting where
  begun := [⟨.sourceFile, ⟨0, source.utf8ByteSize⟩, []⟩]
  innermost := ⟨Tree.root, .sourceFile, ⟨0, source.utf8ByteSize⟩, []⟩
  outer := []

def openNow (nesting : Nesting) : List Nat :=
  nesting.innermost.pos :: nesting.outer.map (·.pos)

def enter (nesting : Nesting) (kind : Kind) (span : Span) : Nesting where
  begun := nesting.begun ++ [⟨kind, span, nesting.openNow⟩]
  innermost := ⟨nesting.begun.length, kind, span, []⟩
  outer := nesting.innermost :: nesting.outer

/-- End the innermost node; the root never ends. -/
def leave (nesting : Nesting) : Nesting :=
  match nesting.outer with
  | [] => nesting
  | next :: rest =>
      { nesting with
        innermost := { next with inner := next.inner ++ [nesting.innermost.nest] }
        outer := rest }

def run (nesting : Nesting) : Step → Nesting
  | .enter kind span => nesting.enter kind span
  | .leaf kind span => (nesting.enter kind span).leave
  | .leave => nesting.leave
  | .hint _ _ => nesting

def close (nesting : Nesting) : Nesting :=
  nesting.outer.foldl (fun n _ => n.leave) nesting

def ofSteps (source : String) (steps : List Step) : Nesting :=
  (steps.foldl run (start source)).close

def whole (nesting : Nesting) : Nest := nesting.innermost.nest

def openWhen (nesting : Nesting) (pos : Nat) : List Nat :=
  (nesting.begun[pos]?.map (·.around)).getD []

theorem leave_outer (nesting : Nesting) : nesting.leave.outer = nesting.outer.tail := by
  cases h : nesting.outer <;> simp [leave, h]

/-- In the end only the root is open. -/
theorem close_outer (nesting : Nesting) : nesting.close.outer = [] := by
  have hdrop : ∀ (frames : List Frame) (nesting : Nesting),
      (frames.foldl (fun n _ => n.leave) nesting).outer = nesting.outer.drop frames.length := by
    intro frames
    induction frames with
    | nil => exact fun nesting => rfl
    | cons frame rest ih =>
        intro nesting
        rw [List.foldl_cons, ih, leave_outer, List.drop_tail, List.length_cons]
  rw [close, hdrop, List.drop_length]

/-! ## Who was open when -/

/-- Between two beginnings, nodes only end. -/
structure Chronicle (begun : List Beginning) (openNow : List Nat) : Prop where
  first : ∀ {before}, begun[0]? = some before → before.around = []
  next : ∀ {pos before after}, begun[pos]? = some before → begun[pos + 1]? = some after →
    after.around <:+ pos :: before.around
  now : ∀ {pos before}, begun[pos]? = some before → begun[pos + 1]? = none →
    openNow <:+ pos :: before.around

variable {begun : List Beginning} {openNow : List Nat} {pos outer : Nat} {beginning : Beginning}

theorem getElem?_begun_concat (begun : List Beginning) (last : Beginning) (pos : Nat) :
    (begun ++ [last])[pos]? = if pos = begun.length then some last else begun[pos]? := by
  grind

theorem Chronicle.enter (chronicle : Chronicle begun openNow) (hbegun : begun ≠ []) (kind : Kind)
    (span : Span) : Chronicle (begun ++ [⟨kind, span, openNow⟩]) (begun.length :: openNow) := by
  have hlength : 0 < begun.length := List.length_pos_of_ne_nil hbegun
  constructor
  · intro before h
    rw [getElem?_begun_concat, if_neg (by omega)] at h
    exact chronicle.first h
  · intro pos before after hbefore hafter
    rw [getElem?_begun_concat] at hbefore hafter
    have hpos : pos ≠ begun.length := by
      rintro rfl
      rw [if_neg (by omega), List.getElem?_eq_none (by omega)] at hafter
      cases hafter
    rw [if_neg hpos] at hbefore
    split at hafter
    · rename_i hlast
      cases hafter
      exact chronicle.now hbefore (List.getElem?_eq_none (by omega))
    · exact chronicle.next hbefore hafter
  · intro pos before hbefore hend
    rw [getElem?_begun_concat] at hbefore
    have hpos : pos = begun.length := by
      have hpast := List.getElem?_eq_none_iff.mp hend
      rw [List.length_append, List.length_singleton] at hpast
      by_contra hne
      rw [if_neg hne, List.getElem?_eq_none (by omega)] at hbefore
      cases hbefore
    rw [if_pos hpos] at hbefore
    cases hbefore
    rw [hpos]

theorem Chronicle.leave (chronicle : Chronicle begun (pos :: openNow)) : Chronicle begun openNow :=
  ⟨chronicle.first, chronicle.next,
    fun h hend => (List.suffix_cons pos openNow).trans (chronicle.now h hend)⟩

/-- What a node begins inside of is found at the beginning before: one node more, or what that node
was inside of. -/
theorem Chronicle.before (chronicle : Chronicle begun openNow)
    (h : begun[pos + 1]? = some beginning) :
    ∃ before, begun[pos]? = some before ∧ beginning.around <:+ pos :: before.around := by
  have hlength := (List.getElem?_eq_some_iff.mp h).choose
  have hbefore : begun[pos]? = some begun[pos] := List.getElem?_eq_getElem (by omega)
  exact ⟨begun[pos], hbefore, chronicle.next hbefore h⟩

/-- What was open when a node began had begun before. -/
theorem Chronicle.lt_of_mem_around (chronicle : Chronicle begun openNow)
    (h : begun[pos]? = some beginning) (houter : outer ∈ beginning.around) : outer < pos := by
  induction pos generalizing beginning with
  | zero => simp [chronicle.first h] at houter
  | succ pos ih =>
      obtain ⟨before, hbefore, hsuffix⟩ := chronicle.before h
      rcases List.mem_cons.mp (hsuffix.subset houter) with rfl | hearlier
      · exact Nat.lt_succ_self _
      · exact Nat.lt_succ_of_lt (ih hbefore hearlier)

/-- The nodes that follow a node among the open ones are those that it began inside of. -/
theorem Chronicle.around_of_suffix (chronicle : Chronicle begun openNow) {rest : List Nat}
    (h : begun[pos]? = some beginning) (hsuffix : outer :: rest <:+ beginning.around) :
    ∃ before, begun[outer]? = some before ∧ before.around = rest := by
  induction pos generalizing beginning with
  | zero => simp [chronicle.first h] at hsuffix
  | succ pos ih =>
      obtain ⟨before, hbefore, hstep⟩ := chronicle.before h
      rcases List.suffix_cons_iff.mp (hsuffix.trans hstep) with heq | hearlier
      · cases heq
        exact ⟨before, hbefore, rfl⟩
      · exact ih hbefore hearlier

/-- A node that was open when another one began was open at all beginnings in between. -/
theorem Chronicle.mem_around_between (chronicle : Chronicle begun openNow) {middle : Nat}
    {between : Beginning} (h : begun[pos]? = some beginning) (houter : outer ∈ beginning.around)
    (hmiddle : begun[middle]? = some between) (hlow : outer < middle) (hhigh : middle < pos) :
    outer ∈ between.around := by
  induction pos generalizing beginning with
  | zero => omega
  | succ pos ih =>
      obtain ⟨before, hbefore, hsuffix⟩ := chronicle.before h
      have hearlier : outer ∈ before.around := by
        rcases List.mem_cons.mp (hsuffix.subset houter) with rfl | hearlier
        · omega
        · exact hearlier
      by_cases hlast : middle = pos
      · subst hlast
        cases hmiddle.symm.trans hbefore
        exact hearlier
      · exact ih hbefore hearlier (by omega)

end Nesting
end ActionAtlas.Syntax
