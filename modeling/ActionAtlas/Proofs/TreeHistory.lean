import ActionAtlas.Proofs.Ancestry
import ActionAtlas.Proofs.Nesting
import Mathlib.Data.List.Find

/-!
# How nodes began and what is left above them

The parent of a node is the nearest of the nodes it began inside of that is still there. One step
changes at most one parent, and then to what the node that goes had as its own; so the ancestors of a
node are what is left of the nodes that were open when it began.
-/

namespace ActionAtlas.Syntax.Tree

open Nesting (Chronicle)

variable {old new tree : Tree} {begun : List Beginning} {openNow : List Nat} {kind : Kind}
  {span : Span} {outer gone inner pos : Nat}

/-! ## Nodes stay what they began as -/

def Records (tree : Tree) (begun : List Beginning) : Prop :=
  ∀ pos beginning, begun[pos]? = some beginning →
    tree.kind pos = beginning.kind ∧ tree.span pos = beginning.span

theorem Entered.records (step : old.Entered new kind span outer)
    (hcount : begun.length = old.nodes.size) (around : List Nat) (h : old.Records begun) :
    new.Records (begun ++ [⟨kind, span, around⟩]) := by
  intro pos beginning hpos
  rw [Nesting.getElem?_begun_concat, hcount] at hpos
  rw [step.kind_eq, step.span_eq]
  split at hpos
  · rename_i hfresh
    cases hpos
    simp [hfresh]
  · rename_i hne
    rw [if_neg hne, if_neg hne]
    exact h pos beginning hpos

/-! ## Parents are the nearest that are left -/

/-- The parent of a node is the nearest of the nodes it began inside of that is still there. -/
def Remembers (tree : Tree) (begun : List Beginning) : Prop :=
  ∀ pos beginning, begun[pos]? = some beginning → tree.survives pos = true →
    tree.parent? pos = beginning.around.find? tree.survives

theorem Entered.remembers (step : old.Entered new kind span outer) (chronicle : Chronicle begun openNow)
    (hcount : begun.length = old.nodes.size) (houter : old.survives outer = true) (rest : List Nat)
    (h : old.Remembers begun) : new.Remembers (begun ++ [⟨kind, span, outer :: rest⟩]) := by
  intro pos beginning hpos hsurvives
  rw [Nesting.getElem?_begun_concat, hcount] at hpos
  rw [step.parent_eq]
  split at hpos
  · rename_i hfresh
    cases hpos
    have hstays : new.survives outer = true := by rw [step.survives_eq, houter, Bool.or_true]
    rw [if_pos hfresh, List.find?_cons_of_pos hstays]
  · rename_i hne
    have hlt : pos < old.nodes.size := hcount ▸ (List.getElem?_eq_some_iff.mp hpos).choose
    have hold : old.survives pos = true := by
      rw [step.survives_eq] at hsurvives
      simpa [hne] using hsurvives
    rw [if_neg hne, h pos beginning hpos hold]
    refine List.find?_congr fun above habove => ?_
    have hbefore : above < pos := chronicle.lt_of_mem_around hpos habove
    have hne' : above ≠ old.nodes.size := by omega
    simp [step.survives_eq, hne']

/-- A search that does not end at an element gives the same when it passes that element over. -/
private theorem find?_passing {p : Nat → Bool} {xs : List Nat} (h : xs.find? p ≠ some gone) :
    xs.find? (fun x => x != gone && p x) = xs.find? p := by
  induction xs with
  | nil => rfl
  | cons x rest ih =>
      by_cases hx : p x = true
      · have hne : x ≠ gone := by
          rintro rfl
          exact h (List.find?_cons_of_pos hx)
        simp [hx, hne]
      · rw [List.find?_cons_of_neg hx] at h ⊢
        rw [List.find?_cons_of_neg (by simp [hx]), ih h]

theorem Contracted.remembers (step : old.Contracted new gone outer inner) (linked : old.Linked)
    (chronicle : Chronicle begun openNow) (hparent : old.parent? gone = some outer)
    (hchildren : old.children gone = [inner]) (h : old.Remembers begun) : new.Remembers begun := by
  have hinner : old.parent? inner = some gone := linked.mem_children.mp (by simp [hchildren])
  have hlt : outer < gone := linked.parent_lt hparent
  have hroot : gone ≠ root := Nat.ne_of_gt (Nat.zero_lt_of_lt hlt)
  have hsurvives : new.survives = fun pos => pos != gone && old.survives pos :=
    funext (step.survives_eq hinner hroot)
  intro pos beginning hpos hstays
  rw [hsurvives] at hstays ⊢
  simp only [Bool.and_eq_true, bne_iff_ne, ne_eq] at hstays
  have hnearest := h pos beginning hpos hstays.2
  rw [step.parent_eq, if_neg hstays.1]
  split
  · -- the node below the one that goes: its parent is what that one had
    rename_i hbelow
    subst hbelow
    rw [hinner] at hnearest
    obtain ⟨hgone, front, rest, hsplit, hfront⟩ := List.find?_eq_some_iff_append.mp hnearest.symm
    obtain ⟨before, hbefore, hrest⟩ := chronicle.around_of_suffix hpos ⟨front, hsplit.symm⟩
    have hup : rest.find? old.survives = some outer := by
      rw [← hrest, ← h gone before hbefore hgone, hparent]
    have hpassed : front.find? (fun pos => pos != gone && old.survives pos) = none := by
      refine List.find?_eq_none.mpr fun x hx => ?_
      have hdead : old.survives x = false := by simpa using hfront x hx
      simp [hdead]
    rw [hsplit, List.find?_append, hpassed, Option.none_or, List.find?_cons_of_neg (by simp),
      find?_passing (by rw [hup]; simpa using Nat.ne_of_lt hlt), hup]
  · rename_i hne
    have hother : old.parent? pos ≠ some gone := by
      intro hgone
      have hmem := linked.mem_children.mpr hgone
      rw [hchildren] at hmem
      exact hne (List.mem_singleton.mp hmem)
    rw [hnearest] at hother ⊢
    exact (find?_passing hother).symm

theorem Alike.remembers (step : old.Alike new) (h : old.Remembers begun) : new.Remembers begun := by
  have hsurvives : new.survives = old.survives := by
    funext pos
    simp only [survives, step.parent_eq]
  intro pos beginning hpos hstays
  rw [hsurvives] at hstays ⊢
  rw [step.parent_eq, h pos beginning hpos hstays]

/-- Above a node is what is left of the nodes that it began inside of. -/
theorem Remembers.ancestors_eq (h : tree.Remembers begun) (linked : tree.Linked)
    (chronicle : Chronicle begun openNow) {beginning : Beginning}
    (hpos : begun[pos]? = some beginning) (hstays : tree.survives pos = true) :
    tree.ancestors pos = beginning.around.filter tree.survives := by
  induction pos using Nat.strongRecOn generalizing beginning with
  | _ pos ih =>
      have hnearest := h pos beginning hpos hstays
      cases hparent : tree.parent? pos with
      | none =>
          rw [hparent] at hnearest
          rw [ancestors_of_no_parent hparent]
          refine (List.filter_eq_nil_iff.mpr ?_).symm
          intro outer houter
          exact List.find?_eq_none.mp hnearest.symm outer houter
      | some outer =>
          rw [hparent] at hnearest
          obtain ⟨houter, front, rest, hsplit, hfront⟩ :=
            List.find?_eq_some_iff_append.mp hnearest.symm
          obtain ⟨before, hbefore, hrest⟩ := chronicle.around_of_suffix hpos ⟨front, hsplit.symm⟩
          have hpassed : front.filter tree.survives = [] :=
            List.filter_eq_nil_iff.mpr fun x hx => by simpa using hfront x hx
          rw [linked.ancestors_of_parent hparent, ih outer (linked.parent_lt hparent) hbefore houter,
            hrest, hsplit, List.filter_append, hpassed, List.nil_append, List.filter_cons_of_pos houter]

end ActionAtlas.Syntax.Tree
